import Provenex.Integrations.Retrieval
import Provenex.ToolCall.Admission

/-! `integrations/langgraph/node.py`: the admission node, and the helper for nodes
that issue their receipts on their own. -/

namespace Provenex

/-- What the admission node reads of the graph's state, under the resolved keys. -/
structure ToolState where
  operation : Option PyVal
  targetSystem : Option PyVal
  invocationId : PyVal
  toolParameters : PyVal
  trajectory : Option TrajectoryContext
  receipts : List ProvenanceReceipt

structure ToolDelta where
  toolAdmitted : Bool
  toolDecision : Decision
  toolRulesFired : List String
  receipts : List ProvenanceReceipt
  trajectory : TrajectoryContext

/-- What the factory of the admission node was given. -/
structure AdmissionNode where
  name : PyVal
  policy : PolicyArg
  requestFactory : ToolState → Except PyErr RequestContext
  operation : PyVal
  targetSystem : PyVal
  paramsExtractor : Option (ToolState → Except PyErr PyDict)
  signer : Option ReceiptSigner
  stepKind : String
  agentId : Option String
  redactParameters : Bool

namespace AdmissionNode

/-- The parameters, where no extractor reads them. -/
def rawParameters : PyVal → PyDict
  | .none => []
  | .dict d => d
  | v => [(.str "input", v)]

def toolContext (node : AdmissionNode) (state : ToolState) : Except PyErr ToolCallContext := do
  let parameters ← match node.paramsExtractor with
    | some extract => extract state
    | none => .ok (rawParameters state.toolParameters)
  .ok {
    name := node.name
    operation := state.operation.getD node.operation
    parameters := parameters
    targetSystem := state.targetSystem.getD node.targetSystem
    invocationId := state.invocationId }

def args (node : AdmissionNode) (trajectory : TrajectoryContext) : AdmissionArgs where
  policy := node.policy
  signer := node.signer
  trajectory := some trajectory
  stepKind := some node.stepKind
  agentId := node.agentId
  outputText := ""
  redactParameters := node.redactParameters
  redactInputs := false
  callerHashSalt := none

/-- The node; `started` is the identifier and the time of a fresh trajectory. -/
def run (py : Stdlib) (node : AdmissionNode) (state : ToolState) (started : String × String)
    (issue : Issue) : Except PyErr ToolDelta := do
  let toolCtx ← node.toolContext state
  let request ← node.requestFactory state
  let trajectory := state.trajectory.getD
    (.start started.1 started.2 node.agentId (some node.stepKind) none)
  let result ← admissionCheck py toolCtx request (node.args trajectory) issue
  .ok {
    toolAdmitted := result.allowed
    toolDecision := result.decision
    toolRulesFired := result.rulesFired
    receipts := state.receipts ++ [result.receipt]
    trajectory := result.nextTrajectory.getD trajectory }

end AdmissionNode

/-- `record_step_receipt`: the receipts and the cursor after a receipt of the application's. -/
def recordStepReceipt (receipts : List ProvenanceReceipt) (trajectory : Option TrajectoryContext)
    (receipt : ProvenanceReceipt) (stepKind agentId : Option String) (started : String × String) :
    Except PyErr (List ProvenanceReceipt × TrajectoryContext) := do
  let next ← match trajectory with
    | none =>
      let fresh := TrajectoryContext.start started.1 started.2 agentId stepKind none
      fresh.nextStep [] [receipt.receiptId] stepKind none none
    | some t => t.nextStep [some receipt.receiptId] [] stepKind agentId none
  .ok (receipts ++ [receipt], next)

end Provenex
