import Provenex.ToolCall.Admission

/-! `integrations/crewai/session.py`: a session that keeps the cursor and the
receipts of a crew's run. What a call changes of the session is in its result. -/

namespace Provenex

structure ProvenexCrewSession (σ : Type) where
  index : ProvenanceIndex σ
  signer : Option ReceiptSigner
  policy : Policy
  fingerprinter : Fingerprinter
  agentId : Option String
  trajectory : TrajectoryContext
  receipts : List ProvenanceReceipt

/-- What a wrapped tool hands back: a text for a text, else a list. -/
inductive ToolOutput
  | text (s : String)
  | items (xs : List String)

/-- What comes of a call to a tool behind an admission check. -/
inductive GatedCall
  | denied (result : AdmissionResult)
  | invoked (args : List PyVal) (kwargs : PyDict)

/-- The options of `wrap_tool_admission`; the extractor and the factory are the application's. -/
structure GatedTool where
  name : PyVal
  operation : PyVal
  targetSystem : PyVal
  paramsExtractor : Option (List PyVal → PyDict → Except PyErr PyDict)
  requestFactory : List PyVal → PyDict → Except PyErr RequestContext
  stepKind : String
  agentId : Option String
  redactParameters : Bool

/-- The context of a call, from its arguments. -/
def GatedTool.toolContext (tool : GatedTool) (args : List PyVal) (kwargs : PyDict) :
    Except PyErr ToolCallContext := do
  let rest := without kwargs ["__operation__", "__target_system__", "__invocation_id__"]
  let parameters ← match tool.paramsExtractor with
    | some extract => extract args rest
    | none =>
      if rest ≠ [] then .ok rest
      else match args with
        | [arg] => .ok [(.str "input", arg)]
        | args => .ok (args.zipIdx.map fun e => (.str ("arg" ++ toString e.2), e.1))
  .ok {
    name := tool.name
    operation := getOr kwargs "__operation__" tool.operation
    parameters := parameters
    targetSystem := getOr kwargs "__target_system__" tool.targetSystem
    invocationId := getOr kwargs "__invocation_id__" .none }

namespace ProvenexCrewSession

variable {σ : Type}

/-- `__init__`, with the fresh identifier and the time of `start_trajectory`. -/
def init (index : ProvenanceIndex σ) (signer : Option ReceiptSigner) (policy : PolicyArg)
    (fingerprinter : Option Fingerprinter) (agentId : Option String) (trajectoryId now : String) :
    Except PyErr (ProvenexCrewSession σ) := do
  let policy ← coercePolicy policy
  .ok {
    index := index
    signer := signer
    policy := policy
    fingerprinter := fingerprinter.getD .default
    agentId := agentId
    trajectory := .start trajectoryId now agentId none none
    receipts := [] }

/-- The session once an emission has handed back a cursor and a receipt. -/
def thread (s : ProvenexCrewSession σ) (nextTrajectory : Option TrajectoryContext)
    (receipt : ProvenanceReceipt) : ProvenexCrewSession σ :=
  { s with
    trajectory := nextTrajectory.getD s.trajectory
    receipts := s.receipts ++ [receipt] }

def verifyArgs (s : ProvenexCrewSession σ) (chunks : Chunks) (stepKind : String)
    (agentId : Option String) (outputText : String) : VerifyArgs where
  chunks := chunks
  signer := s.signer
  policy := .policy s.policy
  fingerprinter := some s.fingerprinter
  trajectory := some s.trajectory
  stepKind := some stepKind
  agentId := agentId.or s.agentId
  outputText := outputText
  requestContext := none
  chunkMetadata := none
  chunkMetadataBinding := bindingAtEvaluate
  callerHashSalt := none
  contentSource := none

def admissionArgs (s : ProvenexCrewSession σ) (stepKind : String) (agentId : Option String)
    (outputText : String) (redactParameters redactInputs : Bool) : AdmissionArgs where
  policy := .policy s.policy
  signer := s.signer
  trajectory := some s.trajectory
  stepKind := some stepKind
  agentId := agentId.or s.agentId
  outputText := outputText
  redactParameters := redactParameters
  redactInputs := redactInputs
  callerHashSalt := none

section

variable (py : Stdlib)

def verifyChunks (s : ProvenexCrewSession σ) (chunks : Chunks) (stepKind : String)
    (agentId : Option String) (outputText : String) (issue : Issue) :
    EStateM PyErr σ (VerifiedChunks × ProvenexCrewSession σ) := do
  let args := s.verifyArgs chunks stepKind agentId outputText
  let result ← Provenex.verifyChunks py s.index args issue
  pure (result, s.thread result.nextTrajectory result.receipt)

/-- The tool that `wrap_tool` returns, once the wrapped one has handed back its output. -/
def wrapTool (s : ProvenexCrewSession σ) (raw : Chunks) (stepKind : String)
    (agentId : Option String) (returnBlocked : Bool) (issue : Issue) :
    EStateM PyErr σ (ToolOutput × ProvenexCrewSession σ) := do
  let (result, s) ← s.verifyChunks py raw stepKind agentId "" issue
  let outputChunks := result.kept ++ if returnBlocked then result.blocked else []
  let output := match raw with
    | .text _ => .text ("\n".intercalate outputChunks)
    | _ => .items outputChunks
  pure (output, s)

def admissionCheck (s : ProvenexCrewSession σ) (tool : ToolCallContext) (request : RequestContext)
    (stepKind : String) (agentId : Option String) (outputText : String)
    (redactParameters redactInputs : Bool) (issue : Issue) :
    Except PyErr (AdmissionResult × ProvenexCrewSession σ) := do
  let args := s.admissionArgs stepKind agentId outputText redactParameters redactInputs
  let result ← Provenex.admissionCheck py tool request args issue
  .ok (result, s.thread result.nextTrajectory result.receipt)

/-- The tool that `wrap_tool_admission` returns, up to the call of the wrapped one, or of `on_deny`. -/
def wrapToolAdmission (s : ProvenexCrewSession σ) (tool : GatedTool) (args : List PyVal)
    (kwargs : PyDict) (issue : Issue) : Except PyErr (GatedCall × ProvenexCrewSession σ) := do
  let toolCtx ← tool.toolContext args kwargs
  let rest := without kwargs ["__operation__", "__target_system__", "__invocation_id__"]
  let request ← tool.requestFactory args rest
  let (result, s) ← s.admissionCheck py toolCtx request tool.stepKind tool.agentId ""
    tool.redactParameters false issue
  .ok (if result.allowed then .invoked args rest else .denied result, s)

end

/-- `advance`. Without parents the cursor keeps those it has. -/
def advance (s : ProvenexCrewSession σ) (parentReceipts : Option (List ProvenanceReceipt))
    (stepKind agentId : Option String) :
    Except PyErr (TrajectoryContext × ProvenexCrewSession σ) := do
  let trajectory ← match parentReceipts with
    | none => s.trajectory.nextStep [] s.trajectory.parentStepIds stepKind agentId none
    | some parents =>
      s.trajectory.nextStep (parents.map fun r => some r.receiptId) [] stepKind agentId none
  .ok (trajectory, { s with trajectory := trajectory })

end ProvenexCrewSession

end Provenex
