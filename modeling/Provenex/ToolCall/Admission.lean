import Provenex.Core.Verify

/-! `tool_call/admission.py`. -/

namespace Provenex

structure AdmissionArgs where
  policy : PolicyArg
  signer : Option ReceiptSigner
  trajectory : Option TrajectoryContext
  stepKind : Option String
  agentId : Option String
  outputText : String
  redactParameters : Bool
  redactInputs : Bool
  callerHashSalt : Option Bytes

structure AdmissionResult where
  decision : Decision
  rulesFired : List String
  receipt : ProvenanceReceipt
  nextTrajectory : Option TrajectoryContext
  policyId : String

def AdmissionResult.allowed (r : AdmissionResult) : Bool := r.decision = .allow

/-- The `metadata_binding` of a decision on a tool call. -/
def toolCallBinding : PyDict :=
  [(.str "tool_parameters", .str bindingAtEvaluate), (.str "request_context", .str bindingAtEvaluate)]

/-- The entry of a decision under `tool_call_control.decisions`. -/
def admissionEntry (actionIndex : ℕ) (d : PolicyDecision) : PyDict :=
  [(.str "action_index", .int actionIndex), (.str "decision", .str d.decision.value),
    (.str "rules_fired", strList d.rulesFired), (.str "inputs_hash", .str d.inputsHash),
    (.str "inputs", orNull .dict d.inputs),
    (.str "metadata_binding", orNull .dict d.metadataBinding)]

/-- `s or default`. -/
def strOr (s : Option String) (default : String) : String :=
  match s with
  | some s => if s = "" then default else s
  | none => default

/-- The trajectory block of the receipt: the cursor, with the overrides of this call. -/
def emitToolTrajectory (trajectory : Option TrajectoryContext)
    (stepKind agentId requestSessionId : Option String) : Option TrajectoryContext :=
  trajectory.map fun t =>
    let emitStepKind := some (stepKind.getD (strOr t.stepKind "tool_call"))
    let emitAgentId := agentId.or t.agentId
    let emitSessionId := requestSessionId.or t.sessionId
    if emitStepKind ≠ t.stepKind ∨ emitAgentId ≠ t.agentId ∨ emitSessionId ≠ t.sessionId then
      { t with stepKind := emitStepKind, agentId := emitAgentId, sessionId := emitSessionId }
    else t

section

variable (py : Stdlib)

/-- The decision on the call; where no tool-call policy is configured it is allowed. -/
def decideToolCall (policy : Policy) (tool : ToolCallContext) (request : RequestContext)
    (redactInputs : Bool) : Except PyErr PolicyDecision :=
  match policy.toolCallControl with
  | none => do
    let inputs := buildToolCallInputs tool request
    let inputsHash ← computeInputsHash py (.dict inputs)
    .ok ⟨.allow, [], inputsHash, some inputs, some toolCallBinding⟩
  | some evaluator => do
    let raw ← evaluator.evaluate tool request
    .ok { raw with
      inputs := if redactInputs then none else raw.inputs
      metadataBinding := some toolCallBinding }

def admissionCheck (tool : ToolCallContext) (request : RequestContext) (args : AdmissionArgs)
    (issue : Issue) : Except PyErr AdmissionResult := do
  let policy ← coercePolicy args.policy
  let decision ← decideToolCall py policy tool request args.redactInputs
  let paramsHash ← computeParametersHash py tool.parameters
  let (actionIndex, builder) := (ReceiptBuilder.init policy.verification).addAction tool.name
    tool.operation paramsHash (if args.redactParameters then none else some tool.parameters)
    tool.targetSystem tool.invocationId
  let toolCallControl := policy.toolCallControl.map fun evaluator =>
    buildToolCallControlMetadata evaluator [admissionEntry actionIndex decision]
  let callerHash ← computeCallerHash py request.caller args.callerHashSalt
  let receipt ← builder.finalize py args.outputText args.signer none
    (emitToolTrajectory args.trajectory args.stepKind args.agentId request.sessionId) none
    toolCallControl (some callerHash) issue
  let nextTrajectory ← advance args.trajectory receipt.receiptId args.agentId request.sessionId
  .ok ⟨decision.decision, decision.rulesFired, receipt, nextTrajectory,
    (policy.toolCallControl.map (·.policyId)).getD "none"⟩

/-- The item of the value itself, unless it is redacted. Bytes are no JSON: the hash of the
parameters refuses them where nothing replaces them. -/
def verbatimItem (k : String) (value : HashedValue) (redact : Bool) (extra : PyDict) :
    Except PyErr PyDict :=
  if redact then .ok []
  else match value with
    | .data v => .ok [(.str k, v)]
    | .bytes _ => if hasKey extra k then .ok [(.str k, .none)] else .error (.typeError none)

/-- The parameters of both functions below: the hash of a value, more items, the value, and whatever
the caller adds. -/
def anchoredParameters (hashKey valueKey : String) (value : HashedValue) (items : PyDict)
    (redact : Bool) (extraParameters : Option PyDict) : Except PyErr PyDict := do
  let hash ← computeValueHash py value
  let verbatim ← verbatimItem valueKey value redact (extraParameters.getD [])
  .ok (updateDict ((.str hashKey, .str hash) :: (items ++ verbatim)) (extraParameters.getD []))

/-- `admit_memory_write`; `stepKind` is the one among the further arguments, where there is one. -/
def admitMemoryWrite (memoryKey : PyVal) (value : HashedValue) (request : RequestContext)
    (storeId ttl : PyVal) (extraParameters : Option PyDict) (redactValue : Bool)
    (stepKind : Option (Option String)) (args : AdmissionArgs) (issue : Issue) :
    Except PyErr AdmissionResult := do
  let items := optionalItem "store_id" storeId ++ optionalItem "ttl" ttl
  let parameters ← anchoredParameters py "value_hash" "value" value items redactValue extraParameters
  let tool := ⟨.str "memory.write", memoryKey, parameters, storeId, .none⟩
  admissionCheck py tool request { args with stepKind := stepKind.getD (some "memory_write") } issue

/-- `admit_model_inference`. -/
def admitModelInference (modelName : PyVal) (prompt : HashedValue) (request : RequestContext)
    (targetProvider operation : PyVal) (extraParameters : Option PyDict) (redactPrompt : Bool)
    (stepKind : Option (Option String)) (args : AdmissionArgs) (issue : Issue) :
    Except PyErr AdmissionResult := do
  let parameters ← anchoredParameters py "prompt_hash" "prompt" prompt [] redactPrompt
    extraParameters
  let tool := ⟨modelName, operation, parameters, targetProvider, .none⟩
  admissionCheck py tool request { args with stepKind := stepKind.getD (some "model_inference") }
    issue

end

end Provenex
