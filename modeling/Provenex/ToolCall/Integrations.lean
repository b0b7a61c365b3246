import Provenex.ToolCall.Admission

/-! `tool_call/integrations/`: the LangChain wrapper and the MCP middleware. What a
wrapper hands on is in its result. -/

namespace Provenex

/-- The overrides of a single call. -/
def reservedKeys : List String := ["__operation__", "__target_system__", "__invocation_id__"]

/-- What comes of a call: the input that is handed on, unless the call was denied. -/
inductive Dispatch (α : Type)
  | denied
  | forwarded (input : α)

/-- Both wrappers leave the rest at its defaults. -/
def wrapperArgs (policy : PolicyArg) (signer : Option ReceiptSigner)
    (trajectory : Option TrajectoryContext) (redactParameters : Bool) : AdmissionArgs where
  policy := policy
  signer := signer
  trajectory := trajectory
  stepKind := none
  agentId := none
  outputText := ""
  redactParameters := redactParameters
  redactInputs := false
  callerHashSalt := none

/-! ## LangChain -/

/-- The factory is the application's. -/
structure ProvenexToolWrapper where
  name : PyVal
  policy : PolicyArg
  signer : Option ReceiptSigner
  requestFactory : PyVal → Except PyErr RequestContext
  operation : PyVal
  targetSystem : PyVal
  redactParameters : Bool

namespace ProvenexToolWrapper

/-- `_split_input`, as the context that `invoke` builds of it. -/
def splitInput (w : ProvenexToolWrapper) : PyVal → ToolCallContext
  | .dict d => {
      name := w.name
      operation := getOr d "__operation__" w.operation
      parameters := without d reservedKeys
      targetSystem := getOr d "__target_system__" w.targetSystem
      invocationId := getOrNone d "__invocation_id__" }
  | input => {
      name := w.name
      operation := w.operation
      parameters := [(.str "input", input)]
      targetSystem := w.targetSystem
      invocationId := .none }

/-- `_clean_input`. -/
def cleanInput : PyVal → PyVal
  | .dict d => .dict (without d reservedKeys)
  | input => input

/-- `invoke`, up to the call of the base tool. -/
def invoke (py : Stdlib) (w : ProvenexToolWrapper) (input : PyVal)
    (trajectory : Option TrajectoryContext) (issue : Issue) :
    Except PyErr (Dispatch PyVal × AdmissionResult) := do
  let tool := w.splitInput input
  let request ← w.requestFactory input
  let args := wrapperArgs w.policy w.signer trajectory w.redactParameters
  let result ← admissionCheck py tool request args issue
  .ok (if result.allowed then .forwarded (cleanInput input) else .denied, result)

end ProvenexToolWrapper

/-! ## MCP -/

/-- `params`: plain data, or an SDK's object, with `None` for an attribute that it lacks. -/
inductive McpParams
  | plain (v : PyVal)
  | object (name arguments targetSystem : PyVal)

/-- A `tools/call` request, as parsed JSON or as an SDK's object. -/
inductive McpRequest
  | plain (v : PyVal)
  | object (params : McpParams) (id : PyVal)

/-- `_get`, of plain data. -/
def plainField (v : PyVal) (k : String) : PyVal :=
  match v with
  | .dict d => getOrNone d k
  | _ => .none

namespace McpParams

def truthy : McpParams → Bool
  | .plain v => v.truthy
  | .object _ _ _ => true

def name : McpParams → PyVal
  | .plain v => plainField v "name"
  | .object name _ _ => name

def arguments : McpParams → PyVal
  | .plain v => plainField v "arguments"
  | .object _ arguments _ => arguments

def targetSystem : McpParams → PyVal
  | .plain v => plainField v "target_system"
  | .object _ _ targetSystem => targetSystem

end McpParams

/-- `_get(request, "params")`. -/
def McpRequest.params : McpRequest → McpParams
  | .plain v => .plain (plainField v "params")
  | .object params _ => params

def McpRequest.id : McpRequest → PyVal
  | .plain v => plainField v "id"
  | .object _ id => id

/-! The decoder pops the overrides from the mapping that the request holds. -/

/-- The item under a key, replaced. -/
def modifyItem (k : String) (f : PyVal → PyVal) : PyDict → PyDict
  | [] => []
  | e :: rest => if e.1.eq (.str k) then (e.1, f e.2) :: rest else e :: modifyItem k f rest

def popReserved : PyVal → PyVal
  | .dict arguments => .dict (without arguments reservedKeys)
  | v => v

/-- The same, on the data that holds the mapping under a key. -/
def popIn (k : String) (pop : PyVal → PyVal) : PyVal → PyVal
  | .dict d => .dict (modifyItem k pop d)
  | v => v

def McpParams.popOverrides : McpParams → McpParams
  | .plain v => .plain (popIn "arguments" popReserved v)
  | .object name arguments targetSystem => .object name (popReserved arguments) targetSystem

def McpRequest.popOverrides : McpRequest → McpRequest
  | .plain v => .plain (popIn "params" (popIn "arguments" popReserved) v)
  | .object params id => .object params.popOverrides id

section

variable (py : Stdlib)

/-- `_decode_tools_call_request`, as the context that is built of its result, with the request
that it leaves. -/
def decodeToolsCallRequest (defaultTargetSystem : PyVal) (request : McpRequest) :
    ToolCallContext × McpRequest :=
  let params := if request.params.truthy then request.params else .plain (.dict [])
  let name := pyOr params.name (.str "")
  let arguments := match pyOr params.arguments (.dict []) with
    | .dict d => d
    | v => [(.str "value", v)]
  let operation := getOr arguments "__operation__" (getOr arguments "operation" (.str "invoke"))
  let targetSystem := pyOr (pyOr (getOrNone arguments "__target_system__") params.targetSystem)
    defaultTargetSystem
  let requestId := PyVal.str (py.format (pyOr request.id (.str "")))
  let invocationId := pyOr (pyOr (getOrNone arguments "__invocation_id__") requestId) .none
  (⟨name, operation, without arguments reservedKeys, targetSystem, invocationId⟩,
    request.popOverrides)

/-- What the middleware was given. -/
structure McpAdmission where
  policy : PolicyArg
  signer : Option ReceiptSigner
  requestFactory : McpRequest → Except PyErr RequestContext
  defaultTargetSystem : PyVal
  redactParameters : Bool

/-- `wrap_mcp_request`. -/
def wrapMcpRequest (m : McpAdmission) (trajectory : Option TrajectoryContext) (issue : Issue) :
    EStateM PyErr McpRequest AdmissionResult := do
  let tool ← modifyGet (decodeToolsCallRequest py m.defaultTargetSystem)
  let request ← get
  let context ← Effect.lift (m.requestFactory request)
  let args := wrapperArgs m.policy m.signer trajectory m.redactParameters
  Effect.lift (admissionCheck py tool context args issue)

/-- The handler that `provenex_mcp_admission` returns, up to the call of the wrapped one. -/
def provenexMcpAdmission (m : McpAdmission) (issue : Issue) :
    EStateM PyErr McpRequest (Dispatch McpRequest × AdmissionResult) := do
  let result ← wrapMcpRequest py m none issue
  let request ← get
  pure (if result.allowed then .forwarded request else .denied, result)

end

end Provenex
