import Provenex.Policy.YamlEvaluator

/-! `tool_call/evaluator.py` and `tool_call/yaml_evaluator.py`. The rules, their
loading and the walk over them are those of the chunk domain with other roots. -/

namespace Provenex

/-- `build_tool_call_inputs`. -/
def buildToolCallInputs (tool : ToolCallContext) (request : RequestContext) : PyDict :=
  let toolBlock := [(.str "name", tool.name), (.str "operation", tool.operation),
      (.str "parameters", .dict tool.parameters)] ++
    optionalItem "target_system" tool.targetSystem ++
    optionalItem "invocation_id" tool.invocationId
  [(.str "tool_parameters", .dict toolBlock), (.str "request_context", .dict (requestInputs request))]

def computeParametersHash (py : Stdlib) (parameters : PyDict) : Except PyErr String :=
  (canonicalBytes py (.dict parameters)).map (sha256Hex py)

/-- A tool-call policy backend, as the wiring uses it. -/
structure ToolCallPolicyEvaluator where
  evaluatorName : String
  policyId : String
  policyVersionHash : String
  evaluate : ToolCallContext → RequestContext → Except PyErr PolicyDecision

def buildToolCallControlMetadata (evaluator : ToolCallPolicyEvaluator) (decisions : List PyDict) :
    ControlMetadata where
  evaluator := evaluator.evaluatorName
  policyId := evaluator.policyId
  policyVersionHash := evaluator.policyVersionHash
  policyInTransparencyLog := false
  decisions := decisions

namespace NativeYamlToolCallEvaluator

variable {Ω : Type} (rt : Runtime Ω)

def init (bundle : PyVal) (source : String) : Except PyErr NativeYaml :=
  NativeYaml.init rt.toStdlib toolCallDomainRoots bundle source

def constructFromBundle (bundle : PyVal) (source : String) : Except PyErr NativeYaml :=
  NativeYaml.constructFromBundle rt.toStdlib "tool_call_control" toolCallDomainRoots bundle source

def constructFromTree (tree : YamlTree) (source : String) : Except PyErr NativeYaml :=
  NativeYaml.constructFromTree rt.toStdlib "tool_call_control" toolCallDomainRoots tree source

def evaluate (ev : NativeYaml) (tool : ToolCallContext) (request : RequestContext) :
    Except PyErr PolicyDecision :=
  ev.evaluateView rt (buildToolCallInputs tool request) ⟨none, some tool, request⟩

def asToolCallPolicyEvaluator (ev : NativeYaml) : ToolCallPolicyEvaluator where
  evaluatorName := "native_yaml"
  policyId := ev.policyId
  policyVersionHash := ev.policyVersionHash
  evaluate := evaluate rt ev

end NativeYamlToolCallEvaluator

end Provenex
