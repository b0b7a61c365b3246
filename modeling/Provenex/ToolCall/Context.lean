import Provenex.Py.Value

/-! `tool_call/context.py`. -/

namespace Provenex

/-- One tool call as the admission evaluator sees it. -/
structure ToolCallContext where
  name : PyVal
  operation : PyVal
  parameters : PyDict
  targetSystem : PyVal
  invocationId : PyVal

end Provenex
