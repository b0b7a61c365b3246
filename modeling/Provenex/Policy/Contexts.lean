import Provenex.Policy.YamlEvaluator
import Provenex.Py.JsonVal
import Provenex.ToolCall.Evaluator

/-! The contexts of the two evaluators as a caller may build them: what JSON holds, with texts
that have no bytes and integers of any size. `compute_inputs_hash` comes first, and raises on
both. -/

namespace Provenex

/-- What JSON can hold: no dates, and only strings as keys. -/
inductive JsonValue : PyVal → Prop
  | none : JsonValue .none
  | bool (b : Bool) : JsonValue (.bool b)
  | int (i : ℤ) : JsonValue (.int i)
  | float (f : PyFloat) : JsonValue (.atom (.float f))
  | str (s : String) : JsonValue (.str s)
  | list {xs : List PyVal} (items : ∀ x ∈ xs, JsonValue x) : JsonValue (.list xs)
  | dict {d : PyDict} (keys : StrKeys d) (values : ∀ e ∈ d, JsonValue e.2) : JsonValue (.dict d)

structure JsonRequest where
  caller : JsonObject
  jurisdiction : JsonVal
  purpose : JsonVal
  timestamp : PyText
  sessionId : Option String

/-- The identity of the chunk is not recorded. The two fields of the index are only where the
metadata has no key of the name, and texts of the index have bytes. -/
structure JsonChunk where
  fingerprint : PyVal
  documentId : PyVal
  documentVersion : PyVal
  ingestedAt : PyVal
  metadata : JsonObject
  contentSource : PyVal
  ingestedAt_json : JsonValue ingestedAt
  contentSource_json : JsonValue contentSource

structure JsonToolCall where
  name : JsonVal
  operation : JsonVal
  parameters : JsonObject
  targetSystem : JsonVal
  invocationId : JsonVal

def JsonRequest.context? (request : JsonRequest) : Option RequestContext := do
  let caller ← pyEntries? request.caller
  let jurisdiction ← request.jurisdiction.pyVal?
  let purpose ← request.purpose.pyVal?
  let timestamp ← request.timestamp.string?
  some ⟨caller, jurisdiction, purpose, .str timestamp, request.sessionId⟩

def JsonChunk.context? (chunk : JsonChunk) : Option ChunkContext :=
  (pyEntries? chunk.metadata).map fun metadata =>
    ⟨chunk.fingerprint, chunk.documentId, chunk.documentVersion, chunk.ingestedAt, metadata,
      chunk.contentSource⟩

def JsonToolCall.context? (tool : JsonToolCall) : Option ToolCallContext := do
  let name ← tool.name.pyVal?
  let operation ← tool.operation.pyVal?
  let parameters ← pyEntries? tool.parameters
  let targetSystem ← tool.targetSystem.pyVal?
  let invocationId ← tool.invocationId.pyVal?
  some ⟨name, operation, parameters, targetSystem, invocationId⟩

section

variable {Ω : Type} (rt : Runtime Ω)

/-- `evaluate`. -/
def NativeYamlEvaluator.evaluateJson (ev : NativeYaml) (chunk : JsonChunk) (request : JsonRequest) :
    Except PyErr PolicyDecision :=
  match chunk.context?, request.context? with
  | some c, some r => NativeYamlEvaluator.evaluate rt ev c r
  | _, _ => .error (.valueError none)

/-- `evaluate`. -/
def NativeYamlToolCallEvaluator.evaluateJson (ev : NativeYaml) (tool : JsonToolCall)
    (request : JsonRequest) : Except PyErr PolicyDecision :=
  match tool.context?, request.context? with
  | some t, some r => NativeYamlToolCallEvaluator.evaluate rt ev t r
  | _, _ => .error (.valueError none)

end

end Provenex
