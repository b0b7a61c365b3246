import Provenex.Py.Json

/-! `policy/evaluator.py`: the contexts a rule reads, the decision record, and
the canonical encoding behind the two hashes. Fields that are only annotated
hold any value; `metadata` and `caller` are copied with `dict` and so are mappings. -/

namespace Provenex

structure ChunkContext where
  fingerprint : PyVal
  documentId : PyVal
  documentVersion : PyVal
  ingestedAt : PyVal
  metadata : PyDict
  contentSource : PyVal

structure RequestContext where
  caller : PyDict
  jurisdiction : PyVal
  purpose : PyVal
  timestamp : PyVal
  sessionId : Option String

inductive Decision
  | allow
  | deny
  deriving DecidableEq, Repr

/-- `DECISION_ALLOW` and `DECISION_DENY`. -/
def Decision.value : Decision → String
  | .allow => "allow"
  | .deny => "deny"

structure PolicyDecision where
  decision : Decision
  rulesFired : List String
  inputsHash : String
  inputs : Option PyDict
  metadataBinding : Option PyDict

def bindingAtIngest : String := "at_ingest"

def bindingAtEvaluate : String := "at_evaluate"

/-- The entry of a decision under `access_control.decisions`. -/
def PolicyDecision.toDict (d : PolicyDecision) (chunkFingerprint : String) : PyDict :=
  let entry : PyDict := [(.str "chunk_fingerprint", .str chunkFingerprint),
    (.str "decision", .str d.decision.value), (.str "rules_fired", strList d.rulesFired),
    (.str "inputs_hash", .str d.inputsHash), (.str "inputs", orNull .dict d.inputs)]
  entry ++ optionalItem "metadata_binding" (orNull .dict d.metadataBinding)

section

variable (py : Stdlib)

def canonicalBytes (v : PyVal) : Except PyErr Bytes := (dumps py v).map encodeUtf8

def sha256Hex (b : Bytes) : String := "sha256:" ++ hexdigest (py.sha256 b)

def computePolicyVersionHash (bundle : PyVal) : Except PyErr String :=
  (canonicalBytes py bundle).map (sha256Hex py)

def computeInputsHash (inputs : PyVal) : Except PyErr String :=
  (canonicalBytes py inputs).map (sha256Hex py)

end

/-- The mapping under `request_context`. -/
def requestInputs (request : RequestContext) : PyDict :=
  [(.str "caller", .dict request.caller), (.str "jurisdiction", request.jurisdiction),
    (.str "purpose", request.purpose), (.str "timestamp", request.timestamp)]

/-- `if v is not None: d.setdefault(k, v)` -/
def setDefaultIfSome (d : PyDict) (k : String) (v : PyVal) : PyDict :=
  match v with
  | .none => d
  | v => setDefault d k v

/-- `_build_inputs`. -/
def buildInputs (chunk : ChunkContext) (request : RequestContext) : PyDict :=
  let chunkMeta := setDefaultIfSome chunk.metadata "ingested_at" chunk.ingestedAt
  let chunkMeta := setDefaultIfSome chunkMeta "content_source" chunk.contentSource
  [(.str "chunk_metadata", .dict chunkMeta), (.str "request_context", .dict (requestInputs request))]

/-- A data-access policy backend, as the wiring uses it. -/
structure PolicyEvaluator where
  evaluatorName : String
  policyId : String
  policyVersionHash : String
  evaluate : ChunkContext → RequestContext → Except PyErr PolicyDecision

/-- The `policy.access_control` and `policy.tool_call_control` payloads of a receipt. -/
structure ControlMetadata where
  evaluator : String
  policyId : String
  policyVersionHash : String
  policyInTransparencyLog : Bool
  decisions : List PyDict

def ControlMetadata.toDict (c : ControlMetadata) : PyDict :=
  [(.str "evaluator", .str c.evaluator), (.str "policy_id", .str c.policyId),
    (.str "policy_version_hash", .str c.policyVersionHash),
    (.str "policy_in_transparency_log", .bool c.policyInTransparencyLog),
    (.str "decisions", .list (c.decisions.map .dict))]

end Provenex
