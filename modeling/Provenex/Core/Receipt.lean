import Provenex.Core.Trajectory
import Provenex.Policy.Evaluator
import Provenex.Policy.VerificationPolicy

/-! `core/receipt.py`: the records of a receipt, its serialisation, and the
builder. The fresh identifier and the clock are arguments of `finalize`. -/

namespace Provenex

def schemaVersion : String := "2.3.0"

def issuer : String := "provenex-core/0.7.2"

/-- What a signer does to issue a receipt. -/
structure ReceiptSigner where
  algorithm : String
  sign : Bytes → String

/-- `HmacSha256Signer(secret)`. -/
def hmacSha256Signer (py : Stdlib) (secret : Bytes) : ReceiptSigner where
  algorithm := "hmac-sha256"
  sign := fun payload => hexdigest (py.hmacSha256 secret payload)

/-! ## Records -/

structure Claim where
  type : String
  assertedBy : String
  value : PyVal
  reason : Option String

def Claim.toDict (c : Claim) : PyDict :=
  let d : PyDict := [(.str "type", .str c.type), (.str "asserted_by", .str c.assertedBy)]
  d ++ optionalItem "value" c.value ++ optionalItem "reason" (.ofOption c.reason)

structure SourceRecord where
  chunkIndex : ℕ
  fingerprint : String
  documentId : Option String
  documentVersion : Option String
  ingestedAt : Option String
  chunkOffset : Option ℤ
  chunkLength : Option ℤ
  authorized : Option Bool
  verificationOutcome : VerificationOutcome
  normalizationApplied : List String
  leafIndex : Option ℤ
  inclusionProof : Option (List String)
  claims : Option (List Claim)
  contentSource : Option String

def SourceRecord.toDict (s : SourceRecord) : PyDict :=
  let d : PyDict := [(.str "chunk_index", .int s.chunkIndex), (.str "fingerprint", .str s.fingerprint),
    (.str "document_id", .ofOption s.documentId),
    (.str "document_version", .ofOption s.documentVersion),
    (.str "ingested_at", .ofOption s.ingestedAt), (.str "chunk_offset", orNull .int s.chunkOffset),
    (.str "chunk_length", orNull .int s.chunkLength),
    (.str "authorized", orNull .bool s.authorized),
    (.str "verification_outcome", .str s.verificationOutcome.value),
    (.str "normalization_applied", strList s.normalizationApplied)]
  let claims := s.claims.filter fun cs => ! cs.isEmpty
  d ++ optionalItem "leaf_index" (orNull .int s.leafIndex) ++
    optionalItem "inclusion_proof" (orNull strList s.inclusionProof) ++
    optionalItem "claims" (orNull (fun cs => .list (cs.map fun c => .dict c.toDict)) claims) ++
    optionalItem "content_source" (.ofOption s.contentSource)

structure ActionRecord where
  actionIndex : ℕ
  name : PyVal
  operation : PyVal
  parametersHash : String
  parameters : Option PyDict
  targetSystem : PyVal
  invocationId : PyVal

def ActionRecord.toDict (a : ActionRecord) : PyDict :=
  let d : PyDict := [(.str "action_index", .int a.actionIndex), (.str "name", a.name),
    (.str "operation", a.operation), (.str "parameters_hash", .str a.parametersHash),
    (.str "parameters", orNull .dict a.parameters)]
  d ++ optionalItem "target_system" a.targetSystem ++ optionalItem "invocation_id" a.invocationId

/-! ## The receipt -/

structure ProvenanceReceipt where
  receiptId : String
  issuedAt : String
  outputHash : String
  sources : List SourceRecord
  policy : VerificationPolicy
  summary : PyDict
  /-- The algorithm, and the value. -/
  signature : Option (String × String)
  transparencyLog : Option PyDict
  trajectory : Option PyDict
  accessControl : Option ControlMetadata
  actions : List ActionRecord
  toolCallControl : Option ControlMetadata
  callerHash : Option String

def VerificationPolicy.toDict (p : VerificationPolicy) : PyDict :=
  [(.str "block_stale", .bool p.blockStale), (.str "block_unauthorized", .bool p.blockUnauthorized),
    (.str "block_unverified", .bool p.blockUnverified),
    (.str "block_tampered", .bool p.blockTampered), (.str "flag_stale", .bool p.flagStale),
    (.str "flag_unauthorized", .bool p.flagUnauthorized),
    (.str "flag_unverified", .bool p.flagUnverified), (.str "flag_tampered", .bool p.flagTampered)]

namespace ProvenanceReceipt

def policyBlock (r : ProvenanceReceipt) : PyDict :=
  (.str "verification", .dict r.policy.toDict) ::
    optionalItem "access_control" (orNull (fun c => .dict c.toDict) r.accessControl) ++
    optionalItem "tool_call_control" (orNull (fun c => .dict c.toDict) r.toolCallControl)

/-- `to_dict`, up to the signature: what is signed. -/
def body (r : ProvenanceReceipt) : PyDict :=
  let d : PyDict := [(.str "receipt_id", .str r.receiptId), (.str "schema_version", .str schemaVersion),
    (.str "issued_at", .str r.issuedAt), (.str "issuer", .str issuer)]
  let output : PyDict :=
    [(.str "hash", .str r.outputHash), (.str "hash_algorithm", .str "sha256")]
  let update : PyDict := [(.str "output", .dict output),
    (.str "sources", .list (r.sources.map fun s => .dict s.toDict)),
    (.str "policy", .dict r.policyBlock), (.str "summary", .dict r.summary)]
  let actions : PyDict := if r.actions.isEmpty then [] else
    [(.str "actions", .list (r.actions.map fun a => .dict a.toDict))]
  d ++ optionalItem "caller_hash" (.ofOption r.callerHash) ++ update ++ actions ++
    optionalItem "transparency_log" (orNull .dict r.transparencyLog) ++
    optionalItem "trajectory" (orNull .dict r.trajectory)

def toDict (r : ProvenanceReceipt) : PyDict :=
  r.body ++ optionalItem "signature" (orNull (fun s =>
    .dict [(.str "algorithm", .str s.1), (.str "value", .str s.2)]) r.signature)

def canonicalPayload (py : Stdlib) (r : ProvenanceReceipt) : Except PyErr Bytes :=
  canonicalBytes py (.dict r.body)

end ProvenanceReceipt

section

variable (py : Stdlib)

def hashOutput (outputText : String) : String := sha256Hex py (encodeUtf8 outputText)

def computeCallerHash (caller : PyDict) (salt : Option Bytes) : Except PyErr String :=
  (canonicalBytes py (.dict caller)).map fun payload =>
    match salt with
    | none => sha256Hex py payload
    | some key => "hmac-sha256:" ++ hexdigest (py.hmacSha256 key payload)

/-- What may be hashed on its own: plain data or bytes. -/
inductive HashedValue
  | data (v : PyVal)
  | bytes (b : Bytes)

def computeValueHash : HashedValue → Except PyErr String
  | .data (.str s) => .ok (sha256Hex py (encodeUtf8 s))
  | .data v => (canonicalBytes py v).map (sha256Hex py)
  | .bytes b => .ok (sha256Hex py b)

/-! ## The builder -/

structure ReceiptBuilder where
  policy : VerificationPolicy
  sources : List SourceRecord
  actions : List ActionRecord

/-- The values read afresh when a receipt is issued. -/
structure Issue where
  receiptId : String
  issuedAt : String

namespace ReceiptBuilder

def init (policy : VerificationPolicy) : ReceiptBuilder := ⟨policy, [], []⟩

def addSource (b : ReceiptBuilder) (fingerprint : String) (outcome : VerificationOutcome)
    (entry : Option IndexEntry) (normalizationApplied : List String) (leafIndex : Option ℤ)
    (inclusionProof : Option (List String)) (claims : Option (List Claim))
    (contentSource : Option String) : ReceiptBuilder :=
  let record : SourceRecord := {
    chunkIndex := b.sources.length
    fingerprint := fingerprint
    documentId := entry.map (·.documentId)
    documentVersion := entry.map (·.documentVersion)
    ingestedAt := entry.map (·.ingestedAt)
    chunkOffset := entry.map (·.chunkOffset)
    chunkLength := entry.map (·.chunkLength)
    authorized := entry.map (·.authorized)
    verificationOutcome := outcome
    normalizationApplied := normalizationApplied
    leafIndex := leafIndex
    inclusionProof := inclusionProof
    claims := claims.filter fun cs => ! cs.isEmpty
    contentSource := contentSource }
  { b with sources := b.sources ++ [record] }

/-- `add_action`, with the index it returns. -/
def addAction (b : ReceiptBuilder) (name operation : PyVal) (parametersHash : String)
    (parameters : Option PyDict) (targetSystem invocationId : PyVal) : ℕ × ReceiptBuilder :=
  let idx := b.actions.length
  (idx, { b with actions := b.actions ++
    [⟨idx, name, operation, parametersHash, parameters, targetSystem, invocationId⟩] })

def countOutcome (b : ReceiptBuilder) (outcome : VerificationOutcome) : PyVal :=
  .int (b.sources.countP fun s => s.verificationOutcome = outcome)

/-- `d.get("decision") == "deny"`. -/
def isDenied (d : PyDict) : Bool := ((getKey d "decision").getD .none).eq (.str "deny")

/-- The number of actions that were denied. -/
def actionsDenied (toolCallControl : Option ControlMetadata) : ℕ :=
  match toolCallControl with
  | some c => c.decisions.countP isDenied
  | none => 0

def actionsAllowed (b : ReceiptBuilder) (toolCallControl : Option ControlMetadata) : ℕ :=
  match toolCallControl with
  | some c => c.decisions.countP fun d => ! isDenied d
  | none => b.actions.length

def overallStatus (b : ReceiptBuilder) (toolCallControl : Option ControlMetadata) : String :=
  let chunkStatus := Provenex.overallStatus (b.sources.map (·.verificationOutcome)) b.policy
  let actionStatus :=
    if b.actions.isEmpty then "PASS"
    else if actionsDenied toolCallControl > 0 then "FAIL" else "PASS"
  if chunkStatus = "FAIL" ∨ actionStatus = "FAIL" then "FAIL"
  else if chunkStatus = "PARTIAL" then "PARTIAL"
  else "PASS"

/-- `_summary`. -/
def summary (b : ReceiptBuilder) (toolCallControl : Option ControlMetadata) : PyDict :=
  let counts : PyDict := [(.str "total_chunks", .int b.sources.length),
    (.str "verified", b.countOutcome .verified), (.str "stale", b.countOutcome .stale),
    (.str "unauthorized", b.countOutcome .unauthorized),
    (.str "unverified", b.countOutcome .unverified), (.str "tampered", b.countOutcome .tampered)]
  let actionCounts : PyDict := if b.actions.isEmpty then [] else
    [(.str "total_actions", .int b.actions.length),
      (.str "actions_allowed", .int (b.actionsAllowed toolCallControl)),
      (.str "actions_denied", .int (actionsDenied toolCallControl))]
  counts ++ actionCounts ++ [(.str "overall_status", .str (b.overallStatus toolCallControl))]

def finalize (b : ReceiptBuilder) (outputText : String) (signer : Option ReceiptSigner)
    (transparencyLog : Option PyDict) (trajectory : Option TrajectoryContext)
    (accessControl toolCallControl : Option ControlMetadata) (callerHash : Option String)
    (issue : Issue) : Except PyErr ProvenanceReceipt :=
  let receipt : ProvenanceReceipt := {
    receiptId := issue.receiptId
    issuedAt := issue.issuedAt
    outputHash := hashOutput py outputText
    sources := b.sources
    policy := b.policy
    summary := b.summary toolCallControl
    signature := none
    transparencyLog := transparencyLog.filter fun d => ! d.isEmpty
    trajectory := trajectory.map (·.toDict)
    accessControl := accessControl
    actions := b.actions
    toolCallControl := toolCallControl
    callerHash := callerHash }
  match signer with
  | none => .ok receipt
  | some s => (receipt.canonicalPayload py).map fun payload =>
      { receipt with signature := some (s.algorithm, s.sign payload) }

end ReceiptBuilder

end

end Provenex
