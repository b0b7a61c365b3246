import Provenex.Index.Sqlite
import Provenex.Py.Loads

/-! The reads of `index/sqlite_index.py` over tables as anyone may have left them. SQLite keeps a
value of any storage class in a column, whatever its declared type, up to what the affinity of
the column converts. -/

namespace Provenex.Sqlite

open Guard

/-- A value in a column. NULL is left out: every column that is read is `NOT NULL`, but for the id
of a document, and a document without one is joined to nothing. -/
inductive Cell
  | int (i : ℤ)
  /-- A float, with its `repr`. -/
  | real (x : PyNum) (repr : String)
  | text (s : String)
  /-- Text that is not UTF-8. -/
  | garbled (b : Bytes)
  | blob (b : Bytes)
  deriving DecidableEq

/-- A character of `repr(b)`, between such quotes. -/
def byteRepr (quote : Char) (x : UInt8) : String :=
  let c := Char.ofNat x.toNat
  if c = quote ∨ c = '\\' then String.ofList ['\\', c]
  else if c = '\t' then "\\t"
  else if c = '\n' then "\\n"
  else if c = '\r' then "\\r"
  else if 32 ≤ x.toNat ∧ x.toNat < 127 then String.singleton c
  else String.ofList ['\\', 'x', Json.hexDigit (x.toNat / 16), Json.hexDigit (x.toNat % 16)]

/-- `repr(b)`, of bytes. -/
def bytesRepr (b : Bytes) : String :=
  let quote := if 39 ∈ b ∧ 34 ∉ b then '"' else '\''
  "b" ++ String.singleton quote ++ String.join (b.map (byteRepr quote)) ++ String.singleton quote

namespace Cell

/-- Numbers are sorted before text, and text before blobs. -/
def rank : Cell → ℕ
  | .int _ => 0
  | .real _ _ => 0
  | .text _ => 1
  | .garbled _ => 1
  | .blob _ => 2

def num : Cell → PyNum
  | .int i => .fin i
  | .real x _ => x
  | _ => .fin 0

/-- What `memcmp` sees of text or a blob. -/
def bytes : Cell → Bytes
  | .text s => encodeUtf8 s
  | .garbled b => b
  | .blob b => b
  | _ => []

/-- The order of a sort. Code points come in the order of their UTF-8. -/
def le : Cell → Cell → Bool
  | .text s, .text t => s ≤ t
  | a, b =>
    if a.rank ≠ b.rank then a.rank < b.rank
    else if a.rank = 0 then a.num.le b.num
    else a.bytes ≤ b.bytes

/-- `str(v)`. -/
def str : Cell → String
  | .int i => toString i
  | .real _ repr => repr
  | .text s => s
  | .garbled _ => ""
  | .blob b => bytesRepr b

/-- `bool(v)`. -/
def truthy : Cell → Bool
  | .int i => i != 0
  | .real x _ => x != .fin 0
  | .text s => s != ""
  | .garbled _ => true
  | .blob b => b != []

/-- `type(v).__name__`. -/
def typeName : Cell → String
  | .int _ => "int"
  | .real _ _ => "float"
  | .text _ => "str"
  | .garbled _ => "str"
  | .blob _ => "bytes"

def isGarbled : Cell → Bool
  | .garbled _ => true
  | _ => false

/-- A column of type TEXT can hold it: a number is converted to text. -/
def inText : Cell → Bool
  | .int _ => false
  | .real _ _ => false
  | _ => true

/-- A column of type INTEGER can hold it: text that is an integer's is converted to a number, and
no float is written like an integer. -/
def inInteger : Cell → Bool
  | .int i => fitsInt64 i
  | .real _ repr => (readInt repr.toList).isNone
  | .text s => (readInt s.toList).isNone
  | _ => true

end Cell

structure StoredFingerprint where
  fingerprint : Cell
  documentId : Cell
  documentVersion : Cell
  ingestedAt : Cell
  chunkOffset : Cell
  chunkLength : Cell
  superseded : Cell
  signature : Cell
  inText : ∀ c ∈ [fingerprint, documentId, documentVersion, ingestedAt, signature],
    c.inText = true
  inInteger : ∀ c ∈ [chunkOffset, chunkLength, superseded], c.inInteger = true
  deriving DecidableEq

/-- What `verify` reads of a document. -/
structure StoredDocument where
  documentId : Cell
  authorized : Cell
  inText : documentId.inText = true
  inInteger : authorized.inInteger = true
  deriving DecidableEq

structure StoredTables where
  documents : List StoredDocument
  fingerprints : List StoredFingerprint

abbrev StoredRow := StoredFingerprint × StoredDocument

/-- The order in which a query happens to visit its rows. -/
structure StoredPlan where
  scan : List StoredRow → List StoredRow
  perm : ∀ rows, (scan rows).Perm rows

namespace StoredTables

/-- The rows of `fingerprints f JOIN documents d ON d.document_id = f.document_id`. -/
def joined (t : StoredTables) (fingerprint : String) : List StoredRow :=
  (t.fingerprints.filter fun f => f.fingerprint = .text fingerprint).flatMap fun f =>
    (t.documents.filter fun d => d.documentId = f.documentId).map fun d => (f, d)

end StoredTables

/-- `ORDER BY f.superseded ASC, f.ingested_at DESC` -/
def storedBefore (a b : StoredRow) : Prop :=
  a.1.superseded.le b.1.superseded ∧
    (b.1.superseded.le a.1.superseded → b.1.ingestedAt.le a.1.ingestedAt)

instance : DecidableRel storedBefore := fun a b => by unfold storedBefore; infer_instance

/-- The row that `lookup` selects. -/
def storedRow (plan : StoredPlan) (t : StoredTables) (fingerprint : String) : Option StoredRow :=
  ((plan.scan (t.joined fingerprint)).insertionSort storedBefore).head?

/-- The columns of the `SELECT`. -/
def selected (row : StoredRow) : List Cell :=
  [row.1.fingerprint, row.1.documentId, row.1.documentVersion, row.1.ingestedAt, row.1.chunkOffset,
    row.1.chunkLength, row.1.superseded, row.1.signature, row.2.authorized]

/-- `_validate_signing_field`, with the text it lets through. -/
def signingField (name : String) : Cell → Except PyErr String
  | .text s => (validateSigningField name s).map fun _ => s
  | c => .error (.typeError (some (name ++ " must be a string, got " ++ c.typeName)))

/-- `_canonical_payload`, of a stored row. -/
def StoredFingerprint.payload (r : StoredFingerprint) : Except PyErr Bytes := do
  let fingerprint ← signingField "fingerprint" r.fingerprint
  let documentId ← signingField "document_id" r.documentId
  let documentVersion ← signingField "document_version" r.documentVersion
  let ingestedAt ← signingField "ingested_at" r.ingestedAt
  .ok (encodeUtf8 (joinWith "\n" [fingerprint, documentId, documentVersion, ingestedAt,
    r.chunkOffset.str, r.chunkLength.str]))

/-- `hmac.compare_digest`, with what a column holds. -/
def compareCell (expected : String) : Cell → Except PyErr Bool
  | .text s => compareDigest expected s
  | _ => .error (.typeError none)

def verifyStored (py : Stdlib) (secret : Bytes) (plan : StoredPlan) (t : StoredTables)
    (fingerprint : String) : Except PyErr VerificationOutcome :=
  match storedRow plan t fingerprint with
  | none => .ok .unverified
  | some row => do
    raiseIf ((selected row).any Cell.isGarbled) .operationalError
    let payload ← row.1.payload
    let same ← compareCell (sign py payload secret) row.1.signature
    if ¬ same then .ok .tampered
    else if ¬ row.2.authorized.truthy then .ok .unauthorized
    else if row.1.superseded.truthy then .ok .stale
    else .ok .verified

end Provenex.Sqlite
