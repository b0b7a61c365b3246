import Provenex.Index.Base
import Provenex.Lib.Effect
import Provenex.Lib.Guard
import Provenex.Lib.Run
import Provenex.Py.Stdlib

/-! `index/sqlite_index.py`. A statement is a function on the two tables; a
connection also remembers what the last commit wrote. -/

namespace Provenex.Sqlite

open Guard

structure DocumentRow where
  documentId : String
  authorized : ℤ
  currentVersion : String
  deriving DecidableEq, Repr

structure FingerprintRow where
  fingerprint : String
  documentId : String
  documentVersion : String
  ingestedAt : String
  chunkOffset : ℤ
  chunkLength : ℤ
  superseded : ℤ
  signature : String
  deriving DecidableEq, Repr

/-- The primary key of `fingerprints`. -/
def FingerprintRow.key (r : FingerprintRow) : String × String × String :=
  (r.fingerprint, r.documentId, r.documentVersion)

structure Tables where
  documents : List DocumentRow
  fingerprints : List FingerprintRow
  deriving DecidableEq, Repr

/-- What the connection sees, and what is durable. -/
structure Connection where
  tables : Tables
  durable : Tables
  deriving DecidableEq, Repr

def Connection.init : Connection := ⟨⟨[], []⟩, ⟨[], []⟩⟩

/-- The order in which a query happens to visit its rows. -/
structure QueryPlan where
  scan : List (FingerprintRow × DocumentRow) → List (FingerprintRow × DocumentRow)
  perm : ∀ rows, (scan rows).Perm rows

/-! ## Signing -/

def forbiddenFieldChars : List Char := ['\n', '\r', '\x00']

def validateSigningField (name value : String) : Except PyErr Unit :=
  raiseIf (value.toList.any fun c => c ∈ forbiddenFieldChars)
    (.valueError (some (name ++ " must not contain newline, carriage return, or " ++
      "null byte; these would create signing-payload ambiguity")))

def canonicalPayload (fingerprint documentId documentVersion ingestedAt : String)
    (chunkOffset chunkLength : ℤ) : Except PyErr Bytes := do
  validateSigningField "fingerprint" fingerprint
  validateSigningField "document_id" documentId
  validateSigningField "document_version" documentVersion
  validateSigningField "ingested_at" ingestedAt
  let offset ← intText chunkOffset
  let length ← intText chunkLength
  .ok (encodeUtf8 (joinWith "\n" [fingerprint, documentId, documentVersion, ingestedAt, offset,
    length]))

def sign (py : Stdlib) (payload secret : Bytes) : String := hexdigest (py.hmacSha256 secret payload)

/-! ## Statements -/

/-- `1 if authorized else 0` -/
def sqlFlag (authorized : Bool) : ℤ := if authorized then 1 else 0

namespace Tables

/-- `SELECT current_version FROM documents WHERE document_id = ?` -/
def selectCurrentVersion (t : Tables) (documentId : String) : Option String :=
  (t.documents.find? fun d => d.documentId = documentId).map (·.currentVersion)

/-- `INSERT INTO documents` -/
def insertDocument (t : Tables) (d : DocumentRow) : Tables :=
  { t with documents := t.documents ++ [d] }

/-- `UPDATE documents SET .. WHERE document_id = ?` -/
def updateDocument (t : Tables) (documentId : String) (set : DocumentRow → DocumentRow) : Tables :=
  { t with documents := t.documents.map fun d => if d.documentId = documentId then set d else d }

/-- `WHERE document_id = ? AND document_version != ?` -/
def isOther (documentId version : String) (r : FingerprintRow) : Bool :=
  r.documentId = documentId ∧ r.documentVersion ≠ version

/-- `UPDATE fingerprints SET superseded = 1 WHERE document_id = ? AND document_version != ?` -/
def sweep (t : Tables) (documentId version : String) : Tables :=
  { t with fingerprints := t.fingerprints.map fun r =>
      if isOther documentId version r then { r with superseded := 1 } else r }

/-- `INSERT OR IGNORE INTO fingerprints` -/
def insertOrIgnore (t : Tables) (row : FingerprintRow) : Tables :=
  if t.fingerprints.any fun r => r.key = row.key then t
  else { t with fingerprints := t.fingerprints ++ [row] }

/-- The branch of `add` on the document row. -/
def upsertDocument (t : Tables) (documentId version : String) (authorized : Bool) : Tables :=
  match t.selectCurrentVersion documentId with
  | none => t.insertDocument ⟨documentId, sqlFlag authorized, version⟩
  | some current =>
    if current ≠ version then
      (t.sweep documentId version).updateDocument documentId fun d =>
        { d with currentVersion := version, authorized := sqlFlag authorized }
    else t.updateDocument documentId fun d => { d with authorized := sqlFlag authorized }

/-- The rows of `fingerprints f JOIN documents d ON d.document_id = f.document_id`. -/
def joined (t : Tables) (fingerprint : String) : List (FingerprintRow × DocumentRow) :=
  (t.fingerprints.filter fun f => f.fingerprint = fingerprint).flatMap fun f =>
    (t.documents.filter fun d => d.documentId = f.documentId).map fun d => (f, d)

end Tables

/-- `ORDER BY f.superseded ASC, f.ingested_at DESC` -/
def orderedBefore (a b : FingerprintRow × DocumentRow) : Prop :=
  a.1.superseded < b.1.superseded ∨
    a.1.superseded = b.1.superseded ∧ b.1.ingestedAt ≤ a.1.ingestedAt

instance : DecidableRel orderedBefore := fun a b => by unfold orderedBefore; infer_instance

/-- The 64-bit range in which an integer can be bound to a statement. -/
def fitsInt64 (i : ℤ) : Prop := -2 ^ 63 ≤ i ∧ i < 2 ^ 63

instance (i : ℤ) : Decidable (fitsInt64 i) := by unfold fitsInt64; infer_instance

/-! ## The index -/

structure AddArgs where
  fingerprint : String
  documentId : String
  documentVersion : String
  chunkOffset : ℤ
  chunkLength : ℤ
  authorized : Bool
  deriving DecidableEq, Repr

def AddArgs.key (a : AddArgs) : String × String × String :=
  (a.fingerprint, a.documentId, a.documentVersion)

def Connection.commit (t : Tables) : Connection := ⟨t, t⟩

section

variable (py : Stdlib) (secret : Bytes)

/-- The row `add` inserts. -/
def AddArgs.row (a : AddArgs) (ingestedAt : String) (payload : Bytes) : FingerprintRow where
  fingerprint := a.fingerprint
  documentId := a.documentId
  documentVersion := a.documentVersion
  ingestedAt := ingestedAt
  chunkOffset := a.chunkOffset
  chunkLength := a.chunkLength
  superseded := 0
  signature := sign py payload secret

/-- `add`, at the clock value `now`. Statements executed before an error stay in the open
transaction, where this connection sees them. -/
def add (conn : Connection) (now : String) (a : AddArgs) : Except PyErr Unit × Connection :=
  if ¬ startsWith a.fingerprint "sha256:" then
    (.error (.valueError (some ("fingerprint must be in the form 'sha256:<hex>', got " ++
      py.repr (.str a.fingerprint)))), conn)
  else if ¬ startsWith a.documentVersion "sha256:" then
    (.error (.valueError (some ("document_version must be in the form 'sha256:<hex>', got " ++
      py.repr (.str a.documentVersion)))), conn)
  else
    match canonicalPayload a.fingerprint a.documentId a.documentVersion now a.chunkOffset
      a.chunkLength with
    | .error e => (.error e, conn)
    | .ok payload =>
      let t := conn.tables.upsertDocument a.documentId a.documentVersion a.authorized
      if ¬ (fitsInt64 a.chunkOffset ∧ fitsInt64 a.chunkLength) then
        (.error .overflowError, { conn with tables := t })
      else (.ok (), .commit (t.insertOrIgnore (a.row py secret now payload)))

def setAuthorization (conn : Connection) (documentId : String) (authorized : Bool) : Connection :=
  .commit (conn.tables.updateDocument documentId fun d =>
    { d with authorized := sqlFlag authorized })

/-- `supersede`, with the row count it returns. -/
def supersede (conn : Connection) (documentId newVersion : String) : ℕ × Connection :=
  (conn.tables.fingerprints.countP (Tables.isOther documentId newVersion),
    .commit ((conn.tables.sweep documentId newVersion).updateDocument documentId fun d =>
      { d with currentVersion := newVersion }))

def entryOf (row : FingerprintRow × DocumentRow) : IndexEntry where
  fingerprint := row.1.fingerprint
  documentId := row.1.documentId
  documentVersion := row.1.documentVersion
  ingestedAt := row.1.ingestedAt
  chunkOffset := row.1.chunkOffset
  chunkLength := row.1.chunkLength
  authorized := row.2.authorized != 0
  superseded := row.1.superseded != 0
  signature := row.1.signature

def lookup (plan : QueryPlan) (conn : Connection) (fingerprint : String) : Option IndexEntry :=
  ((plan.scan (conn.tables.joined fingerprint)).insertionSort orderedBefore).head?.map entryOf

def verify (plan : QueryPlan) (conn : Connection) (fingerprint : String) :
    Except PyErr VerificationOutcome :=
  match lookup plan conn fingerprint with
  | none => .ok .unverified
  | some entry => do
    let payload ← canonicalPayload entry.fingerprint entry.documentId entry.documentVersion
      entry.ingestedAt entry.chunkOffset entry.chunkLength
    let same ← compareDigest (sign py payload secret) entry.signature
    if ¬ same then .ok .tampered
    else if ¬ entry.authorized then .ok .unauthorized
    else if entry.superseded then .ok .stale
    else .ok .verified

/-- The interface this index offers to the verifier. -/
def asIndex (plan : QueryPlan) : ProvenanceIndex Connection where
  verify := fun fp conn => Effect.lift (verify py secret plan conn fp) conn
  lookup := fun fp conn => .ok (lookup plan conn fp) conn

/-- The writing methods; `add` with the clock value it reads. -/
inductive Op
  | add (now : String) (a : AddArgs)
  | setAuthorization (documentId : String) (authorized : Bool)
  | supersede (documentId newVersion : String)
  deriving DecidableEq, Repr

/-- The document that a call writes. -/
def Op.documentId : Op → String
  | .add _ a => a.documentId
  | .setAuthorization d _ => d
  | .supersede d _ => d

/-- A call that succeeds; one that raises ends the run. -/
def step (conn : Connection) : Op → Except PyErr Connection
  | .add now a =>
    match add py secret conn now a with
    | (.ok _, conn') => .ok conn'
    | (.error e, _) => .error e
  | .setAuthorization d authorized => .ok (setAuthorization conn d authorized)
  | .supersede d v => .ok (supersede conn d v).2

def run (ops : List Op) : Except PyErr Connection := Run.run (step py secret) Connection.init ops

end

end Provenex.Sqlite
