import Provenex.Index.Sqlite
import Provenex.Lib.Rows
import Provenex.Lib.Transactions

/-! `index/postgres_index.py`, statement by statement. A call is one transaction,
which first takes the advisory lock of its document. -/

namespace Provenex.Postgres

open Transactions

structure DocumentRow where
  documentId : String
  authorized : Bool
  currentVersion : String
  deriving DecidableEq, Repr

structure FingerprintRow where
  fingerprint : String
  documentId : String
  documentVersion : String
  ingestedAt : String
  chunkOffset : ℤ
  chunkLength : ℤ
  superseded : Bool
  signature : String
  deriving DecidableEq, Repr

/-- The primary key of `provenex_fingerprints`. -/
def FingerprintRow.key (r : FingerprintRow) : String × String × String :=
  (r.fingerprint, r.documentId, r.documentVersion)

structure LeafRow where
  leafIndex : ℤ
  fingerprint : String
  leafBytes : Bytes
  deriving DecidableEq, Repr

/-- The third table is that of the transparency log, and empty without one. -/
structure Tables where
  documents : List DocumentRow
  fingerprints : List FingerprintRow
  merkleLeaves : List LeafRow
  deriving DecidableEq, Repr

def Tables.init : Tables := ⟨[], [], []⟩

/-! ## Row writes -/

/-- What a statement leaves of a row. -/
inductive RowWrite
  | document (d : DocumentRow)
  | fingerprint (r : FingerprintRow)
  | leaf (l : LeafRow)
  deriving DecidableEq, Repr

def Tables.write (t : Tables) : RowWrite → Tables
  | .document d => { t with documents := Rows.put (·.documentId) t.documents d }
  | .fingerprint r => { t with fingerprints := Rows.put (·.key) t.fingerprints r }
  | .leaf l => { t with merkleLeaves := Rows.put (·.leafIndex) t.merkleLeaves l }

/-! ## Statements, on what their transaction sees -/

namespace Tables

/-- `SELECT current_version FROM provenex_documents WHERE document_id = %s FOR UPDATE` -/
def selectCurrentVersion (t : Tables) (documentId : String) : Option String :=
  (t.documents.find? fun d => d.documentId = documentId).map (·.currentVersion)

/-- `INSERT INTO provenex_documents .. ON CONFLICT (document_id) DO NOTHING` -/
def insertDocument (d : DocumentRow) (t : Tables) : List RowWrite :=
  if t.documents.any fun e => e.documentId = d.documentId then [] else [.document d]

/-- `UPDATE provenex_documents SET .. WHERE document_id = %s` -/
def updateDocument (documentId : String) (set : DocumentRow → DocumentRow) (t : Tables) :
    List RowWrite :=
  (t.documents.filter fun d => d.documentId = documentId).map fun d => .document (set d)

/-- `WHERE document_id = %s AND document_version != %s` -/
def isOther (documentId version : String) (r : FingerprintRow) : Bool :=
  r.documentId = documentId ∧ r.documentVersion ≠ version

/-- `UPDATE provenex_fingerprints SET superseded = TRUE WHERE ..` -/
def sweep (documentId version : String) (t : Tables) : List RowWrite :=
  (t.fingerprints.filter (isOther documentId version)).map fun r =>
    .fingerprint { r with superseded := true }

/-- `INSERT INTO provenex_fingerprints .. ON CONFLICT (..) DO NOTHING` -/
def insertFingerprint (row : FingerprintRow) (t : Tables) : List RowWrite :=
  if t.fingerprints.any fun r => r.key = row.key then [] else [.fingerprint row]

end Tables

/-- The range of an `INTEGER` column. -/
def fitsInt32 (i : ℤ) : Prop := -2 ^ 31 ≤ i ∧ i < 2 ^ 31

instance (i : ℤ) : Decidable (fitsInt32 i) := by unfold fitsInt32; infer_instance

/-- A text that cannot be sent to the server. -/
def hasNul (s : String) : Bool := s.toList.any fun c => c = '\x00'

/-! ## Calls -/

abbrev Program := Transactions.Program Tables RowWrite ℤ

section

variable (py : Stdlib) (secret : Bytes) (hashtext : String → ℤ)

/-- The row `add` inserts. -/
def row (a : Sqlite.AddArgs) (ingestedAt : String) (payload : Bytes) : FingerprintRow where
  fingerprint := a.fingerprint
  documentId := a.documentId
  documentVersion := a.documentVersion
  ingestedAt := ingestedAt
  chunkOffset := a.chunkOffset
  chunkLength := a.chunkLength
  superseded := false
  signature := Sqlite.sign py payload secret

/-- The last statement of `add`, and the commit. -/
def insertRow (r : FingerprintRow) (next : Program) : Program :=
  if fitsInt32 r.chunkOffset ∧ fitsInt32 r.chunkLength then
    .write (Tables.insertFingerprint r) (.commit next)
  else .rollback

/-- The statements of `add` after its `SELECT`, on the version that it found. -/
def afterSelect (a : Sqlite.AddArgs) (r : FingerprintRow) (next : Program) :
    Option String → Program
  | none =>
    .write (Tables.insertDocument ⟨a.documentId, a.authorized, a.documentVersion⟩)
      (insertRow r next)
  | some current =>
    if current ≠ a.documentVersion then
      .write (Tables.sweep a.documentId a.documentVersion) <|
      .write (Tables.updateDocument a.documentId fun d =>
          { d with currentVersion := a.documentVersion, authorized := a.authorized })
        (insertRow r next)
    else
      .write (Tables.updateDocument a.documentId fun d => { d with authorized := a.authorized })
        (insertRow r next)

/-- The transaction of `add`. -/
def addTransaction (a : Sqlite.AddArgs) (r : FingerprintRow) (next : Program) : Program :=
  .lock (hashtext a.documentId) <|
  .query fun t => afterSelect a r next (t.selectCurrentVersion a.documentId)

/-- `add`, at the clock value `now`, and what its caller does next. -/
def add (now : String) (a : Sqlite.AddArgs) (next : Program) : Program :=
  if ¬ startsWith a.fingerprint "sha256:" ∨ ¬ startsWith a.documentVersion "sha256:" then .rollback
  else
    match Sqlite.canonicalPayload a.fingerprint a.documentId a.documentVersion now a.chunkOffset
      a.chunkLength with
    | .error _ => .rollback
    | .ok payload => addTransaction hashtext a (row py secret a now payload) next

def setAuthorization (documentId : String) (authorized : Bool) (next : Program) : Program :=
  if hasNul documentId then .rollback
  else
    .lock (hashtext documentId) <|
    .write (Tables.updateDocument documentId fun d => { d with authorized := authorized }) <|
    .commit next

def supersede (documentId newVersion : String) (next : Program) : Program :=
  if hasNul documentId then .rollback
  else
    .lock (hashtext documentId) <|
    if hasNul newVersion then .rollback
    else
      .write (Tables.sweep documentId newVersion) <|
      .write (Tables.updateDocument documentId fun d => { d with currentVersion := newVersion }) <|
      .commit next

/-- A call of one of the writing methods. -/
def program : Sqlite.Op → Program
  | .add now a => add py secret hashtext now a .done
  | .setAuthorization d authorized => setAuthorization hashtext d authorized .done
  | .supersede d v => supersede hashtext d v .done

/-- What a call by itself leaves. -/
def apply (t : Tables) (op : Sqlite.Op) : Tables :=
  (program py secret hashtext op).alone Tables.write t []

def applyAll (ops : List Sqlite.Op) (t : Tables) : Tables := ops.foldl (apply py secret hashtext) t

end

/-! ## Reading -/

/-- The order in which a query happens to visit its rows. -/
structure QueryPlan where
  scan : List (FingerprintRow × DocumentRow) → List (FingerprintRow × DocumentRow)
  perm : ∀ rows, (scan rows).Perm rows

/-- The rows of `provenex_fingerprints f JOIN provenex_documents d ON ..`. -/
def Tables.joined (t : Tables) (fingerprint : String) : List (FingerprintRow × DocumentRow) :=
  (t.fingerprints.filter fun f => f.fingerprint = fingerprint).flatMap fun f =>
    (t.documents.filter fun d => d.documentId = f.documentId).map fun d => (f, d)

/-- `ORDER BY f.superseded ASC, f.ingested_at DESC` -/
def orderedBefore (a b : FingerprintRow × DocumentRow) : Prop :=
  a.1.superseded < b.1.superseded ∨
    a.1.superseded = b.1.superseded ∧ b.1.ingestedAt ≤ a.1.ingestedAt

instance : DecidableRel orderedBefore := fun a b => by unfold orderedBefore; infer_instance

def entryOf (row : FingerprintRow × DocumentRow) : IndexEntry where
  fingerprint := row.1.fingerprint
  documentId := row.1.documentId
  documentVersion := row.1.documentVersion
  ingestedAt := row.1.ingestedAt
  chunkOffset := row.1.chunkOffset
  chunkLength := row.1.chunkLength
  authorized := row.2.authorized
  superseded := row.1.superseded
  signature := row.1.signature

def lookup (plan : QueryPlan) (t : Tables) (fingerprint : String) : Option IndexEntry :=
  ((plan.scan (t.joined fingerprint)).insertionSort orderedBefore).head?.map entryOf

def verify (py : Stdlib) (secret : Bytes) (plan : QueryPlan) (t : Tables) (fingerprint : String) :
    Except PyErr VerificationOutcome :=
  match lookup plan t fingerprint with
  | none => .ok .unverified
  | some entry => do
    let payload ← Sqlite.canonicalPayload entry.fingerprint entry.documentId entry.documentVersion
      entry.ingestedAt entry.chunkOffset entry.chunkLength
    let same ← compareDigest (Sqlite.sign py payload secret) entry.signature
    if ¬ same then .ok .tampered
    else if ¬ entry.authorized then .ok .unauthorized
    else if entry.superseded then .ok .stale
    else .ok .verified

/-- The interface this index offers to the verifier. -/
def asIndex (py : Stdlib) (secret : Bytes) (plan : QueryPlan) : ProvenanceIndex Tables where
  verify := fun fp t => Effect.lift (verify py secret plan t fp) t
  lookup := fun fp t => .ok (lookup plan t fp) t

end Provenex.Postgres
