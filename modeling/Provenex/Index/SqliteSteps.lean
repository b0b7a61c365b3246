import Provenex.Index.Shared
import Provenex.Lib.Steps

/-! `add` of the SQLite index step by step, for a failure between two of them. A
statement that was executed stays in the open transaction until the connection
commits. -/

namespace Provenex.Sqlite

/-- A step of `add`. What a step reads was found in the tables before it. -/
inductive Step
  | execute (stmt : Tables → Tables)
  | raise (e : PyErr)
  | commit

def Step.run (conn : Connection) : Step → Except PyErr Connection
  | .execute stmt => .ok { conn with tables := stmt conn.tables }
  | .raise e => .error e
  | .commit => .ok (.commit conn.tables)

section

variable (py : Stdlib) (secret : Bytes)

/-- The statements on the document, after the `SELECT`. -/
def documentSteps (t : Tables) (a : AddArgs) : List Step :=
  match t.selectCurrentVersion a.documentId with
  | none =>
    [.execute fun t => t.insertDocument ⟨a.documentId, sqlFlag a.authorized, a.documentVersion⟩]
  | some current =>
    if current ≠ a.documentVersion then
      [.execute fun t => t.sweep a.documentId a.documentVersion,
        .execute fun t => t.updateDocument a.documentId fun d =>
          { d with currentVersion := a.documentVersion, authorized := sqlFlag a.authorized }]
    else
      [.execute fun t => t.updateDocument a.documentId fun d =>
        { d with authorized := sqlFlag a.authorized }]

/-- The steps of `add` that write or raise. -/
def addSteps (t : Tables) (now : String) (a : AddArgs) : List Step :=
  if ¬ startsWith a.fingerprint "sha256:" then
    [.raise (.valueError (some ("fingerprint must be in the form 'sha256:<hex>', got " ++
      py.repr (.str a.fingerprint))))]
  else if ¬ startsWith a.documentVersion "sha256:" then
    [.raise (.valueError (some ("document_version must be in the form 'sha256:<hex>', got " ++
      py.repr (.str a.documentVersion))))]
  else
    match canonicalPayload a.fingerprint a.documentId a.documentVersion now a.chunkOffset
      a.chunkLength with
    | .error e => [.raise e]
    | .ok payload =>
      documentSteps t a ++
        if ¬ (fitsInt64 a.chunkOffset ∧ fitsInt64 a.chunkLength) then [.raise .overflowError]
        else [.execute fun t => t.insertOrIgnore (a.row py secret now payload), .commit]

/-- The steps of a writing method. -/
def callSteps (t : Tables) : Op → List Step
  | .add now a => addSteps py secret t now a
  | .setAuthorization d authorized =>
    [.execute fun t => t.updateDocument d fun e => { e with authorized := sqlFlag authorized },
      .commit]
  | .supersede d v =>
    [.execute fun t => t.sweep d v,
      .execute fun t => t.updateDocument d fun e => { e with currentVersion := v }, .commit]

/-- `add`, when the step after the first `k` raises. -/
def failedAdd (conn : Connection) (now : String) (a : AddArgs) (k : ℕ) : Connection :=
  (Steps.execute Step.run conn ((addSteps py secret conn.tables now a).take k)).2

end

/-- A call, or an `add` that fails after so many of its steps. -/
inductive Event
  | call (op : Op)
  | failed (now : String) (a : AddArgs) (k : ℕ)

section

variable (py : Stdlib) (secret : Bytes)

def Event.after (conn : Connection) : Event → Connection
  | .call op => apply py secret conn op
  | .failed now a k => failedAdd py secret conn now a k

def afterAll (events : List Event) (conn : Connection) : Connection :=
  events.foldl (Event.after py secret) conn

end

/-- The calls alone. -/
def calls (events : List Event) : List Op :=
  events.filterMap fun
    | .call op => some op
    | .failed .. => none

end Provenex.Sqlite
