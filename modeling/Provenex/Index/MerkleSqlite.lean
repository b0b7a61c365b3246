import Provenex.Core.Merkle
import Provenex.Index.SqliteSteps
import Provenex.Lib.Rows

/-! `index/merkle_sqlite_index.py`: the SQLite index with a log of its rows. The
log is a third table, a tree in memory over its bytes, and a map from
fingerprints to their last leaf. -/

namespace Provenex.MerkleSqlite

open Merkle (MerkleTree)
open Sqlite (AddArgs)

structure LeafRow where
  leafIndex : ℤ
  fingerprint : String
  leafBytes : Bytes
  deriving DecidableEq, Repr

/-- The connection, with the third table as it sees it and as it is durable, and what the object
keeps in memory. -/
structure Index where
  conn : Sqlite.Connection
  leaves : List LeafRow
  durableLeaves : List LeafRow
  tree : MerkleTree
  leafIndexByFp : List (String × ℤ)

/-- `_hex` -/
def hex (b : Bytes) : String := "sha256:" ++ hexdigest b

section

variable (py : Stdlib) (secret : Bytes)

/-! ## Memory -/

/-- A leaf goes into the tree and the map. -/
def remember (memory : MerkleTree × List (String × ℤ)) (l : LeafRow) :
    MerkleTree × List (String × ℤ) :=
  ((memory.1.append py.sha256 l.leafBytes).2,
    Rows.put Prod.fst memory.2 (l.fingerprint, l.leafIndex))

/-- `_rebuild_tree_from_disk`, on an empty memory. -/
def rebuild (leaves : List LeafRow) : MerkleTree × List (String × ℤ) :=
  (leaves.insertionSort fun a b => a.leafIndex ≤ b.leafIndex).foldl (remember py) (.init, [])

/-- The index on a database. -/
def opened (tables : Sqlite.Tables) (leaves : List LeafRow) : Index where
  conn := .commit tables
  leaves := leaves
  durableLeaves := leaves
  tree := (rebuild py leaves).1
  leafIndexByFp := (rebuild py leaves).2

namespace Index

def init : Index := opened py ⟨[], []⟩ []

/-- `close`, and the index constructed again. -/
def reopen (s : Index) : Index := opened py s.conn.durable s.durableLeaves

end Index

/-! ## Writing -/

/-- A step of `add`: one of the parent's, or one on the log. -/
inductive Step
  | base (st : Sqlite.Step)
  | insertLeaf (l : LeafRow)
  | appendLeaf (l : LeafRow)
  | noteIndex (l : LeafRow)

def Step.run (s : Index) : Step → Except PyErr Index
  | .base (.execute stmt) =>
    .ok { s with conn := { s.conn with tables := stmt s.conn.tables } }
  | .base (.raise e) => .error e
  | .base .commit => .ok { s with conn := .commit s.conn.tables, durableLeaves := s.leaves }
  | .insertLeaf l =>
    if s.leaves.any fun x => x.leafIndex = l.leafIndex then .error .integrityError
    else .ok { s with leaves := s.leaves ++ [l] }
  | .appendLeaf l => .ok { s with tree := (s.tree.append py.sha256 l.leafBytes).2 }
  | .noteIndex l =>
    .ok { s with leafIndexByFp := Rows.put Prod.fst s.leafIndexByFp (l.fingerprint, l.leafIndex) }

namespace Index

/-- `SELECT 1 FROM fingerprints WHERE .. LIMIT 1` -/
def existed (s : Index) (key : String × String × String) : Bool :=
  s.conn.tables.fingerprints.any fun r => r.key = key

/-- The leaf, from the row that is read back. -/
def newLeaf (s : Index) (a : AddArgs) : Except PyErr LeafRow :=
  match s.conn.tables.fingerprints.find? fun r => r.key = a.key with
  | none => .error (.typeError none)
  | some row =>
    (Sqlite.canonicalPayload row.fingerprint row.documentId row.documentVersion row.ingestedAt
      row.chunkOffset row.chunkLength).map fun leafBytes =>
        ⟨s.tree.size, a.fingerprint, leafBytes⟩

/-- What follows the parent's `add` of a new row. -/
def leafSteps (s : Index) (a : AddArgs) : List Step :=
  match s.newLeaf a with
  | .error e => [.base (.raise e)]
  | .ok leaf => [.insertLeaf leaf, .base .commit, .appendLeaf leaf, .noteIndex leaf]

/-- The parent's steps. -/
def parentSteps (s : Index) (now : String) (a : AddArgs) : List Step :=
  (Sqlite.addSteps py secret s.conn.tables now a).map .base

/-- The steps of `add`. -/
def addSteps (s : Index) (now : String) (a : AddArgs) : List Step :=
  let parent := s.parentSteps py secret now a
  match Steps.execute (Step.run py) s parent with
  | (.error _, _) => parent
  | (.ok _, s') => parent ++ if s.existed a.key then [] else s'.leafSteps a

def add (s : Index) (now : String) (a : AddArgs) : Except PyErr Unit × Index :=
  Steps.execute (Step.run py) s (s.addSteps py secret now a)

/-- The steps of a writing method. -/
def callSteps (s : Index) : Sqlite.Op → List Step
  | .add now a => s.addSteps py secret now a
  | call => (Sqlite.callSteps py secret s.conn.tables call).map .base

/-- A call that is stopped after its first `k` steps. -/
def stopped (s : Index) (call : Sqlite.Op) (k : ℕ) : Index :=
  (Steps.execute (Step.run py) s ((s.callSteps py secret call).take k)).2

def setAuthorization (s : Index) (documentId : String) (authorized : Bool) : Index :=
  { s with
    conn := Sqlite.setAuthorization s.conn documentId authorized
    durableLeaves := s.leaves }

def supersede (s : Index) (documentId newVersion : String) : Index :=
  { s with
    conn := (Sqlite.supersede s.conn documentId newVersion).2
    durableLeaves := s.leaves }

/-! ## Reading -/

def treeSize (s : Index) : ℤ := s.tree.size

def treeRoot (s : Index) : Except PyErr (String × Index) :=
  (s.tree.root py.sha256).map fun r => (hex r.1, { s with tree := r.2 })

def inclusionProof (s : Index) (fingerprint : String) :
    Except PyErr ((Bytes × ℤ × List String) × Index) :=
  match s.leafIndexByFp.lookup fingerprint with
  | none => .error .keyError
  | some leafIndex => do
    let row := s.leaves.find? fun l => l.leafIndex = leafIndex
    let (proof, tree) ← s.tree.inclusionProof py.sha256 leafIndex
    match row with
    | none => .error (.typeError none)
    | some row => .ok ((row.leafBytes, leafIndex, proof.map hex), { s with tree := tree })

end Index

/-! ## Runs -/

/-- A call of a writing method, or a restart. -/
inductive Op
  | call (op : Sqlite.Op)
  | reopen

/-- What an operation leaves behind, whether it returns or raises. -/
def apply (s : Index) : Op → Index
  | .call (.add now a) => (s.add py secret now a).2
  | .call (.setAuthorization d authorized) => s.setAuthorization d authorized
  | .call (.supersede d v) => s.supersede d v
  | .reopen => s.reopen py

/-- An operation that succeeds; one that raises ends the run. -/
def step (s : Index) : Op → Except PyErr Index
  | .call (.add now a) =>
    match s.add py secret now a with
    | (.ok _, s') => .ok s'
    | (.error e, _) => .error e
  | op => .ok (apply py secret s op)

def run (ops : List Op) : Except PyErr Index := Run.run (step py secret) (.init py) ops

/-- A call or a restart; a call in which an exception is raised after so many steps, on an index
that goes on; or one at which the process stops, with the database opened again. -/
inductive Event
  | op (op : Op)
  | failed (call : Sqlite.Op) (k : ℕ)
  | stopped (call : Sqlite.Op) (k : ℕ)

def Event.after (s : Index) : Event → Index
  | .op o => apply py secret s o
  | .failed call k => s.stopped py secret call k
  | .stopped call k => (s.stopped py secret call k).reopen py

def afterAll (events : List Event) (s : Index) : Index := events.foldl (Event.after py secret) s

/-- An event, or a call that reads the log and may fill the cache of its tree. -/
inductive Access
  | event (e : Event)
  | treeRoot
  | inclusionProof (fingerprint : String)

def Access.after (s : Index) : Access → Index
  | .event e => e.after py secret s
  | .treeRoot =>
    match s.treeRoot py with
    | .ok (_, s') => s'
    | .error _ => s
  | .inclusionProof fingerprint =>
    match s.inclusionProof py fingerprint with
    | .ok (_, s') => s'
    | .error _ => s

/-- The index after the accesses, from its first construction on. -/
def accessed (accesses : List Access) : Index := accesses.foldl (Access.after py secret) (.init py)

end

end Provenex.MerkleSqlite
