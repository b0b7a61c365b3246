import Provenex.Index.MerkleSqlite
import Provenex.Lib.Simulation

/-! The interface of `index/base.py` with its writing methods, and the indexes that offer it. -/

namespace Provenex

open Effect

/-- The methods of `ProvenanceIndex`; `add` with the clock value it reads. -/
structure WritableIndex (σ : Type) extends ProvenanceIndex σ where
  add : String → Sqlite.AddArgs → EStateM PyErr σ Unit
  setAuthorization : String → Bool → EStateM PyErr σ Unit
  supersede : String → String → EStateM PyErr σ ℕ

/-- The SQLite index. -/
def Sqlite.asWritable (py : Stdlib) (secret : Bytes) (plan : Sqlite.QueryPlan) :
    WritableIndex Sqlite.Connection where
  toProvenanceIndex := Sqlite.asIndex py secret plan
  add := fun now a conn =>
    let added := Sqlite.add py secret conn now a
    lift added.1 added.2
  setAuthorization := fun d authorized conn => .ok () (Sqlite.setAuthorization conn d authorized)
  supersede := fun d v conn => .ok (Sqlite.supersede conn d v).1 (Sqlite.supersede conn d v).2

/-- The SQLite index with its log, which inherits the reading methods. -/
def MerkleSqlite.asWritable (py : Stdlib) (secret : Bytes) (plan : Sqlite.QueryPlan) :
    WritableIndex MerkleSqlite.Index where
  verify := fun fp s => lift (Sqlite.verify py secret plan s.conn fp) s
  lookup := fun fp s => .ok (Sqlite.lookup plan s.conn fp) s
  add := fun now a s =>
    let added := s.add py secret now a
    lift added.1 added.2
  setAuthorization := fun d authorized s => .ok () (s.setAuthorization d authorized)
  supersede := fun d v s => .ok (Sqlite.supersede s.conn d v).1 (s.supersede d v)

/-! ## Histories -/

section

variable {σ : Type} (index : WritableIndex σ)

/-- A writing call; `supersede` returns its row count. -/
def WritableIndex.perform : Sqlite.Op → EStateM PyErr σ ℕ
  | .add now a => do
    index.add now a
    pure 0
  | .setAuthorization d authorized => do
    index.setAuthorization d authorized
    pure 0
  | .supersede d v => index.supersede d v

/-- The calls one after the other, also after one that raises. -/
def WritableIndex.performAll (ops : List Sqlite.Op) : EStateM PyErr σ (List (Except PyErr ℕ)) :=
  forEach ops [] fun results op => do
    let result ← attempt (index.perform op)
    pure (results ++ [result])

end

end Provenex
