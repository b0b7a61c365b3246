import Provenex.Index.Sqlite

/-! An index that other users write while this caller reads. Every method holds
the lock of the index from end to end, so their calls fall between two reads. -/

namespace Provenex.Sqlite

section

variable (py : Stdlib) (secret : Bytes)

/-- What a call leaves behind, whether it returns or raises. -/
def apply (conn : Connection) : Op → Connection
  | .add now a => (add py secret conn now a).2
  | .setAuthorization d authorized => setAuthorization conn d authorized
  | .supersede d v => (supersede conn d v).2

def applyAll (ops : List Op) (conn : Connection) : Connection := ops.foldl (apply py secret) conn

/-- The connection, and the calls of the others: each batch falls before the next read. -/
structure Shared where
  conn : Connection
  pending : List (List Op)

namespace Shared

/-- The next batch arrives. -/
def arrive (s : Shared) : Shared :=
  match s.pending with
  | [] => s
  | ops :: rest => ⟨applyAll py secret ops s.conn, rest⟩

/-- The connection that read number `n` meets, counted from one. -/
def atRead (s : Shared) (n : ℕ) : Connection :=
  applyAll py secret (s.pending.take n).flatten s.conn

end Shared

/-- The shared index, as one of its users reads it. -/
def sharedIndex (plan : QueryPlan) : ProvenanceIndex Shared where
  verify fp s :=
    let s := s.arrive py secret
    Effect.lift (verify py secret plan s.conn fp) s
  lookup fp s :=
    let s := s.arrive py secret
    .ok (lookup plan s.conn fp) s

end

end Provenex.Sqlite
