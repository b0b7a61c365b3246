import Provenex.Index.Postgres

/-! `index/merkle_postgres_index.py`: the statements of an `add`, over three
transactions. The check in the first decides about the leaf in the third. -/

namespace Provenex.Postgres

open Transactions

/-- `_LEAF_LOCK_KEY` -/
def leafLockKey : ℤ := 0x70726F76656E6578

def FingerprintRow.payload (r : FingerprintRow) : Except PyErr Bytes :=
  Sqlite.canonicalPayload r.fingerprint r.documentId r.documentVersion r.ingestedAt r.chunkOffset
    r.chunkLength

namespace Tables

/-- `SELECT 1 FROM provenex_fingerprints WHERE .. LIMIT 1` -/
def existed (key : String × String × String) (t : Tables) : Bool :=
  t.fingerprints.any fun r => r.key = key

/-- `SELECT COALESCE(MAX(leaf_index), -1) + 1 FROM provenex_merkle_leaves` -/
def nextLeafIndex (t : Tables) : ℤ := (t.merkleLeaves.map (·.leafIndex)).max?.getD (-1) + 1

end Tables

section

variable (py : Stdlib) (secret : Bytes) (hashtext : String → ℤ)

/-- `INSERT INTO provenex_merkle_leaves`, which raises on an index that is taken. -/
def insertLeaf (l : LeafRow) (next : Program) : Program :=
  .query fun t =>
    if t.merkleLeaves.any fun x => x.leafIndex = l.leafIndex then .rollback
    else .write (fun _ => [.leaf l]) (.commit next)

/-- The statements of the third transaction after the row was read back. -/
def appendRow (fingerprint : String) (next : Program) : Option FingerprintRow → Program
  | none => .rollback
  | some row =>
    match row.payload with
    | .error _ => .rollback
    | .ok leafBytes =>
      .query fun t => insertLeaf ⟨t.nextLeafIndex, fingerprint, leafBytes⟩ next

/-- The third transaction. -/
def appendLeaf (a : Sqlite.AddArgs) (next : Program) : Program :=
  .lock leafLockKey <|
  .query fun t => appendRow a.fingerprint next (t.fingerprints.find? fun r => r.key = a.key)

/-- What `add` does after the call to its parent. -/
def afterAdd (a : Sqlite.AddArgs) (existed : Bool) : Program :=
  if existed then .done else appendLeaf a .done

/-- `MerklePostgresProvenanceIndex.add` -/
def merkleAdd (now : String) (a : Sqlite.AddArgs) : Program :=
  .query fun t => .commit (add py secret hashtext now a (afterAdd a (t.existed a.key)))

end

end Provenex.Postgres
