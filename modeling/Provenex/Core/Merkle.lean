import Mathlib.Tactic
import Provenex.Py.Value

/-! `core/merkle.py`: the RFC 6962 log with its memo cache, and the stateless
verifier. `sha256` stands for `hashlib.sha256(..).digest()`. -/

namespace Provenex.Merkle

section

variable (sha256 : Bytes → Bytes)

def hashLeaf (leaf : Bytes) : Bytes := sha256 (0x00 :: leaf)

def hashNode (left right : Bytes) : Bytes := sha256 (0x01 :: (left ++ right))

end

/-- `int.bit_length`, for a nonnegative integer. -/
def bitLength (n : ℕ) : ℕ := if n = 0 then 0 else n.log2 + 1

def largestPow2Lt (n : ℕ) : ℕ := 1 <<< (bitLength (n - 1) - 1)

/-- Leaves are kept as their hashes; the cache maps `(lo, hi)` to a subtree hash. -/
structure MerkleTree where
  leafHashes : List Bytes
  mthCache : List ((ℕ × ℕ) × Bytes)

namespace MerkleTree

def init : MerkleTree := ⟨[], []⟩

def size (t : MerkleTree) : ℕ := t.leafHashes.length

/-- `self._mth_cache[key] = r`. -/
def remember (t : MerkleTree) (key : ℕ × ℕ) (r : Bytes) : MerkleTree :=
  { t with mthCache := (key, r) :: t.mthCache }

variable (sha256 : Bytes → Bytes)

def append (t : MerkleTree) (leaf : Bytes) : ℕ × MerkleTree :=
  (t.leafHashes.length, ⟨t.leafHashes ++ [hashLeaf sha256 leaf], []⟩)

/-- `_mth`. The recursion is bounded by `fuel`, and running out of it is Python's own error. -/
def mth : ℕ → ℕ → ℕ → MerkleTree → Except PyErr (Bytes × MerkleTree)
  | 0, _, _, _ => .error .recursionError
  | fuel + 1, lo, hi, t =>
    match t.mthCache.lookup (lo, hi) with
    | some cached => .ok (cached, t)
    | none =>
      let n := hi - lo
      if n = 1 then
        match t.leafHashes[lo]? with
        | some r => .ok (r, t.remember (lo, hi) r)
        | none => .error (.indexError none)
      else do
        let k := largestPow2Lt n
        let (a, t) ← mth fuel lo (lo + k) t
        let (b, t) ← mth fuel (lo + k) hi t
        let r := hashNode sha256 a b
        .ok (r, t.remember (lo, hi) r)

def root (t : MerkleTree) : Except PyErr (Bytes × MerkleTree) :=
  if t.leafHashes.isEmpty then .ok (sha256 [], t)
  else mth sha256 t.leafHashes.length 0 t.leafHashes.length t

/-- `_proof`. -/
def proof : ℕ → ℕ → ℕ → ℕ → MerkleTree → Except PyErr (List Bytes × MerkleTree)
  | 0, _, _, _, _ => .error .recursionError
  | fuel + 1, m, lo, hi, t =>
    let n := hi - lo
    if n ≤ 1 then .ok ([], t)
    else do
      let k := largestPow2Lt n
      if m < lo + k then
        let (below, t) ← proof fuel m lo (lo + k) t
        let (sibling, t) ← mth sha256 n (lo + k) hi t
        .ok (below ++ [sibling], t)
      else
        let (below, t) ← proof fuel m (lo + k) hi t
        let (sibling, t) ← mth sha256 n lo (lo + k) t
        .ok (below ++ [sibling], t)

def inclusionProof (t : MerkleTree) (leafIndex : ℤ) : Except PyErr (List Bytes × MerkleTree) :=
  let n := t.leafHashes.length
  if leafIndex < 0 ∨ leafIndex ≥ n then
    .error (.indexError (some
      ("leaf_index " ++ toString leafIndex ++ " out of range [0, " ++ toString n ++ ")")))
  else proof sha256 n leafIndex.toNat 0 n t

/-- The public methods that touch the tree. -/
inductive Call
  | append (leaf : Bytes)
  | root
  | inclusionProof (leafIndex : ℤ)

/-- The tree a call leaves behind; the one call that can raise does so before it writes. -/
def call (t : MerkleTree) : Call → MerkleTree
  | .append leaf => (t.append sha256 leaf).2
  | .root => match t.root sha256 with
    | .ok (_, t') => t'
    | .error _ => t
  | .inclusionProof i => match t.inclusionProof sha256 i with
    | .ok (_, t') => t'
    | .error _ => t

def run (calls : List Call) : MerkleTree := calls.foldl (call sha256) init

/-- The leaves a sequence of calls appends, in order. -/
def appended (calls : List Call) : List Bytes :=
  calls.filterMap fun
    | .append leaf => some leaf
    | _ => none

end MerkleTree

/-- The inner `while`: shift as long as `r` is even and nonzero. -/
def unwindEven (r sn : ℕ) : ℕ × ℕ :=
  if _h : r &&& 1 = 0 ∧ r ≠ 0 then unwindEven (r >>> 1) (sn >>> 1) else (r, sn)
termination_by r
decreasing_by simp only [Nat.shiftRight_one]; omega

section

variable (sha256 : Bytes → Bytes)

/-- The loop over the siblings, and the comparison after it. -/
def verifyLoop (rootHash : Bytes) : Bytes → ℕ → ℕ → List Bytes → Bool
  | fn, sn, _, [] => fn == rootHash && sn == 0
  | fn, sn, r, sibling :: rest =>
    if sn = 0 then false
    else if r &&& 1 = 1 ∨ r = sn then
      let (r', sn') := unwindEven r sn
      verifyLoop rootHash (hashNode sha256 sibling fn) (sn' >>> 1) (r' >>> 1) rest
    else verifyLoop rootHash (hashNode sha256 fn sibling) (sn >>> 1) (r >>> 1) rest

def verifyInclusionProof (leaf : Bytes) (leafIndex treeSize : ℤ) (proof : List Bytes)
    (rootHash : Bytes) : Bool :=
  if treeSize ≤ 0 ∨ leafIndex < 0 ∨ leafIndex ≥ treeSize then false
  else verifyLoop sha256 rootHash (hashLeaf sha256 leaf) (treeSize - 1).toNat leafIndex.toNat proof

end

end Provenex.Merkle
