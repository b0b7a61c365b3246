import Provenex.Proofs.MerkleTree

/-! The verifier accepts exactly the leaf at the index and its audit path. The
only thing asked of SHA-256 is that it keeps apart the byte strings that the
tree and the verifier hash. -/

namespace Provenex.Merkle

open HashTree (walk climb climbPairs treePairs)

theorem unwindEven_eq (r sn : ℕ) : unwindEven r sn = HashTree.unwind r sn := by
  fun_induction unwindEven r sn with
  | case1 r sn h ih =>
    rw [HashTree.unwind, dif_pos (by rwa [Nat.and_one_is_mod] at h), ih]
    simp only [Nat.shiftRight_one]
  | case2 r sn h => rw [HashTree.unwind, dif_neg (by rwa [Nat.and_one_is_mod] at h)]

section Verifier

variable (sha256 : Bytes → Bytes)

/-- The loop succeeds when there is one sibling for each level, and they climb to the root. -/
theorem verifyLoop_iff (rootHash : Bytes) (proof : List Bytes) : ∀ (fn : Bytes) (sn r : ℕ),
    verifyLoop sha256 rootHash fn sn r proof = true ↔
      proof.length = (walk r sn).length ∧
        climb (hashNode sha256) fn ((walk r sn).zip proof) = rootHash := by
  induction proof with
  | nil =>
    intro fn sn r
    by_cases h0 : sn = 0
    · subst h0
      simp [verifyLoop, HashTree.walk_zero]
    · have hw : (walk r sn).length ≠ 0 := by
        rw [walk, dif_neg h0]
        split_ifs <;> simp
      simp [verifyLoop, h0, hw.symm]
  | cons sibling rest ih =>
    intro fn sn r
    by_cases h0 : sn = 0
    · subst h0
      simp [verifyLoop, HashTree.walk_zero]
    · rw [verifyLoop, if_neg h0, Nat.and_one_is_mod]
      by_cases hl : r % 2 = 1 ∨ r = sn
      · rw [if_pos hl, unwindEven_eq, HashTree.walk_left h0 hl]
        simp only [ih, Nat.shiftRight_one, List.length_cons, List.zip_cons_cons,
          Nat.add_right_cancel_iff]
        rfl
      · rw [if_neg hl, HashTree.walk_even h0 (by omega) (by omega)]
        simp only [ih, Nat.shiftRight_one, List.length_cons, List.zip_cons_cons,
          Nat.add_right_cancel_iff]
        rfl

section Inputs

def leafInput (leaf : Bytes) : Bytes := 0x00 :: leaf

def nodeInput (p : Bytes × Bytes) : Bytes := 0x01 :: (p.1 ++ p.2)

/-- The byte strings hashed to build the tree over `leaves`. -/
def treeInputs (leaves : List Bytes) : List Bytes :=
  leaves.map leafInput ++
    (treePairs (hashNode sha256) [] (leaves.map (hashLeaf sha256))).map nodeInput

/-- The byte strings the verifier hashes. -/
def verifierInputs (leaf : Bytes) (i n : ℕ) (proof : List Bytes) : List Bytes :=
  leafInput leaf ::
    (climbPairs (hashNode sha256) (hashLeaf sha256 leaf) ((walk i (n - 1)).zip proof)).map nodeInput

variable {sha256} {leaves : List Bytes} {leaf : Bytes} {i n : ℕ} {p : List Bytes}

/-- Digests being 32 bytes long, a node input splits in one way only. -/
theorem keepsApart (hlen : ∀ b, (sha256 b).length = 32)
    (hinj : Set.InjOn sha256
      {b | b ∈ treeInputs sha256 leaves ∨ b ∈ verifierInputs sha256 leaf i n p}) :
    HashTree.KeepsApart (hashNode sha256)
      (climbPairs (hashNode sha256) (hashLeaf sha256 leaf) ((walk i (n - 1)).zip p))
      (treePairs (hashNode sha256) [] (leaves.map (hashLeaf sha256))) := by
  intro a ha b hb hab
  have hnode (x y : Bytes) : (hashNode sha256 x y).length = 32 := hlen _
  have hin : nodeInput a = nodeInput b :=
    hinj (.inr (List.mem_cons_of_mem _ (List.mem_map_of_mem ha)))
      (.inl (List.mem_append_right _ (List.mem_map_of_mem hb))) hab
  have happ : a.1 ++ a.2 = b.1 ++ b.2 := List.cons.inj hin |>.2
  have hbl := HashTree.treePairs_of (P := fun d => d.length = 32) _ [] hnode
    (l := leaves.map (hashLeaf sha256)) (by simp [hashLeaf, hlen]) b hb
  have hal := HashTree.climbPairs_of (P := fun d => d.length = 32) _ hnode _ _
    (by simp [hashLeaf, hlen]) a ha
  rcases hal with h1 | h2
  · exact Prod.ext_iff.mpr (List.append_inj happ (h1.trans hbl.1.symm))
  · exact Prod.ext_iff.mpr (List.append_inj' happ (h2.trans hbl.2.symm))

theorem leaf_eq (hinj : Set.InjOn sha256
      {b | b ∈ treeInputs sha256 leaves ∨ b ∈ verifierInputs sha256 leaf i n p})
    {l : Bytes} (hl : l ∈ leaves) (h : hashLeaf sha256 l = hashLeaf sha256 leaf) : l = leaf := by
  have : leafInput l = leafInput leaf :=
    hinj (.inl (List.mem_append_left _ (List.mem_map_of_mem hl))) (.inr List.mem_cons_self) h
  exact (List.cons.inj this).2

end Inputs

/-- The verifier takes the leaf at `i` with the tree's own path, whatever the hash is. -/
theorem verify_path {leaves : List Bytes} {leaf : Bytes} {i : ℕ} (hl : leaves[i]? = some leaf) :
    verifyInclusionProof sha256 leaf i leaves.length
      (HashTree.path (hashNode sha256) [] (leaves.map (hashLeaf sha256)) i)
      (HashTree.root (hashNode sha256) [] (leaves.map (hashLeaf sha256))) = true := by
  have hi : i < leaves.length := (List.getElem?_eq_some_iff.mp hl).1
  have hm : (leaves.map (hashLeaf sha256)).length = leaves.length := List.length_map _
  rw [verifyInclusionProof, if_neg (by omega), verifyLoop_iff, Int.toNat_natCast,
    show ((leaves.length : ℤ) - 1).toNat = leaves.length - 1 by omega,
    HashTree.walk_eq_sides leaves.length i hi, HashTree.path_length, hm]
  refine ⟨rfl, ?_⟩
  have := HashTree.climb_path (hashNode sha256) [] (leaves.map (hashLeaf sha256)) i
    (x := hashLeaf sha256 leaf) (by rw [List.getElem?_map, hl]; rfl)
  rwa [hm] at this

/-- Against the root of the tree over `leaves`, the verifier takes the leaf at `i` with the
tree's own path and nothing else. -/
theorem verify_iff {leaves : List Bytes} {leaf : Bytes} {i : ℕ} {p : List Bytes}
    (hlen : ∀ b, (sha256 b).length = 32) (hi : i < leaves.length)
    (hinj : Set.InjOn sha256
      {b | b ∈ treeInputs sha256 leaves ∨ b ∈ verifierInputs sha256 leaf i leaves.length p}) :
    verifyInclusionProof sha256 leaf i leaves.length p
        (HashTree.root (hashNode sha256) [] (leaves.map (hashLeaf sha256))) = true ↔
      leaves[i]? = some leaf ∧
        p = HashTree.path (hashNode sha256) [] (leaves.map (hashLeaf sha256)) i := by
  have hw := HashTree.walk_eq_sides leaves.length i hi
  have hm : (leaves.map (hashLeaf sha256)).length = leaves.length := List.length_map _
  constructor
  · rw [verifyInclusionProof, if_neg (by omega), verifyLoop_iff, Int.toNat_natCast,
      show ((leaves.length : ℤ) - 1).toNat = leaves.length - 1 by omega]
    rintro ⟨hp, hc⟩
    have hk := keepsApart hlen hinj
    rw [hw, ← hm] at hp hc hk
    obtain ⟨hl, hpath⟩ := HashTree.climb_unique _ [] _ i (by rwa [hm]) _ p hp hk hc
    refine ⟨?_, hpath⟩
    rw [List.getElem?_map, List.getElem?_eq_getElem hi, Option.map_some, Option.some.injEq] at hl
    rw [List.getElem?_eq_getElem hi, leaf_eq hinj (List.getElem_mem hi) hl]
  · rintro ⟨hl, rfl⟩
    exact verify_path sha256 hl

open MerkleTree in
/-- Inclusion proofs are exact after any calls. -/
theorem inclusion_proof_exact (hlen : ∀ b, (sha256 b).length = 32) (calls : List Call) (i : ℕ)
    (hi : i < (appended calls).length) (x : Bytes) (candidate : List Bytes)
    (hinj : Set.InjOn sha256 {b | b ∈ treeInputs sha256 (appended calls) ∨
      b ∈ verifierInputs sha256 x i (appended calls).length candidate}) :
    ∃ r t q t', (run sha256 calls).root sha256 = .ok (r, t) ∧
      t.inclusionProof sha256 i = .ok (q, t') ∧
      (verifyInclusionProof sha256 x i (run sha256 calls).size candidate r = true ↔
        (appended calls)[i]? = some x ∧ candidate = q) := by
  have hrun := run_holds sha256 calls
  have hsize : (run sha256 calls).leafHashes.length = (appended calls).length := by
    rw [hrun.leaf_hashes, List.length_map]
  obtain ⟨t, e, hc⟩ := root_spec sha256 hrun.sound (by omega)
  obtain ⟨t', e', -⟩ := inclusionProof_spec sha256 hc.2 (i := i) (by rw [hc.1]; omega)
  refine ⟨_, t, _, t', e, e', ?_⟩
  rw [hc.1, size, hsize, hrun.leaf_hashes]
  exact verify_iff sha256 hlen hi hinj

end Verifier

/-! A log of three leaves, with the digests SHA-256 gives it. -/

namespace Sample

def leafA : Bytes :=
  [2, 42, 105, 121, 230, 218, 183, 170, 90, 228, 195, 229, 228, 95, 126, 151, 113, 18, 167, 230, 53,
   147, 130, 13, 190, 193, 236, 115, 138, 36, 249, 60]

def leafB : Bytes :=
  [87, 235, 53, 97, 93, 71, 243, 78, 199, 20, 202, 205, 245, 253, 116, 96, 138, 94, 142, 16, 39, 36,
   232, 11, 36, 178, 135, 192, 194, 123, 106, 49]

def leafC : Bytes :=
  [89, 127, 203, 49, 40, 45, 52, 101, 76, 32, 13, 52, 24, 252, 165, 112, 92, 100, 142, 191, 50, 110,
   199, 61, 141, 222, 241, 24, 65, 248, 118, 216]

def nodeAB : Bytes :=
  [177, 55, 152, 95, 244, 132, 251, 96, 13, 185, 49, 7, 199, 123, 3, 101, 200, 13, 120, 245, 180,
   41, 222, 208, 253, 151, 54, 29, 7, 121, 153, 235]

def rootABC : Bytes :=
  [54, 100, 46, 115, 194, 84, 10, 177, 33, 227, 166, 191, 149, 69, 176, 162, 73, 130, 205, 131, 14,
   177, 61, 60, 209, 157, 227, 206, 108, 2, 30, 193]

def digests : List (Bytes × Bytes) :=
  [(leafInput [97], leafA), (leafInput [98], leafB), (leafInput [99], leafC),
    (nodeInput (leafA, leafB), nodeAB), (nodeInput (nodeAB, leafC), rootABC)]

def sha256 (b : Bytes) : Bytes := (digests.lookup b).getD (List.replicate 32 0)

theorem lookup_length {digests : List (Bytes × Bytes)} (h : ∀ p ∈ digests, p.2.length = 32)
    (b : Bytes) : ((digests.lookup b).getD (List.replicate 32 0)).length = 32 := by
  cases hb : digests.lookup b with
  | none => rfl
  | some d =>
    obtain ⟨l, k, hd, -⟩ := List.lookup_eq_some_iff.mp hb
    have : (b, d) ∈ digests := by
      rw [hd]
      simp
    exact h _ this

theorem sha256_length (b : Bytes) : (sha256 b).length = 32 := lookup_length (by decide) b

def calls : List MerkleTree.Call :=
  [.append [97], .root, .append [98], .inclusionProof 0, .append [99]]

end Sample

open MerkleTree Sample in
theorem inclusion_proof_exact_sample :
    ∃ r t q t', (run Sample.sha256 calls).root Sample.sha256 = .ok (r, t) ∧
      t.inclusionProof Sample.sha256 (2 : ℕ) = .ok (q, t') ∧
      (verifyInclusionProof Sample.sha256 [99] (2 : ℕ) (run Sample.sha256 calls).size [nodeAB] r = true ↔
        (appended calls)[2]? = some [99] ∧ [nodeAB] = q) := by
  refine inclusion_proof_exact Sample.sha256 sha256_length calls 2 (by decide) [99] [nodeAB] ?_
  have hinj : ∀ a ∈ treeInputs Sample.sha256 (appended calls) ++
      verifierInputs Sample.sha256 [99] 2 3 [nodeAB],
      ∀ b ∈ treeInputs Sample.sha256 (appended calls) ++
        verifierInputs Sample.sha256 [99] 2 3 [nodeAB],
      Sample.sha256 a = Sample.sha256 b → a = b := by
    decide +kernel
  intro a ha b hb h
  exact hinj a (List.mem_append.mpr ha) b (List.mem_append.mpr hb) h

end Provenex.Merkle
