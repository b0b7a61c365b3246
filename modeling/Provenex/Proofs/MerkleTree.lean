import Provenex.Core.Merkle
import Provenex.Lib.HashTree

/-! The memo cache is invisible: after any calls, `root` and `inclusion_proof`
return the root and the path of the hash tree over the leaf hashes. -/

namespace Provenex.Merkle

open HashTree (split)

theorem largestPow2Lt_eq {n : ℕ} (hn : 1 < n) : largestPow2Lt n = split n := by
  unfold largestPow2Lt bitLength split
  rw [if_neg (by omega), Nat.add_sub_cancel, Nat.one_shiftLeft]

section Slice

/-- `l[lo:hi]`. -/
def slice (l : List Bytes) (lo hi : ℕ) : List Bytes := (l.take hi).drop lo

variable {l : List Bytes} {lo hi k : ℕ}

theorem slice_length (h : hi ≤ l.length) : (slice l lo hi).length = hi - lo := by
  simp [slice, h]

theorem slice_take (h : lo + k ≤ hi) : (slice l lo hi).take k = slice l lo (lo + k) := by
  rw [slice, slice, List.take_drop, List.take_take, Nat.min_eq_left h]

theorem slice_drop : (slice l lo hi).drop k = slice l (lo + k) hi := by
  rw [slice, slice, List.drop_drop]

theorem slice_all : slice l 0 l.length = l := by simp [slice]

end Slice

variable (sha256 : Bytes → Bytes)

/-- The subtree hash of `_leaf_hashes[lo:hi]`, without a cache. -/
def subtree (l : List Bytes) (lo hi : ℕ) : Bytes :=
  HashTree.root (hashNode sha256) [] (slice l lo hi)

theorem subtree_leaf {l : List Bytes} {lo : ℕ} (h : lo < l.length) :
    subtree sha256 l lo (lo + 1) = l[lo] := by
  have hlen : (slice l lo (lo + 1)).length = 1 := by rw [slice_length h]; omega
  rw [subtree, HashTree.root_leaf _ _ hlen.le]
  simp [slice, List.head?_drop, List.headD_eq_head?_getD, h]

theorem subtree_split {l : List Bytes} (lo hi : ℕ) (h1 : 1 < hi - lo) (h : hi ≤ l.length) :
    subtree sha256 l lo hi =
      hashNode sha256 (subtree sha256 l lo (lo + largestPow2Lt (hi - lo)))
        (subtree sha256 l (lo + largestPow2Lt (hi - lo)) hi) := by
  have hlen : (slice l lo hi).length = hi - lo := slice_length h
  have hk := HashTree.split_lt h1
  rw [subtree, HashTree.root_split _ _ (by omega), hlen, largestPow2Lt_eq h1,
    slice_take (by omega), slice_drop]
  rfl

namespace MerkleTree

/-- Every cached subtree hash is the one the leaves have now. -/
def Sound (t : MerkleTree) : Prop :=
  ∀ lo hi r, t.mthCache.lookup (lo, hi) = some r → lo < hi → hi ≤ t.leafHashes.length →
    r = subtree sha256 t.leafHashes lo hi

/-- What a call that only computes may do to the tree: fill the cache. -/
def Computes (t t' : MerkleTree) : Prop := t'.leafHashes = t.leafHashes ∧ t'.Sound sha256

theorem remember_sound {t : MerkleTree} {lo hi : ℕ} (ht : t.Sound sha256) :
    (t.remember (lo, hi) (subtree sha256 t.leafHashes lo hi)).Sound sha256 := by
  intro lo' hi' r h h1 h2
  simp only [remember, List.lookup_cons] at h
  split at h
  · next heq =>
    obtain ⟨rfl, rfl⟩ : lo' = lo ∧ hi' = hi := by simpa using heq
    exact (Option.some.inj h).symm
  · exact ht lo' hi' r h h1 h2

/-- With fuel for the width of the range, `_mth` returns the subtree hash. -/
theorem mth_spec (fuel : ℕ) : ∀ (lo hi : ℕ) (t : MerkleTree), t.Sound sha256 → lo < hi →
    hi ≤ t.leafHashes.length → hi - lo ≤ fuel →
    ∃ t', mth sha256 fuel lo hi t = .ok (subtree sha256 t.leafHashes lo hi, t') ∧
      Computes sha256 t t' := by
  induction fuel with
  | zero => intro lo hi t _ h1 _ h3; omega
  | succ fuel ih =>
    intro lo hi t ht h1 h2 h3
    rw [mth]
    split
    · next r hr =>
      refine ⟨t, ?_, rfl, ht⟩
      rw [ht lo hi r hr h1 h2]
    · by_cases hn : hi - lo = 1
      · obtain rfl : hi = lo + 1 := by omega
        refine ⟨t.remember (lo, lo + 1) (subtree sha256 t.leafHashes lo (lo + 1)), ?_, rfl,
          remember_sound sha256 ht⟩
        rw [subtree_leaf sha256 (by omega)]
        simp [show lo < t.leafHashes.length by omega]
      · have hk := HashTree.split_lt (n := hi - lo) (by omega)
        have hk0 := HashTree.split_pos (hi - lo)
        rw [← largestPow2Lt_eq (by omega)] at hk hk0
        obtain ⟨t1, e1, hl1, hs1⟩ := ih lo (lo + largestPow2Lt (hi - lo)) t ht (by omega)
          (by omega) (by omega)
        obtain ⟨t2, e2, hl2, hs2⟩ := ih (lo + largestPow2Lt (hi - lo)) hi t1 hs1 (by omega)
          (by rw [hl1]; omega) (by omega)
        rw [hl1] at e2 hl2
        refine ⟨t2.remember (lo, hi) (subtree sha256 t.leafHashes lo hi), ?_, hl2, ?_⟩
        · simp only [if_neg hn]
          rw [e1]
          simp only [bind, Except.bind]
          rw [e2, subtree_split sha256 lo hi (by omega) h2]
        · rw [← hl2]
          exact remember_sound sha256 hs2

theorem root_spec {t : MerkleTree} (ht : t.Sound sha256) (h : 0 < t.leafHashes.length) :
    ∃ t', t.root sha256 = .ok (HashTree.root (hashNode sha256) [] t.leafHashes, t') ∧
      Computes sha256 t t' := by
  obtain ⟨t', e, hc⟩ := mth_spec sha256 t.leafHashes.length 0 t.leafHashes.length t ht h le_rfl
    (by omega)
  refine ⟨t', ?_, hc⟩
  have hne : t.leafHashes.isEmpty = false := by
    rw [List.isEmpty_eq_false_iff]; exact List.length_pos_iff.mp h
  rw [root, hne, if_neg (by decide), e, subtree, slice_all]

theorem proof_spec (fuel : ℕ) : ∀ (m lo hi : ℕ) (t : MerkleTree), t.Sound sha256 → lo ≤ m →
    m < hi → hi ≤ t.leafHashes.length → hi - lo ≤ fuel →
    ∃ t', proof sha256 fuel m lo hi t =
        .ok (HashTree.path (hashNode sha256) [] (slice t.leafHashes lo hi) (m - lo), t') ∧
      Computes sha256 t t' := by
  induction fuel with
  | zero => intro m lo hi t _ h0 h1 _ h3; omega
  | succ fuel ih =>
    intro m lo hi t ht h0 h1 h2 h3
    have hlen : (slice t.leafHashes lo hi).length = hi - lo := slice_length h2
    rw [proof, HashTree.path]
    by_cases hn : hi - lo ≤ 1
    · simp only [if_pos hn, hlen]
      exact ⟨t, by simp [hn], rfl, ht⟩
    · have hk := HashTree.split_lt (n := hi - lo) (by omega)
      have hk0 := HashTree.split_pos (hi - lo)
      have hsplit : largestPow2Lt (hi - lo) = split (hi - lo) := largestPow2Lt_eq (by omega)
      simp only [if_neg hn, hlen, dif_neg hn, hsplit]
      rw [slice_take (by omega), slice_drop]
      by_cases hm : m < lo + split (hi - lo)
      · obtain ⟨t1, e1, hl1, hs1⟩ := ih m lo (lo + split (hi - lo)) t ht h0 hm (by omega) (by omega)
        obtain ⟨t2, e2, hl2, hs2⟩ := mth_spec sha256 (hi - lo) (lo + split (hi - lo)) hi t1 hs1
          (by omega) (by rw [hl1]; omega) (by omega)
        refine ⟨t2, ?_, hl2.trans hl1, hs2⟩
        rw [if_pos hm, if_pos (by omega), e1]
        simp only [bind, Except.bind]
        rw [e2, hl1]
        rfl
      · obtain ⟨t1, e1, hl1, hs1⟩ := ih m (lo + split (hi - lo)) hi t ht (by omega) h1 h2 (by omega)
        obtain ⟨t2, e2, hl2, hs2⟩ := mth_spec sha256 (hi - lo) lo (lo + split (hi - lo)) t1 hs1
          (by omega) (by rw [hl1]; omega) (by omega)
        refine ⟨t2, ?_, hl2.trans hl1, hs2⟩
        rw [if_neg hm, if_neg (by omega), e1]
        simp only [bind, Except.bind]
        rw [e2, hl1, Nat.sub_sub]
        rfl

theorem inclusionProof_spec {t : MerkleTree} (ht : t.Sound sha256) {i : ℕ}
    (hi : i < t.leafHashes.length) :
    ∃ t', t.inclusionProof sha256 i =
        .ok (HashTree.path (hashNode sha256) [] t.leafHashes i, t') ∧ Computes sha256 t t' := by
  obtain ⟨t', e, hc⟩ := proof_spec sha256 t.leafHashes.length i 0 t.leafHashes.length t ht
    (Nat.zero_le i) hi le_rfl (by omega)
  refine ⟨t', ?_, hc⟩
  rw [inclusionProof, if_neg (by omega), Int.toNat_natCast, e, slice_all, Nat.sub_zero]

/-- An index outside the tree is refused. -/
theorem inclusionProof_out {t : MerkleTree} {i : ℤ}
    (hi : ¬ (0 ≤ i ∧ i < t.leafHashes.length)) :
    ∃ msg, t.inclusionProof sha256 i = .error (.indexError (some msg)) := by
  rw [inclusionProof, if_pos (by omega)]
  exact ⟨_, rfl⟩

/-! ## Runs -/

/-- The leaf hashes in the tree are those of the leaves appended so far. -/
structure Holds (t : MerkleTree) (leaves : List Bytes) : Prop where
  leaf_hashes : t.leafHashes = leaves.map (hashLeaf sha256)
  sound : t.Sound sha256

theorem Holds.computes {t t' : MerkleTree} {leaves : List Bytes} (h : t.Holds sha256 leaves)
    (hc : Computes sha256 t t') : t'.Holds sha256 leaves :=
  ⟨hc.1.trans h.leaf_hashes, hc.2⟩

theorem init_holds : init.Holds sha256 [] := by
  refine ⟨rfl, ?_⟩
  intro lo hi r h
  simp [init] at h

theorem call_holds {t : MerkleTree} {leaves : List Bytes} (h : t.Holds sha256 leaves) (c : Call) :
    (t.call sha256 c).Holds sha256 (leaves ++ appended [c]) := by
  cases c with
  | append leaf =>
    refine ⟨by simp [call, append, appended, h.leaf_hashes], ?_⟩
    intro lo hi r hr
    simp [call, append] at hr
  | root =>
    simp only [appended, List.filterMap_cons_none, List.filterMap_nil, List.append_nil, call]
    by_cases h0 : t.leafHashes.isEmpty = true
    · simp only [root, if_pos h0]
      exact h
    · obtain ⟨t', e, hc⟩ := root_spec sha256 h.sound
        (List.length_pos_iff.mpr (by simpa using h0))
      rw [e]
      exact h.computes sha256 hc
  | inclusionProof i =>
    simp only [appended, List.filterMap_cons_none, List.filterMap_nil, List.append_nil, call]
    by_cases hi : 0 ≤ i ∧ i < t.leafHashes.length
    · obtain ⟨i, rfl⟩ := Int.eq_ofNat_of_zero_le hi.1
      obtain ⟨t', e, hc⟩ := inclusionProof_spec sha256 h.sound (i := i) (by omega)
      rw [e]
      exact h.computes sha256 hc
    · obtain ⟨msg, e⟩ := inclusionProof_out sha256 hi
      rw [e]
      exact h

theorem run_holds (calls : List Call) : (run sha256 calls).Holds sha256 (appended calls) := by
  induction calls using List.reverseRecOn with
  | nil => exact init_holds sha256
  | append_singleton calls c ih =>
    have := call_holds sha256 ih c
    rw [run, List.foldl_append, List.foldl_cons, List.foldl_nil, appended, List.filterMap_append]
    exact this

end MerkleTree

end Provenex.Merkle
