import Provenex.Proofs.Canonical
import Provenex.Proofs.LogCrash

/-! The log only grows. Whatever is called, and wherever a call fails or the process
stops, a head that was once given out is the head of the first leaves of every later
log, and a proof that was given out proves its leaf against that head. -/

namespace Provenex.Merkle

open HashTree (treePairs)

section

variable (sha256 : Bytes → Bytes)

/-- The Merkle tree hash of the leaves. -/
def head (leaves : List Bytes) : Bytes :=
  if leaves.isEmpty then sha256 []
  else HashTree.root (hashNode sha256) [] (leaves.map (hashLeaf sha256))

variable {sha256} {leaves leaves' : List Bytes}

theorem root_holds {t : MerkleTree} (h : t.Holds sha256 leaves) :
    ∃ t', t.root sha256 = .ok (head sha256 leaves, t') ∧ t'.Holds sha256 leaves := by
  by_cases h0 : leaves.isEmpty = true
  · have hl : t.leafHashes.isEmpty = true := by
      rw [h.leaf_hashes, List.isEmpty_map, h0]
    exact ⟨t, by rw [MerkleTree.root, if_pos hl, head, if_pos h0], h⟩
  · have hl : 0 < t.leafHashes.length := by
      rw [h.leaf_hashes, List.length_map]
      exact List.length_pos_iff.mpr (by simpa using h0)
    obtain ⟨t', e, hc⟩ := MerkleTree.root_spec sha256 h.sound hl
    exact ⟨t', by rw [e, head, if_neg h0, h.leaf_hashes], h.computes sha256 hc⟩

/-- Two byte strings, one of each list, that have one digest. -/
def Collide (sha256 : Bytes → Bytes) (inputs inputs' : List Bytes) : Prop :=
  ∃ a ∈ inputs, ∃ b ∈ inputs', a ≠ b ∧ sha256 a = sha256 b

/-- The head of a log of known size binds its leaves. -/
theorem head_inj (hlen : ∀ b, (sha256 b).length = 32) (hsize : leaves.length = leaves'.length)
    (h : head sha256 leaves = head sha256 leaves') :
    leaves = leaves' ∨ Collide sha256 (treeInputs sha256 leaves) (treeInputs sha256 leaves') := by
  rw [or_iff_not_imp_right]
  intro hno
  have hinj : ∀ a ∈ treeInputs sha256 leaves, ∀ b ∈ treeInputs sha256 leaves',
      sha256 a = sha256 b → a = b :=
    fun a ha b hb hab => by_contra fun hne => hno ⟨a, ha, b, hb, hne, hab⟩
  rcases List.eq_nil_or_concat' leaves with rfl | ⟨init, last, rfl⟩
  · exact (List.length_eq_zero_iff.mp hsize.symm).symm
  · have hne : leaves' ≠ [] := by
      rintro rfl
      simp at hsize
    rw [head, head, if_neg (by simp), if_neg (by simpa using hne)] at h
    have hdigest (l : List Bytes) : ∀ q ∈ treePairs (hashNode sha256) [] (l.map (hashLeaf sha256)),
        q.1.length = 32 ∧ q.2.length = 32 :=
      HashTree.treePairs_of (P := fun d => d.length = 32) _ [] (fun _ _ => hlen _)
        (by simp [hashLeaf, hlen])
    have hhashes := HashTree.root_inj (hashNode sha256) [] (by simpa using hsize)
      (fun p hp q hq hpq => by
        have hin : nodeInput p = nodeInput q :=
          hinj _ (List.mem_append_right _ (List.mem_map_of_mem hp)) _
            (List.mem_append_right _ (List.mem_map_of_mem hq)) hpq
        have hlens := (hdigest _ p hp).1.trans (hdigest _ q hq).1.symm
        exact Prod.ext_iff.mpr (List.append_inj (List.cons.inj hin).2 hlens)) h
    refine List.ext_getElem hsize fun i hi hi' => ?_
    have hleaf := congrArg (·[i]?) hhashes
    simp only [List.getElem?_map, List.getElem?_eq_getElem hi, List.getElem?_eq_getElem hi',
      Option.map_some, Option.some.injEq] at hleaf
    have hin := hinj _ (List.mem_append_left _ (List.mem_map_of_mem (List.getElem_mem hi))) _
      (List.mem_append_left _ (List.mem_map_of_mem (List.getElem_mem hi'))) hleaf
    exact (List.cons.inj hin).2

/-- What the verifier accepts against the head of a log is the leaf in that place. -/
theorem accepted_leaf (hlen : ∀ b, (sha256 b).length = 32) {leaf : Bytes} {i : ℤ} {p : List Bytes}
    (h : verifyInclusionProof sha256 leaf i leaves.length p (head sha256 leaves) = true) :
    ∃ n : ℕ, i = n ∧ (leaves[n]? = some leaf ∨
      Collide sha256 (treeInputs sha256 leaves ++ verifierInputs sha256 leaf n leaves.length p)
        (treeInputs sha256 leaves ++ verifierInputs sha256 leaf n leaves.length p)) := by
  have hrange : ¬ ((leaves.length : ℤ) ≤ 0 ∨ i < 0 ∨ i ≥ leaves.length) := fun hout => by
    rw [verifyInclusionProof, if_pos hout] at h
    cases h
  obtain ⟨n, rfl⟩ := Int.eq_ofNat_of_zero_le (a := i) (by omega)
  refine ⟨n, rfl, ?_⟩
  rw [or_iff_not_imp_right]
  intro hno
  have hinj : Set.InjOn sha256 {b | b ∈ treeInputs sha256 leaves ∨
      b ∈ verifierInputs sha256 leaf n leaves.length p} :=
    fun a ha b hb hab => by_contra fun hne =>
      hno ⟨a, List.mem_append.mpr ha, b, List.mem_append.mpr hb, hne, hab⟩
  have hne : ¬ leaves.isEmpty = true := by
    rw [List.isEmpty_iff_length_eq_zero]
    omega
  rw [head, if_neg hne] at h
  exact ((verify_iff sha256 hlen (by omega) hinj).mp h).1

end

end Provenex.Merkle

namespace Provenex.MerkleSqlite

open Steps
open Merkle (MerkleTree verifyInclusionProof)
open Sqlite (AddArgs FingerprintRow)

section

variable {py : Stdlib} {secret : Bytes} {s s' : Index} {l : LeafRow} {a : AddArgs}
  {leaves : List LeafRow}

/-- The head of a log. -/
def headOf (py : Stdlib) (leaves : List LeafRow) : String :=
  hex (Merkle.head py.sha256 (leaves.map (·.leafBytes)))

/-! ## What a failure leaves of the log -/

/-- The leaf is the payload of a row of its fingerprint. -/
def Signed (l : LeafRow) : Prop :=
  ∃ r : FingerprintRow, r.fingerprint = l.fingerprint ∧ r.payload = .ok l.leafBytes

/-- The memory holds these leaves, and the map leads into them. -/
structure Remembers (py : Stdlib) (tree : MerkleTree) (byFp : List (String × ℤ))
    (leaves : List LeafRow) : Prop where
  holds : tree.Holds py.sha256 (leaves.map (·.leafBytes))
  noted : ∀ fp i, byFp.lookup fp = some i → ∃ l ∈ leaves, l.fingerprint = fp ∧ l.leafIndex = i

/-- The table may be ahead of what is durable, and that ahead of what is in memory; in each, the
leaves are numbered from zero. -/
structure Held (py : Stdlib) (s : Index) : Prop where
  contiguous : Contiguous s.leaves
  signed : ∀ l ∈ s.leaves, Signed l
  saved : s.durableLeaves <+: s.leaves
  memory : ∃ leaves, leaves <+: s.durableLeaves ∧ Remembers py s.tree s.leafIndexByFp leaves

/-- What was durable stays, and so does what was in the tree. -/
structure Grows (s s' : Index) : Prop where
  durable : s.durableLeaves <+: s'.durableLeaves
  tree : s.tree.leafHashes <+: s'.tree.leafHashes

theorem Grows.refl (s : Index) : Grows s s := ⟨List.prefix_refl _, List.prefix_refl _⟩

theorem Grows.trans {a b c : Index} (h1 : Grows a b) (h2 : Grows b c) : Grows a c :=
  ⟨h1.durable.trans h2.durable, h1.tree.trans h2.tree⟩

theorem contiguous_of_isPrefix (h : Contiguous s.leaves) (hp : leaves <+: s.leaves) :
    Contiguous leaves := by
  obtain ⟨rest, hrest⟩ := hp
  have htake := congrArg (List.take leaves.length) h
  rw [← hrest, List.map_append, List.take_left' (List.length_map _), ← List.map_take,
    List.take_range] at htake
  rw [Contiguous, htake, List.length_append, Nat.min_eq_left (Nat.le_add_right ..)]

theorem Remembers.size {tree : MerkleTree} {byFp : List (String × ℤ)}
    (h : Remembers py tree byFp leaves) : tree.size = leaves.length := by
  rw [MerkleTree.size, h.holds.leaf_hashes, List.length_map, List.length_map]

theorem remembers_rebuild (h : Contiguous leaves) :
    Remembers py (rebuild py leaves).1 (rebuild py leaves).2 leaves := by
  refine ⟨rebuild_holds h, fun fp i hi => ?_⟩
  rw [rebuild_lookup h] at hi
  obtain ⟨l, hl, rfl⟩ := Option.map_eq_some_iff.mp hi
  have hmem := List.mem_of_getLast? hl
  exact ⟨l, List.mem_of_mem_filter hmem, by simpa using (List.mem_filter.mp hmem).2, rfl⟩

/-- An index that is opened on the durable leaves. -/
theorem Held.reopen (h : Held py s) : Held py (s.reopen py) ∧ Grows s (s.reopen py) := by
  have hcont := contiguous_of_isPrefix h.contiguous h.saved
  obtain ⟨leaves, hleaves, hmem⟩ := h.memory
  refine ⟨⟨hcont, fun l hl => h.signed l (h.saved.subset hl), List.prefix_refl _,
    s.durableLeaves, List.prefix_refl _, remembers_rebuild hcont⟩, List.prefix_refl _, ?_⟩
  rw [hmem.holds.leaf_hashes]
  refine List.IsPrefix.trans ((hleaves.map _).map _) ?_
  have hrebuilt : (rebuild py s.durableLeaves).1.Holds py.sha256
      (s.durableLeaves.map (·.leafBytes)) := rebuild_holds hcont
  rw [← hrebuilt.leaf_hashes]
  exact List.prefix_refl _

/-! ## The steps -/

/-- A step of the parent writes no leaf; its commit makes durable what is in the table. -/
theorem Held.base (h : Held py s) {st : Sqlite.Step} (hs : Step.run py s (.base st) = .ok s') :
    Held py s' ∧ Grows s s' := by
  obtain ⟨leaves, hleaves, hmem⟩ := h.memory
  cases st with
  | execute stmt =>
    obtain rfl := Except.ok.inj hs
    exact ⟨⟨h.contiguous, h.signed, h.saved, leaves, hleaves, hmem⟩, List.prefix_refl _,
      List.prefix_refl _⟩
  | raise e => cases hs
  | commit =>
    obtain rfl := Except.ok.inj hs
    exact ⟨⟨h.contiguous, h.signed, List.prefix_refl _, leaves, hleaves.trans h.saved, hmem⟩,
      h.saved, List.prefix_refl _⟩

theorem Held.bases (h : Held py s) (steps : List Sqlite.Step) :
    Held py (execute (Step.run py) s (steps.map .base)).2 ∧
      Grows s (execute (Step.run py) s (steps.map .base)).2 := by
  refine execute_invariant (fun s' => Held py s' ∧ Grows s s') ?_ ⟨h, Grows.refl s⟩
  intro m st hst m' hm hrun
  obtain ⟨st, -, rfl⟩ := List.mem_map.mp hst
  have hnext := hm.1.base hrun
  exact ⟨hnext.1, hm.2.trans hnext.2⟩

/-- If the number of the next leaf is free, table, disk and memory hold the same leaves. -/
theorem Held.free (h : Held py s) (hl : l.leafIndex = s.tree.size)
    (hfree : (s.leaves.any fun x => x.leafIndex = l.leafIndex) = false) :
    s.durableLeaves = s.leaves ∧ Remembers py s.tree s.leafIndexByFp s.leaves ∧
      l.leafIndex = s.leaves.length := by
  obtain ⟨leaves, hleaves, hmem⟩ := h.memory
  have hle : s.leaves.length ≤ leaves.length := by
    by_contra hlt
    rw [not_le] at hlt
    have hat := contiguous_get h.contiguous (List.getElem?_eq_getElem hlt)
    have := List.any_eq_false.mp hfree _ (List.getElem_mem hlt)
    rw [hat, hl, hmem.size] at this
    simp at this
  obtain rfl := (hleaves.trans h.saved).eq_of_length_le hle
  have hsaved := h.saved.eq_of_length_le hleaves.length_le
  exact ⟨hsaved, hmem, by rw [hl, hmem.size]⟩

/-- The steps on the log, as far as they are taken. -/
theorem Held.logs (h : Held py s) (hl : l.leafIndex = s.tree.size) (hsigned : Signed l) (k : ℕ) :
    Held py (execute (Step.run py) s
        ([Step.insertLeaf l, .base .commit, .appendLeaf l, .noteIndex l].take k)).2 ∧
      Grows s (execute (Step.run py) s
        ([Step.insertLeaf l, .base .commit, .appendLeaf l, .noteIndex l].take k)).2 := by
  rcases k with _ | k
  · exact ⟨h, Grows.refl s⟩
  rw [List.take_succ_cons]
  cases hfree : s.leaves.any fun x => x.leafIndex = l.leafIndex with
  | true =>
    rw [execute_cons_error (by rw [Step.run, hfree]; rfl)]
    exact ⟨h, Grows.refl s⟩
  | false =>
    obtain ⟨hsaved, hmem, hindex⟩ := h.free hl hfree
    have hcont := contiguous_snoc h.contiguous hindex
    have hall : ∀ x ∈ s.leaves ++ [l], Signed x := by
      intro x hx
      rcases List.mem_append.mp hx with hx | hx
      · exact h.signed x hx
      · rw [List.mem_singleton.mp hx]
        exact hsigned
    have hgrown : s.durableLeaves <+: s.leaves ++ [l] := hsaved ▸ List.prefix_append _ _
    have hholds : (s.tree.append py.sha256 l.leafBytes).2.Holds py.sha256
        ((s.leaves ++ [l]).map (·.leafBytes)) := by
      rw [List.map_append]
      exact MerkleTree.call_holds py.sha256 hmem.holds (.append l.leafBytes)
    have hold : ∀ fp i, s.leafIndexByFp.lookup fp = some i →
        ∃ x ∈ s.leaves ++ [l], x.fingerprint = fp ∧ x.leafIndex = i := fun fp i hi => by
      obtain ⟨x, hx, hxl⟩ := hmem.noted fp i hi
      exact ⟨x, List.mem_append_left _ hx, hxl⟩
    rw [execute_cons_ok (by rw [Step.run, hfree]; rfl)]
    -- inserted, committed, in the tree, in the map
    rcases k with _ | _ | _ | k
    · exact ⟨⟨hcont, hall, hgrown, s.leaves, hsaved ▸ List.prefix_refl _, hmem⟩,
        List.prefix_refl _, List.prefix_refl _⟩
    · exact ⟨⟨hcont, hall, List.prefix_refl _, s.leaves, List.prefix_append _ _, hmem⟩, hgrown,
        List.prefix_refl _⟩
    · exact ⟨⟨hcont, hall, List.prefix_refl _, _, List.prefix_refl _, hholds, hold⟩, hgrown,
        List.prefix_append _ _⟩
    · rw [List.take_of_length_le (by simp)]
      refine ⟨⟨hcont, hall, List.prefix_refl _, _, List.prefix_refl _, hholds, fun fp i hi => ?_⟩,
        hgrown, List.prefix_append _ _⟩
      have hput : (Rows.put Prod.fst s.leafIndexByFp (l.fingerprint, l.leafIndex)).lookup fp =
          some i := hi
      rw [Rows.lookup_put] at hput
      split_ifs at hput with hfp
      · exact ⟨l, List.mem_append_right _ (List.mem_singleton_self l), hfp.symm, Option.some.inj hput⟩
      · exact hold fp i hput

/-- The leaf of the row that is read back. -/
theorem newLeaf_ok (h : s.newLeaf a = .ok l) :
    l.leafIndex = s.tree.size ∧ l.fingerprint = a.fingerprint ∧ Signed l := by
  unfold Index.newLeaf at h
  split at h
  · cases h
  · next row hfind =>
    obtain ⟨leafBytes, hpay, rfl⟩ := Guard.map_ok.mp h
    have hkey : row.key = a.key := by simpa using List.find?_some hfind
    exact ⟨rfl, rfl, row, congrArg Prod.fst hkey, hpay⟩

/-- A call that is stopped after so many of its steps. -/
theorem Held.stopped (h : Held py s) (call : Sqlite.Op) (k : ℕ) :
    Held py (s.stopped py secret call k) ∧ Grows s (s.stopped py secret call k) := by
  rw [Index.stopped]
  cases call with
  | setAuthorization d authorized =>
    rw [Index.callSteps, ← List.map_take]
    · exact h.bases _
    · intro now a hadd
      cases hadd
  | supersede d v =>
    rw [Index.callSteps, ← List.map_take]
    · exact h.bases _
    · intro now a hadd
      cases hadd
  | add now a =>
    have hparent := h.bases (Sqlite.addSteps py secret s.conn.tables now a)
    rw [Index.callSteps, Index.addSteps, Index.parentSteps]
    cases hrun : execute (Step.run py) s ((Sqlite.addSteps py secret s.conn.tables now a).map .base) with
    | mk result m =>
      rw [hrun] at hparent
      cases result with
      | error e =>
        rw [← List.map_take]
        exact h.bases _
      | ok u =>
        -- the parent's steps, and those of the log on what they left
        simp only
        rcases Nat.le_total k ((Sqlite.addSteps py secret s.conn.tables now a).map Step.base).length
          with hk | hk
        · rw [List.take_append_of_le_length hk, ← List.map_take]
          exact h.bases _
        · obtain ⟨j, rfl⟩ := Nat.exists_eq_add_of_le hk
          rw [List.take_length_add_append, execute_append hrun]
          have hlog : Held py (execute (Step.run py) m
              ((if s.existed a.key then [] else m.leafSteps a).take j)).2 ∧
              Grows m (execute (Step.run py) m
                ((if s.existed a.key then [] else m.leafSteps a).take j)).2 := by
            split_ifs
            · rw [List.take_nil]
              exact ⟨hparent.1, Grows.refl m⟩
            · unfold Index.leafSteps
              cases hnew : m.newLeaf a with
              | error e =>
                have hone := hparent.1.bases ([Sqlite.Step.raise e].take j)
                rw [List.map_take] at hone
                exact hone
              | ok leaf =>
                obtain ⟨hindex, -, hsigned⟩ := newLeaf_ok hnew
                exact hparent.1.logs hindex hsigned j
          exact ⟨hlog.1, hparent.2.trans hlog.2⟩

theorem stopped_all (s : Index) (call : Sqlite.Op) :
    apply py secret s (.call call) =
      s.stopped py secret call (s.callSteps py secret call).length := by
  rw [Index.stopped, List.take_length]
  cases call with
  | add now a => rfl
  | setAuthorization d authorized => rfl
  | supersede d v => rfl

theorem Held.after (h : Held py s) (e : Event) :
    Held py (e.after py secret s) ∧ Grows s (e.after py secret s) := by
  cases e with
  | op o =>
    cases o with
    | call op =>
      rw [Event.after, stopped_all]
      exact h.stopped op _
    | reopen => exact h.reopen
  | failed call k => exact h.stopped call k
  | stopped call k =>
    have hs : Held py (s.stopped py secret call k) ∧ Grows s (s.stopped py secret call k) :=
      h.stopped call k
    have hr := hs.1.reopen
    exact ⟨hr.1, hs.2.trans hr.2⟩

/-! ## Reading -/

/-- The bytes in memory, which the head is made of. -/
def Index.logged (s : Index) : List Bytes := (s.durableLeaves.take s.tree.size).map (·.leafBytes)

theorem Held.logged_length (h : Held py s) : s.logged.length = s.tree.size := by
  obtain ⟨leaves, hleaves, hmem⟩ := h.memory
  rw [Index.logged, hmem.size, ← List.prefix_iff_eq_take.mp hleaves, List.length_map]

/-- A leaf in memory is durable, in its place. -/
theorem Held.logged_leaf (h : Held py s) {n : ℕ} {leaf : Bytes} (hn : s.logged[n]? = some leaf) :
    ∃ l, s.durableLeaves[n]? = some l ∧ l.leafIndex = n ∧ l.leafBytes = leaf ∧ Signed l := by
  rw [Index.logged, List.getElem?_map] at hn
  obtain ⟨l, hl, rfl⟩ := Option.map_eq_some_iff.mp hn
  have hlt := (List.getElem?_eq_some_iff.mp hl).1
  have hget {rest : List LeafRow} (hp : s.durableLeaves.take s.tree.size <+: rest) :
      rest[n]? = some l := by
    rw [List.prefix_iff_getElem?.mp hp n hlt, ← List.getElem?_eq_getElem hlt, hl]
  have htable := hget ((List.take_prefix _ _).trans h.saved)
  exact ⟨l, hget (List.take_prefix _ _), contiguous_get h.contiguous htable, rfl,
    h.signed l (List.mem_of_getElem? htable)⟩

/-- The head is the one over the leaves in memory. -/
theorem Held.treeRoot (h : Held py s) : ∃ s₁, s.treeRoot py =
      .ok (headOf py (s.durableLeaves.take s.tree.size), s₁) ∧
    Held py s₁ ∧ Grows s s₁ := by
  obtain ⟨leaves, hleaves, hmem⟩ := h.memory
  obtain ⟨t, hroot, ht⟩ := Merkle.root_holds hmem.holds
  refine ⟨{ s with tree := t }, ?_, ?_, List.prefix_refl _, ?_⟩
  · rw [Index.treeRoot, hroot, hmem.size, ← List.prefix_iff_eq_take.mp hleaves]
    rfl
  · exact ⟨h.contiguous, h.signed, h.saved, leaves, hleaves, ht, hmem.noted⟩
  · rw [hmem.holds.leaf_hashes, ← ht.leaf_hashes]

/-- What `inclusion_proof` returns, if it returns. -/
theorem Held.inclusionProof (h : Held py s) {fp : String} {leaf : Bytes} {i : ℤ}
    {proof : List String} {s₁ : Index} (hproof : s.inclusionProof py fp = .ok ((leaf, i, proof), s₁)) :
    (Held py s₁ ∧ Grows s s₁) ∧ ∃ (n : ℕ) (path : List Bytes), i = n ∧ n < s.tree.size ∧
      s.durableLeaves[n]? = some ⟨i, fp, leaf⟩ ∧ proof = path.map hex ∧
      verifyInclusionProof py.sha256 leaf i s.tree.size path
        (Merkle.head py.sha256 ((s.durableLeaves.take s.tree.size).map (·.leafBytes))) = true := by
  obtain ⟨leaves, hleaves, hmem⟩ := h.memory
  unfold Index.inclusionProof at hproof
  split at hproof
  · cases hproof
  · next leafIndex hlookup =>
    obtain ⟨l, hl, hfp, rfl⟩ := hmem.noted _ _ hlookup
    obtain ⟨n, hlt, hn⟩ := List.mem_iff_getElem.mp hl
    have hget {rest : List LeafRow} (hp : leaves <+: rest) : rest[n]? = some l := by
      rw [List.prefix_iff_getElem?.mp hp n hlt, hn]
    have htable := hget (hleaves.trans h.saved)
    obtain hindex := contiguous_get h.contiguous htable
    have hhash : s.tree.leafHashes.length = leaves.length := by
      rw [hmem.holds.leaf_hashes, List.length_map, List.length_map]
    obtain ⟨t, hpath, hc⟩ := Merkle.MerkleTree.inclusionProof_spec py.sha256 hmem.holds.sound
      (i := n) (by omega)
    rw [hindex] at hproof
    simp only [hpath, contiguous_find h.contiguous htable, bind, Except.bind] at hproof
    injection hproof with hproof
    simp only [Prod.mk.injEq] at hproof
    obtain ⟨⟨rfl, rfl, rfl⟩, rfl⟩ := hproof
    refine ⟨⟨⟨h.contiguous, h.signed, h.saved, leaves, hleaves, hmem.holds.computes py.sha256 hc,
      hmem.noted⟩, List.prefix_refl _, hc.1 ▸ List.prefix_refl _⟩, n, _, rfl, ?_, ?_, rfl, ?_⟩
    · rw [hmem.size]
      exact hlt
    · rw [hget hleaves, ← hfp, ← hindex]
    · have hleaf : (leaves.map (·.leafBytes))[n]? = some l.leafBytes := by simp [hlt, hn]
      have hverify := Merkle.verify_path py.sha256 hleaf
      have hne : leaves ≠ [] := List.ne_nil_of_length_pos (by omega)
      rw [List.length_map] at hverify
      rw [hmem.size, ← List.prefix_iff_eq_take.mp hleaves, Merkle.head, if_neg (by simpa using hne),
        hmem.holds.leaf_hashes]
      exact hverify

theorem Held.access (h : Held py s) (x : Access) :
    Held py (x.after py secret s) ∧ Grows s (x.after py secret s) := by
  cases x with
  | event e => exact h.after e
  | treeRoot =>
    obtain ⟨s₁, hroot, hs⟩ := h.treeRoot
    rw [Access.after, hroot]
    exact hs
  | inclusionProof fp =>
    rw [Access.after]
    cases hproof : s.inclusionProof py fp with
    | error e => exact ⟨h, Grows.refl s⟩
    | ok r =>
      obtain ⟨⟨leaf, i, proof⟩, s₁⟩ := r
      exact (h.inclusionProof hproof).1

/-! ## Runs -/

theorem Held.accesses (h : Held py s) (accesses : List Access) :
    Held py (accesses.foldl (Access.after py secret) s) ∧
      Grows s (accesses.foldl (Access.after py secret) s) := by
  induction accesses generalizing s with
  | nil => exact ⟨h, Grows.refl s⟩
  | cons x accesses ih =>
    have hx : Held py (x.after py secret s) ∧ Grows s (x.after py secret s) := h.access x
    have hrest := ih hx.1
    exact ⟨hrest.1, hx.2.trans hrest.2⟩

theorem init_held : Held py (.init py) :=
  ⟨rfl, by simp [Index.init, opened], List.prefix_refl _, [], List.prefix_refl _,
    remembers_rebuild rfl⟩

variable (py secret) in
theorem accessed_held (accesses : List Access) : Held py (accessed py secret accesses) :=
  (init_held.accesses accesses).1

variable (py secret) in
theorem accessed_grows (before after : List Access) :
    Grows (accessed py secret before) (accessed py secret (before ++ after)) := by
  rw [accessed, accessed, List.foldl_append]
  exact ((accessed_held py secret before).accesses after).2

/-- The leaves that a log had in memory are the first ones of every later log. -/
theorem first_leaves (before after : List Access) :
    (accessed py secret (before ++ after)).durableLeaves.take
        (accessed py secret before).tree.size =
      (accessed py secret before).durableLeaves.take (accessed py secret before).tree.size := by
  obtain ⟨leaves, hleaves, hmem⟩ := (accessed_held py secret before).memory
  have hgrows := (accessed_grows py secret before after).durable
  rw [hmem.size, ← List.prefix_iff_eq_take.mp hleaves,
    ← List.prefix_iff_eq_take.mp (hleaves.trans hgrows)]

/-- The log is append-only. Whatever calls, failures, stops and restarts have come before and come
after, no leaf is moved or lost, the tree does not shrink, the head that could be read in between
is the head of the first leaves of the later log, and every proof that could be had in between
proves a leaf, which the later log has in that place, against that head. -/
theorem log_append_only (py : Stdlib) (secret : Bytes) (before after : List Access) :
    let s := accessed py secret before
    let later := accessed py secret (before ++ after)
    s.durableLeaves <+: later.durableLeaves ∧ s.treeSize ≤ later.treeSize ∧
      later.tree.size ≤ later.durableLeaves.length ∧
      (∃ s₁, s.treeRoot py = .ok (headOf py (later.durableLeaves.take s.tree.size), s₁)) ∧
      ∀ fp leaf i proof s₁, s.inclusionProof py fp = .ok ((leaf, i, proof), s₁) →
        ∃ (n : ℕ) (path : List Bytes), i = n ∧ n < s.tree.size ∧
          later.durableLeaves[n]? = some ⟨i, fp, leaf⟩ ∧ proof = path.map hex ∧
          verifyInclusionProof py.sha256 leaf i s.treeSize path (Merkle.head py.sha256
            ((later.durableLeaves.take s.tree.size).map (·.leafBytes))) = true := by
  intro s later
  have hs := accessed_held py secret before
  have hgrows := accessed_grows py secret before after
  refine ⟨hgrows.durable, ?_, ?_, ?_, ?_⟩
  · rw [Index.treeSize, Index.treeSize, MerkleTree.size, MerkleTree.size]
    exact_mod_cast hgrows.tree.length_le
  · obtain ⟨leaves, hleaves, hmem⟩ := (accessed_held py secret (before ++ after)).memory
    rw [hmem.size]
    exact hleaves.length_le
  · obtain ⟨s₁, hroot, -⟩ := hs.treeRoot
    rw [first_leaves]
    exact ⟨s₁, hroot⟩
  · intro fp leaf i proof s₁ hproof
    obtain ⟨-, n, path, hi, hn, hd, hpath, hverify⟩ := hs.inclusionProof hproof
    refine ⟨n, path, hi, hn, ?_, hpath, ?_⟩
    · have hlt := (List.getElem?_eq_some_iff.mp hd).1
      rw [List.prefix_iff_getElem?.mp hgrows.durable n hlt, ← List.getElem?_eq_getElem hlt, hd]
    · rw [first_leaves]
      exact hverify

/-! ## Two logs -/

/-- A leaf is known by its place and its bytes. -/
theorem signed_eq {l l' : LeafRow} (h : Signed l) (h' : Signed l') (hindex : l.leafIndex = l'.leafIndex)
    (hbytes : l.leafBytes = l'.leafBytes) : l = l' := by
  obtain ⟨r, hr, hpay⟩ := h
  obtain ⟨r', hr', hpay'⟩ := h'
  rw [← hbytes] at hpay'
  have hfp : l.fingerprint = l'.fingerprint := by
    rw [← hr, ← hr']
    exact congrArg Prod.fst (payload_key hpay hpay')
  rcases l with ⟨i, fp, b⟩
  rcases l' with ⟨i', fp', b'⟩
  simp only at hindex hbytes hfp
  rw [hindex, hbytes, hfp]

theorem leaves_eq {leaves leaves' : List LeafRow} (hc : Contiguous leaves) (hc' : Contiguous leaves')
    (hs : ∀ l ∈ leaves, Signed l) (hs' : ∀ l ∈ leaves', Signed l)
    (hbytes : leaves.map (·.leafBytes) = leaves'.map (·.leafBytes)) : leaves = leaves' := by
  have hlen : leaves.length = leaves'.length := by
    simpa using congrArg List.length hbytes
  refine List.ext_getElem hlen fun i hi hi' => ?_
  have hb := congrArg (·[i]?) hbytes
  simp only [List.getElem?_map, List.getElem?_eq_getElem hi, List.getElem?_eq_getElem hi',
    Option.map_some, Option.some.injEq] at hb
  refine signed_eq (hs _ (List.getElem_mem hi)) (hs' _ (List.getElem_mem hi')) ?_ hb
  rw [contiguous_get hc (List.getElem?_eq_getElem hi),
    contiguous_get hc' (List.getElem?_eq_getElem hi')]

theorem hex_inj {b b' : Bytes} (h : hex b = hex b') : b = b' := by
  have hlist := congrArg String.toList h
  rw [hex, hex, String.toList_append, String.toList_append] at hlist
  exact hexdigest_inj (String.toList_inj.mp (List.append_cancel_left hlist))

/-- Two logs, of whatever databases and keys, that at some time give out the same size and head
have the same leaves up to there at every later time, or two of the byte strings that were hashed
for them collide. -/
theorem same_head_same_leaves (py : Stdlib) (hlen : ∀ b, (py.sha256 b).length = 32)
    (secret secret' : Bytes) (before before' after after' : List Access) (root : String)
    (s₁ s₁' : Index) (hroot : (accessed py secret before).treeRoot py = .ok (root, s₁))
    (hroot' : (accessed py secret' before').treeRoot py = .ok (root, s₁'))
    (hsize : (accessed py secret before).treeSize = (accessed py secret' before').treeSize) :
    (accessed py secret (before ++ after)).durableLeaves.take (accessed py secret before).tree.size =
        (accessed py secret' (before' ++ after')).durableLeaves.take
          (accessed py secret' before').tree.size ∨
      Merkle.Collide py.sha256 (Merkle.treeInputs py.sha256 (accessed py secret before).logged)
        (Merkle.treeInputs py.sha256 (accessed py secret' before').logged) := by
  rw [first_leaves, first_leaves]
  have hs := accessed_held py secret before
  have hs' := accessed_held py secret' before'
  obtain ⟨_, h1, -⟩ := hs.treeRoot
  obtain ⟨_, h1', -⟩ := hs'.treeRoot
  have hhead := (Prod.mk.inj (Except.ok.inj (hroot.symm.trans h1))).1
  have hhead' := (Prod.mk.inj (Except.ok.inj (hroot'.symm.trans h1'))).1
  have htake {s : Index} (h : Held py s) : s.durableLeaves.take s.tree.size <+: s.leaves :=
    (List.take_prefix _ _).trans h.saved
  have hlength : (accessed py secret before).logged.length =
      (accessed py secret' before').logged.length := by
    rw [hs.logged_length, hs'.logged_length]
    exact Int.ofNat_inj.mp hsize
  rcases Merkle.head_inj hlen hlength (hex_inj (hhead.symm.trans hhead')) with hbytes | hcollide
  · exact .inl (leaves_eq (contiguous_of_isPrefix hs.contiguous (htake hs))
      (contiguous_of_isPrefix hs'.contiguous (htake hs'))
      (fun l hl => hs.signed l ((htake hs).subset hl))
      (fun l hl => hs'.signed l ((htake hs').subset hl)) hbytes)
  · exact .inr hcollide

end

namespace Sample

open Sqlite.Sample (secret)

/-- The two chunks in one process, with a head read in between. -/
def elsewhere : List Access :=
  [.event (.op (.call (.add "2024-01-01T00:00:00.000Z" first))), .treeRoot,
    .event (.op (.call (.add "2024-01-02T00:00:00.000Z"
      ⟨"sha256:bb", "doc", "sha256:02", 0, 5, true⟩)))]

def bothHead : String := hex bothLeaves

end Sample

open Sqlite.Sample (secret) in
theorem same_head_same_leaves_sample :
    (accessed Sample.py secret (Sample.history.map (.event ∘ .op) ++ [.treeRoot])).durableLeaves.take
        (accessed Sample.py secret (Sample.history.map (.event ∘ .op))).tree.size =
      (accessed Sample.py [7] (Sample.elsewhere ++ [.event (.op .reopen)])).durableLeaves.take
        (accessed Sample.py [7] Sample.elsewhere).tree.size ∨
    Merkle.Collide Sample.py.sha256
      (Merkle.treeInputs Sample.py.sha256
        (accessed Sample.py secret (Sample.history.map (.event ∘ .op))).logged)
      (Merkle.treeInputs Sample.py.sha256 (accessed Sample.py [7] Sample.elsewhere).logged) := by
  have hhead : ((accessed Sample.py secret (Sample.history.map (.event ∘ .op))).treeRoot
      Sample.py).map Prod.fst = .ok Sample.bothHead := by decide +kernel
  have hhead' : ((accessed Sample.py [7] Sample.elsewhere).treeRoot Sample.py).map Prod.fst =
      .ok Sample.bothHead := by decide +kernel
  obtain ⟨⟨root, s₁⟩, hroot, rfl : root = _⟩ := Guard.map_ok.mp hhead
  obtain ⟨⟨root', s₁'⟩, hroot', rfl : root' = _⟩ := Guard.map_ok.mp hhead'
  exact same_head_same_leaves Sample.py (Merkle.Sample.lookup_length (by decide)) secret [7]
    (Sample.history.map (.event ∘ .op)) Sample.elsewhere [.treeRoot] [.event (.op .reopen)] _ s₁ s₁'
    hroot hroot' (by decide +kernel)

end Provenex.MerkleSqlite
