import Provenex.Index.MerkleSqlite
import Provenex.Proofs.FailedAdd
import Provenex.Proofs.MerkleProof

/-! The log of the SQLite index. Its leaves are the rows in the order in which
they were inserted, and what is in memory is what the leaves on disk would be
rebuilt to. -/

namespace Provenex.MerkleSqlite

open Steps
open Merkle (MerkleTree verifyInclusionProof)
open Sqlite (AddArgs FingerprintRow Consistent)

/-! ## Memory -/

section

variable {py : Stdlib} {leaves : List LeafRow} {l : LeafRow}

/-- The indices count the leaves from zero. -/
def Contiguous (leaves : List LeafRow) : Prop :=
  leaves.map (·.leafIndex) = (List.range leaves.length).map fun n : ℕ => (n : ℤ)

theorem contiguous_snoc (h : Contiguous leaves) (hl : l.leafIndex = leaves.length) :
    Contiguous (leaves ++ [l]) := by
  rw [Contiguous, List.map_append, h, List.length_append, List.length_singleton, List.range_succ,
    List.map_append, List.map_singleton, hl]
  rfl

theorem contiguous_get (h : Contiguous leaves) {i : ℕ} (hl : leaves[i]? = some l) :
    l.leafIndex = i := by
  have hi : i < leaves.length := (List.getElem?_eq_some_iff.mp hl).1
  have := congrArg (·[i]?) h
  simp only [List.getElem?_map, hl, Option.map_some, List.getElem?_range hi] at this
  exact Option.some.inj this

/-- The table holds its leaves in the order of their indices. -/
theorem rebuild_eq (h : Contiguous leaves) :
    rebuild py leaves = leaves.foldl (remember py) (.init, []) := by
  have hsorted : leaves.Pairwise fun a b => a.leafIndex ≤ b.leafIndex := by
    have hmap : (leaves.map (·.leafIndex)).Pairwise (· ≤ ·) := by
      rw [h, List.pairwise_map]
      exact (List.pairwise_le_range).imp fun hab => by exact_mod_cast hab
    exact List.pairwise_map.mp hmap
  rw [rebuild, hsorted.insertionSort_eq]

theorem rebuild_snoc (h : Contiguous leaves) (hl : l.leafIndex = leaves.length) :
    rebuild py (leaves ++ [l]) = remember py (rebuild py leaves) l := by
  rw [rebuild_eq (contiguous_snoc h hl), rebuild_eq h, List.foldl_append]
  rfl

/-- The tree that is rebuilt is the one over the bytes of the leaves. -/
theorem rebuild_holds (h : Contiguous leaves) :
    (rebuild py leaves).1.Holds py.sha256 (leaves.map (·.leafBytes)) := by
  rw [rebuild_eq h]
  clear h
  induction leaves using List.reverseRecOn with
  | nil => exact Merkle.MerkleTree.init_holds py.sha256
  | append_singleton leaves l ih =>
    rw [List.foldl_append, List.map_append]
    exact Merkle.MerkleTree.call_holds py.sha256 ih (.append l.leafBytes)

/-- The map that is rebuilt leads to the last leaf of the fingerprint. -/
theorem rebuild_lookup (h : Contiguous leaves) (fp : String) :
    (rebuild py leaves).2.lookup fp =
      ((leaves.filter fun l => l.fingerprint = fp).getLast?).map (·.leafIndex) := by
  rw [rebuild_eq h]
  clear h
  induction leaves using List.reverseRecOn with
  | nil => rfl
  | append_singleton leaves l ih =>
    rw [List.foldl_append, List.foldl_cons, List.foldl_nil, remember, Rows.lookup_put, ih,
      List.filter_append]
    by_cases hfp : l.fingerprint = fp
    · simp [hfp]
    · simp [hfp, Ne.symm hfp]

end

/-! ## The invariant -/

/-- The leaves are the rows, one by one. -/
structure Logged (rows : List FingerprintRow) (leaves : List LeafRow) : Prop where
  contiguous : Contiguous leaves
  rows : List.Forall₂ (fun r l => l.fingerprint = r.fingerprint ∧ r.payload = .ok l.leafBytes)
    rows leaves

/-- The row without its flag. -/
def fixed (r : FingerprintRow) : FingerprintRow := { r with superseded := 0 }

structure Inv (py : Stdlib) (secret : Bytes) (s : Index) : Prop where
  consistent : Consistent py secret s.conn.tables
  durable : Consistent py secret s.conn.durable
  saved : s.durableLeaves = s.leaves
  same : s.conn.durable.fingerprints.map fixed = s.conn.tables.fingerprints.map fixed
  logged : Logged s.conn.tables.fingerprints s.leaves
  memory : (s.tree, s.leafIndexByFp) = rebuild py s.leaves

section

variable {py : Stdlib} {secret : Bytes} {s : Index} {now : String} {a : AddArgs}
  {rows rows' : List FingerprintRow} {leaves : List LeafRow}

/-- The log does not depend on the flags of the rows. -/
theorem Logged.congr (h : Logged rows leaves) (hrows : rows'.map fixed = rows.map fixed) :
    Logged rows' leaves := by
  refine ⟨h.contiguous, ?_⟩
  have hfix (rows : List FingerprintRow) : List.Forall₂
      (fun r l => l.fingerprint = r.fingerprint ∧ r.payload = .ok l.leafBytes) rows leaves ↔
      List.Forall₂ (fun r l => l.fingerprint = r.fingerprint ∧ r.payload = .ok l.leafBytes)
        (rows.map fixed) leaves := by
    rw [List.forall₂_map_left_iff]
    rfl
  rw [hfix, hrows, ← hfix]
  exact h.rows

theorem sweep_fixed (t : Sqlite.Tables) (d v : String) :
    (t.sweep d v).fingerprints.map fixed = t.fingerprints.map fixed := by
  rw [Sqlite.Tables.sweep, List.map_map]
  refine List.map_congr_left fun r _ => ?_
  simp only [Function.comp_apply]
  split_ifs <;> rfl

theorem upsert_fixed (t : Sqlite.Tables) (d v : String) (authorized : Bool) :
    (t.upsertDocument d v authorized).fingerprints.map fixed = t.fingerprints.map fixed := by
  rcases Sqlite.upsertDocument_fingerprints t d v authorized with h | h
  · rw [h]
  · rw [h, sweep_fixed]

theorem fixed_keys (rows : List FingerprintRow) : (rows.map fixed).map (·.key) = rows.map (·.key) := by
  rw [List.map_map]
  rfl

theorem Inv.holds (h : Inv py secret s) :
    s.tree.Holds py.sha256 (s.leaves.map (·.leafBytes)) := by
  have htree : s.tree = (rebuild py s.leaves).1 := congrArg Prod.fst h.memory
  rw [htree]
  exact rebuild_holds h.logged.contiguous

theorem Inv.size (h : Inv py secret s) : s.tree.size = s.leaves.length := by
  rw [MerkleTree.size, h.holds.leaf_hashes, List.length_map, List.length_map]

theorem opened_inv {t : Sqlite.Tables} (hc : Consistent py secret t)
    (hl : Logged t.fingerprints leaves) : Inv py secret (opened py t leaves) :=
  ⟨hc, hc, rfl, rfl, hl, rfl⟩

theorem init_inv : Inv py secret (.init py) :=
  opened_inv Sqlite.consistent_init ⟨rfl, .nil⟩

theorem Inv.reopen (h : Inv py secret s) : Inv py secret (s.reopen py) := by
  refine opened_inv h.durable ?_
  rw [h.saved]
  exact h.logged.congr h.same

/-! ## `add` -/

/-- The parent's steps do to the connection what they do without a log. -/
theorem execute_base (h : s.durableLeaves = s.leaves) (steps : List Sqlite.Step) :
    execute (Step.run py) s (steps.map .base) =
      ((execute Sqlite.Step.run s.conn steps).1,
        { s with conn := (execute Sqlite.Step.run s.conn steps).2 }) := by
  induction steps generalizing s with
  | nil => rfl
  | cons st steps ih =>
    cases st with
    | execute stmt => exact ih h
    | raise e => rfl
    | commit =>
      have hs : ({ s with conn := .commit s.conn.tables, durableLeaves := s.leaves } : Index) =
          { s with conn := .commit s.conn.tables } := by rw [← h]
      have hrest := ih (s := { s with conn := .commit s.conn.tables }) h
      rw [List.map_cons, execute_cons_ok (rfl : Step.run py s (.base .commit) = .ok _), hs, hrest]
      rfl

variable (py secret now a) in
theorem execute_parent (h : s.durableLeaves = s.leaves) :
    execute (Step.run py) s (s.parentSteps py secret now a) =
      ((Sqlite.add py secret s.conn now a).1,
        { s with conn := (Sqlite.add py secret s.conn now a).2 }) := by
  rw [Index.parentSteps, execute_base h, ← Sqlite.add_steps]

theorem existed_iff : s.existed a.key = true ↔ ∃ r ∈ s.conn.tables.fingerprints, r.key = a.key := by
  simp [Index.existed]

/-- A call that raises, or that finds its row, leaves the log. -/
theorem addSteps_old (h : s.durableLeaves = s.leaves)
    (hold : s.existed a.key = true ∨ ∃ e, (Sqlite.add py secret s.conn now a).1 = .error e) :
    s.addSteps py secret now a = s.parentSteps py secret now a := by
  rw [Index.addSteps, execute_parent py secret now a h]
  cases hadd : (Sqlite.add py secret s.conn now a).1 with
  | error e => rfl
  | ok u =>
    have hex : s.existed a.key = true := hold.resolve_right fun ⟨e, he⟩ => by
      rw [hadd] at he
      cases he
    simp only [hex, if_true, List.append_nil]

theorem upsert_keys (t : Sqlite.Tables) (d v : String) (authorized : Bool) :
    (t.upsertDocument d v authorized).fingerprints.map (·.key) = t.fingerprints.map (·.key) := by
  rw [← fixed_keys, upsert_fixed, fixed_keys]

theorem upsert_fresh (hnew : s.existed a.key = false) {r : FingerprintRow}
    (hr : r ∈ (s.conn.tables.upsertDocument a.documentId a.documentVersion
      a.authorized).fingerprints) : r.key ≠ a.key := by
  intro hk
  have hmem : a.key ∈ s.conn.tables.fingerprints.map (·.key) := by
    rw [← upsert_keys _ a.documentId a.documentVersion a.authorized]
    exact List.mem_map.mpr ⟨r, hr, hk⟩
  obtain ⟨r0, h0, hk0⟩ := List.mem_map.mp hmem
  rw [existed_iff.mpr ⟨r0, h0, hk0⟩] at hnew
  cases hnew

/-- The rows after the parent's `add` of a new one. -/
theorem newRows (hnew : s.existed a.key = false) (payload : Bytes) :
    ((s.conn.tables.upsertDocument a.documentId a.documentVersion a.authorized).insertOrIgnore
        (a.row py secret now payload)).fingerprints =
      (s.conn.tables.upsertDocument a.documentId a.documentVersion a.authorized).fingerprints ++
        [a.row py secret now payload] := by
  rw [Sqlite.Tables.insertOrIgnore, if_neg]
  rw [Sqlite.any_key]
  rintro ⟨r, hr, hk⟩
  exact upsert_fresh hnew hr hk

/-- The leaf of a new row. -/
def Index.leafOf (s : Index) (a : AddArgs) (payload : Bytes) : LeafRow :=
  ⟨s.leaves.length, a.fingerprint, payload⟩

theorem addSteps_new (h : Inv py secret s) {payload : Bytes}
    (hs : (Sqlite.Op.add now a).Signs payload)
    (hi : Sqlite.fitsInt64 a.chunkOffset ∧ Sqlite.fitsInt64 a.chunkLength)
    (hnew : s.existed a.key = false) :
    s.addSteps py secret now a = s.parentSteps py secret now a ++
      [.insertLeaf (s.leafOf a payload), .base .commit, .appendLeaf (s.leafOf a payload),
        .noteIndex (s.leafOf a payload)] := by
  have hadd : Sqlite.add py secret s.conn now a = _ := Sqlite.add_ok hs.1 hs.2.1 hs.2.2 hi
  have hfind : (((s.conn.tables.upsertDocument a.documentId a.documentVersion
      a.authorized).insertOrIgnore (a.row py secret now payload)).fingerprints.find? fun r =>
        r.key = a.key) = some (a.row py secret now payload) := by
    have hkey : (a.row py secret now payload).key = a.key := rfl
    have hnone : ((s.conn.tables.upsertDocument a.documentId a.documentVersion
        a.authorized).fingerprints.find? fun r => r.key = a.key) = none :=
      List.find?_eq_none.mpr fun r hr => by simpa using upsert_fresh hnew hr
    rw [newRows hnew, List.find?_append, hnone, Option.none_or,
      List.find?_cons_of_pos (by simpa using hkey)]
  have hpayload : Sqlite.canonicalPayload (a.row py secret now payload).fingerprint
      (a.row py secret now payload).documentId (a.row py secret now payload).documentVersion
      (a.row py secret now payload).ingestedAt (a.row py secret now payload).chunkOffset
      (a.row py secret now payload).chunkLength = .ok payload := hs.2.2
  rw [Index.addSteps, execute_parent py secret now a h.saved, hadd, hnew]
  simp only [Bool.false_eq_true, if_false, Index.leafSteps, Index.newLeaf, Sqlite.Connection.commit,
    hfind, hpayload, Except.map, Index.leafOf, h.size]

/-- The index after a new row and its leaf. -/
def Index.grown (s : Index) (py : Stdlib) (t : Sqlite.Tables) (l : LeafRow) : Index where
  conn := .commit t
  leaves := s.leaves ++ [l]
  durableLeaves := s.leaves ++ [l]
  tree := (remember py (s.tree, s.leafIndexByFp) l).1
  leafIndexByFp := (remember py (s.tree, s.leafIndexByFp) l).2

theorem contiguous_free (h : Contiguous s.leaves) {l : LeafRow} (hl : l.leafIndex = s.leaves.length) :
    (s.leaves.any fun x => x.leafIndex = l.leafIndex) = false := by
  rw [List.any_eq_false]
  intro x hx
  have hm : x.leafIndex ∈ s.leaves.map (·.leafIndex) := List.mem_map_of_mem hx
  rw [h] at hm
  obtain ⟨n, hn, heq⟩ := List.mem_map.mp hm
  have := List.mem_range.mp hn
  simp only [decide_eq_true_eq]
  omega

/-- All that an `add` can do. -/
theorem add_cases (h : Inv py secret s) (now : String) (a : AddArgs) :
    (s.existed a.key = true ∨ ∃ e, (Sqlite.add py secret s.conn now a).1 = .error e) ∧
      s.add py secret now a = ((Sqlite.add py secret s.conn now a).1,
        { s with conn := (Sqlite.add py secret s.conn now a).2 }) ∨
    ∃ payload, (Sqlite.Op.add now a).Signs payload ∧
      (Sqlite.fitsInt64 a.chunkOffset ∧ Sqlite.fitsInt64 a.chunkLength) ∧
      s.existed a.key = false ∧
      s.add py secret now a = (.ok (), s.grown py ((s.conn.tables.upsertDocument a.documentId
        a.documentVersion a.authorized).insertOrIgnore (a.row py secret now payload))
          (s.leafOf a payload)) := by
  by_cases hold : s.existed a.key = true ∨ ∃ e, (Sqlite.add py secret s.conn now a).1 = .error e
  · left
    rw [Index.add, addSteps_old h.saved hold, execute_parent py secret now a h.saved]
    exact ⟨hold, rfl⟩
  · right
    rw [not_or] at hold
    have hnew : s.existed a.key = false := by simpa using hold.1
    have hs : ∃ payload, (Sqlite.Op.add now a).Signs payload := by
      by_contra hs
      exact hold.2 (Sqlite.add_unsigned hs).1
    obtain ⟨payload, hs⟩ := hs
    have hi : Sqlite.fitsInt64 a.chunkOffset ∧ Sqlite.fitsInt64 a.chunkLength := by
      by_contra hi
      exact hold.2 ⟨_, by rw [Sqlite.add_overflow hs hi]⟩
    refine ⟨payload, hs, hi, hnew, ?_⟩
    have hadd : Sqlite.add py secret s.conn now a = _ := Sqlite.add_ok hs.1 hs.2.1 hs.2.2 hi
    have hfree := contiguous_free h.logged.contiguous (l := s.leafOf a payload) rfl
    have hparent := execute_parent py secret now a h.saved
    rw [hadd] at hparent
    rw [Index.add, addSteps_new h hs hi hnew, execute_append hparent]
    rw [execute_cons_ok (by rw [Step.run, hfree]; rfl)]
    rfl

theorem grown_inv (h : Inv py secret s) {payload : Bytes} (hs : (Sqlite.Op.add now a).Signs payload)
    (hnew : s.existed a.key = false) :
    Inv py secret (s.grown py ((s.conn.tables.upsertDocument a.documentId a.documentVersion
      a.authorized).insertOrIgnore (a.row py secret now payload)) (s.leafOf a payload)) := by
  have hc : Consistent py secret ((s.conn.tables.upsertDocument a.documentId a.documentVersion
      a.authorized).insertOrIgnore (a.row py secret now payload)) :=
    h.consistent.upsertDocument.insertOrIgnore (Sqlite.upsertDocument_current h.consistent)
      ⟨payload, hs.2.2, rfl⟩
  have hcont : Contiguous (s.leaves ++ [s.leafOf a payload]) :=
    contiguous_snoc h.logged.contiguous rfl
  refine ⟨hc, hc, rfl, rfl, ⟨hcont, ?_⟩, ?_⟩
  · have hup := h.logged.congr (upsert_fixed s.conn.tables a.documentId a.documentVersion
      a.authorized)
    simp only [Index.grown, Sqlite.Connection.commit]
    rw [newRows hnew]
    exact List.rel_append hup.rows (.cons ⟨rfl, hs.2.2⟩ .nil)
  · rw [Index.grown]
    simp only
    rw [rebuild_snoc h.logged.contiguous rfl, ← h.memory]

/-! ## Operations -/

/-- A call that leaves the log, and of the rows what the log depends on. -/
theorem Inv.withConn (h : Inv py secret s) {conn : Sqlite.Connection}
    (hc : Consistent py secret conn.tables) (hd : Consistent py secret conn.durable)
    (ht : conn.tables.fingerprints.map fixed = s.conn.tables.fingerprints.map fixed)
    (hdt : conn.durable.fingerprints.map fixed = s.conn.tables.fingerprints.map fixed) :
    Inv py secret { s with conn := conn } :=
  ⟨hc, hd, h.saved, hdt.trans ht.symm, h.logged.congr ht, h.memory⟩

theorem insert_existed (hex : s.existed a.key = true) (payload : Bytes) :
    (s.conn.tables.upsertDocument a.documentId a.documentVersion a.authorized).insertOrIgnore
        (a.row py secret now payload) =
      s.conn.tables.upsertDocument a.documentId a.documentVersion a.authorized := by
  refine Sqlite.insertOrIgnore_held ?_
  obtain ⟨r0, h0, hk0⟩ := existed_iff.mp hex
  have hmem : a.key ∈ (s.conn.tables.upsertDocument a.documentId a.documentVersion
      a.authorized).fingerprints.map (·.key) := by
    rw [upsert_keys]
    exact List.mem_map.mpr ⟨r0, h0, hk0⟩
  obtain ⟨r, hr, hk⟩ := List.mem_map.mp hmem
  exact ⟨r, hr, hk⟩

variable (py secret now) in
/-- The parent's `add` of a row that exists, or one that raises. -/
theorem refreshed_tables
    (hold : s.existed a.key = true ∨ ∃ e, (Sqlite.add py secret s.conn now a).1 = .error e) :
    (Sqlite.add py secret s.conn now a).2 = s.conn ∨
      ((Sqlite.add py secret s.conn now a).2.durable = s.conn.durable ∨
        (Sqlite.add py secret s.conn now a).2.durable =
          s.conn.tables.upsertDocument a.documentId a.documentVersion a.authorized) ∧
      (Sqlite.add py secret s.conn now a).2.tables =
        s.conn.tables.upsertDocument a.documentId a.documentVersion a.authorized := by
  cases hadd : (Sqlite.add py secret s.conn now a).1 with
  | ok u =>
    obtain ⟨payload, -, heq⟩ := Sqlite.step_add (Sqlite.add_returned hadd)
    have hex : s.existed a.key = true := hold.resolve_right fun ⟨e, he⟩ => by
      rw [hadd] at he
      cases he
    rw [insert_existed hex] at heq
    rw [heq]
    exact .inr ⟨.inr rfl, rfl⟩
  | error e =>
    rcases Sqlite.add_raised hadd with heq | heq
    · exact .inl heq
    · rw [heq]
      exact .inr ⟨.inl rfl, rfl⟩

theorem Inv.refreshed (h : Inv py secret s)
    (hold : s.existed a.key = true ∨ ∃ e, (Sqlite.add py secret s.conn now a).1 = .error e) :
    Inv py secret { s with conn := (Sqlite.add py secret s.conn now a).2 } := by
  have hup := upsert_fixed s.conn.tables a.documentId a.documentVersion a.authorized
  rcases refreshed_tables py secret now hold with heq | ⟨hdurable, htables⟩
  · rw [heq]
    exact h
  · have hc : Consistent py secret (Sqlite.add py secret s.conn now a).2.tables := by
      rw [htables]
      exact h.consistent.upsertDocument
    refine h.withConn hc ?_ (by rw [htables, hup]) ?_
    · rcases hdurable with hd | hd
      · rw [hd]
        exact h.durable
      · rw [hd]
        exact h.consistent.upsertDocument
    · rcases hdurable with hd | hd
      · rw [hd, h.same]
      · rw [hd, hup]

theorem Inv.add (h : Inv py secret s) (now : String) (a : AddArgs) :
    Inv py secret (s.add py secret now a).2 := by
  rcases add_cases h now a with ⟨hold, heq⟩ | ⟨payload, hs, -, hnew, heq⟩
  · rw [heq]
    exact h.refreshed hold
  · rw [heq]
    exact grown_inv h hs hnew

theorem Inv.apply (h : Inv py secret s) (op : Op) : Inv py secret (apply py secret s op) := by
  have hsaved (conn : Sqlite.Connection) :
      ({ s with conn := conn, durableLeaves := s.leaves } : Index) = { s with conn := conn } := by
    rw [← h.saved]
  cases op with
  | call op =>
    cases op with
    | add now a => exact h.add now a
    | setAuthorization d authorized =>
      have hc : Consistent py secret (Sqlite.setAuthorization s.conn d authorized).tables :=
        h.consistent.authorize _
      rw [MerkleSqlite.apply, Index.setAuthorization, hsaved]
      exact h.withConn hc hc rfl rfl
    | supersede d v =>
      have hc : Consistent py secret (Sqlite.supersede s.conn d v).2.tables :=
        Sqlite.apply_consistent h.consistent (.supersede d v)
      rw [MerkleSqlite.apply, Index.supersede, hsaved]
      exact h.withConn hc hc (sweep_fixed ..) (sweep_fixed ..)
  | reopen => exact h.reopen

/-! ## Reading -/

theorem contiguous_find (h : Contiguous leaves) {i : ℕ} {l : LeafRow} (hl : leaves[i]? = some l) :
    (leaves.find? fun x : LeafRow => x.leafIndex = (i : ℤ)) = some l := by
  cases hf : leaves.find? fun x : LeafRow => x.leafIndex = (i : ℤ) with
  | none =>
    have := List.find?_eq_none.mp hf l (List.mem_of_getElem? hl)
    simp [contiguous_get h hl] at this
  | some x =>
    obtain ⟨j, hj⟩ := List.mem_iff_getElem?.mp (List.mem_of_find?_eq_some hf)
    have hx : x.leafIndex = (i : ℤ) := by simpa using List.find?_some hf
    have hij : j = i := by
      have := (contiguous_get h hj).symm.trans hx
      exact_mod_cast this
    rw [← hj, hij, hl]

/-- The row of the fingerprint that was inserted last. -/
def lastRow (rows : List FingerprintRow) (fp : String) : Option FingerprintRow :=
  (rows.filter fun r => r.fingerprint = fp).getLast?

/-- The last leaf of a fingerprint is that of its last row. -/
theorem Logged.last (h : Logged rows leaves) {fp : String} {r : FingerprintRow}
    (hr : lastRow rows fp = some r) :
    ∃ (i : ℕ) (l : LeafRow), (leaves.filter fun l => l.fingerprint = fp).getLast? = some l ∧
      leaves[i]? = some l ∧ r.payload = .ok l.leafBytes := by
  have hfilter : List.Forall₂
      (fun r l => l.fingerprint = r.fingerprint ∧ r.payload = .ok l.leafBytes)
      (rows.filter fun r => r.fingerprint = fp) (leaves.filter fun l => l.fingerprint = fp) := by
    refine List.rel_filter ?_ h.rows
    intro r l hrl
    simp [hrl.1]
  have hrev := List.rel_reverse hfilter
  rw [lastRow, List.getLast?_eq_head?_reverse] at hr
  rw [List.getLast?_eq_head?_reverse]
  cases hleaves : (leaves.filter fun l => l.fingerprint = fp).reverse with
  | nil =>
    rw [hleaves, List.forall₂_nil_right_iff] at hrev
    rw [hrev] at hr
    cases hr
  | cons l ls =>
    rw [hleaves] at hrev
    obtain ⟨r', rs, hrl, -, hrows⟩ := List.forall₂_cons_right_iff.mp hrev
    rw [hrows] at hr
    have hmem : l ∈ leaves := by
      have : l ∈ (leaves.filter fun l => l.fingerprint = fp).reverse := by rw [hleaves]; simp
      exact List.mem_of_mem_filter (List.mem_reverse.mp this)
    obtain ⟨i, hi⟩ := List.mem_iff_getElem?.mp hmem
    exact ⟨i, l, rfl, hi, by rw [← Option.some.inj hr]; exact hrl.2⟩

/-- A fingerprint that is held has a last row. -/
theorem lastRow_held {fp : String} (h : ∃ r ∈ rows, r.fingerprint = fp) :
    ∃ r, lastRow rows fp = some r ∧ r ∈ rows ∧ r.fingerprint = fp := by
  obtain ⟨r, hr, hfp⟩ := h
  have hne : (rows.filter fun r => r.fingerprint = fp) ≠ [] :=
    List.ne_nil_of_mem (List.mem_filter.mpr ⟨hr, by simpa using hfp⟩)
  have hmem := List.getLast_mem hne
  refine ⟨_, List.getLast?_eq_some_getLast hne, List.mem_of_mem_filter hmem, ?_⟩
  simpa using (List.mem_filter.mp hmem).2

/-- What `inclusion_proof` returns for a fingerprint with a row: the leaf of its last row, with
the path to it. The root that is read next is the one of the tree over all leaves. -/
theorem Inv.inclusionProof (h : Inv py secret s) {fp : String} {r : FingerprintRow}
    (hr : lastRow s.conn.tables.fingerprints fp = some r) :
    ∃ (i : ℕ) (leaf : Bytes) (s₁ s₂ : Index), (s.leaves.map (·.leafBytes))[i]? = some leaf ∧
      r.payload = .ok leaf ∧
      s.inclusionProof py fp = .ok ((leaf, i, (HashTree.path (Merkle.hashNode py.sha256) []
        (s.leaves.map fun l => Merkle.hashLeaf py.sha256 l.leafBytes) i).map hex), s₁) ∧
      s₁.treeRoot py = .ok (hex (HashTree.root (Merkle.hashNode py.sha256) []
        (s.leaves.map fun l => Merkle.hashLeaf py.sha256 l.leafBytes)), s₂) ∧
      s₂.treeSize = s.leaves.length := by
  obtain ⟨i, l, hlast, hl, hpay⟩ := h.logged.last hr
  have hi : i < s.leaves.length := (List.getElem?_eq_some_iff.mp hl).1
  have hmap : s.leafIndexByFp.lookup fp = some (i : ℤ) := by
    have hmem : s.leafIndexByFp = (rebuild py s.leaves).2 := congrArg Prod.snd h.memory
    rw [hmem, rebuild_lookup h.logged.contiguous, hlast, Option.map_some,
      contiguous_get h.logged.contiguous hl]
  have hhash : s.tree.leafHashes =
      s.leaves.map fun l => Merkle.hashLeaf py.sha256 l.leafBytes := by
    rw [h.holds.leaf_hashes, List.map_map]
    rfl
  obtain ⟨t₁, hproof, hc₁⟩ := Merkle.MerkleTree.inclusionProof_spec py.sha256 h.holds.sound
    (i := i) (by rw [hhash, List.length_map]; exact hi)
  obtain ⟨t₂, hroot, hc₂⟩ := Merkle.MerkleTree.root_spec py.sha256 hc₁.2
    (by rw [hc₁.1, hhash, List.length_map]; omega)
  refine ⟨i, l.leafBytes, { s with tree := t₁ }, { s with tree := t₂ }, ?_, hpay, ?_, ?_, ?_⟩
  · rw [List.getElem?_map, hl]
    rfl
  · rw [Index.inclusionProof, hmap]
    simp only [hproof, contiguous_find h.logged.contiguous hl, hhash, bind, Except.bind]
  · rw [Index.treeRoot]
    simp only [hroot, hc₁.1, hhash, Except.map]
  · rw [Index.treeSize, MerkleTree.size, hc₂.1, hc₁.1, hhash, List.length_map]

/-! ## Runs -/

/-- `add` notes its key, unless that is there. -/
def noteKey (keys : List (String × String × String)) : Op → List (String × String × String)
  | .call (.add _ a) => if a.key ∈ keys then keys else keys ++ [a.key]
  | _ => keys

/-- The keys of the rows, each where it was first added. -/
def insertedKeys (history : List Op) : List (String × String × String) := history.foldl noteKey []

theorem insertedKeys_snoc (history : List Op) (op : Op) :
    insertedKeys (history ++ [op]) = noteKey (insertedKeys history) op := List.foldl_append

theorem mem_noteKey {keys : List (String × String × String)} {key : String × String × String}
    (h : key ∈ keys) (op : Op) : key ∈ noteKey keys op := by
  unfold noteKey
  split
  · split_ifs
    · exact h
    · exact List.mem_append_left _ h
  · exact h

theorem mem_insertedKeys {history : List Op} (h : .call (.add now a) ∈ history) :
    a.key ∈ insertedKeys history := by
  induction history using List.reverseRecOn with
  | nil => cases h
  | append_singleton history op ih =>
    rw [insertedKeys_snoc]
    rcases List.mem_append.mp h with h | h
    · exact mem_noteKey (ih h) op
    · obtain rfl := List.mem_singleton.mp h
      rw [noteKey]
      split_ifs with hk
      · exact hk
      · simp

/-- What holds of a run in which every call has returned. -/
structure Kept (py : Stdlib) (secret : Bytes) (history : List Op) (s : Index) : Prop where
  inv : Inv py secret s
  committed : s.conn.durable = s.conn.tables
  keys : s.conn.tables.fingerprints.map (·.key) = insertedKeys history

theorem step_apply {op : Op} {s' : Index} (h : step py secret s op = .ok s') :
    s' = apply py secret s op := by
  cases op with
  | reopen => exact (Except.ok.inj h).symm
  | call op =>
    cases op with
    | setAuthorization d authorized => exact (Except.ok.inj h).symm
    | supersede d v => exact (Except.ok.inj h).symm
    | add now a =>
      simp only [step] at h
      split at h
      · next heq =>
        rw [apply, heq]
        exact (Except.ok.inj h).symm
      · cases h

theorem step_add_ok {s' : Index} (h : step py secret s (.call (.add now a)) = .ok s') :
    (s.add py secret now a).1 = .ok () := by
  simp only [step] at h
  split at h
  · next heq => rw [heq]
  · cases h

theorem kept_add {history : List Op} (h : Kept py secret history s)
    (hok : (s.add py secret now a).1 = .ok ()) :
    Kept py secret (history ++ [.call (.add now a)]) (s.add py secret now a).2 := by
  have hexisted : s.existed a.key = true ↔ a.key ∈ insertedKeys history := by
    rw [← h.keys, existed_iff, List.mem_map]
  rcases add_cases h.inv now a with ⟨hold, heq⟩ | ⟨payload, hs, -, hnew, heq⟩
  · refine ⟨h.inv.add now a, ?_, ?_⟩
    all_goals
      rw [heq] at hok ⊢
      obtain ⟨payload, -, hconn⟩ := Sqlite.step_add (Sqlite.add_returned hok)
      rw [hconn]
    · rfl
    · have hex : s.existed a.key = true := hold.resolve_right fun ⟨e, he⟩ => by
        rw [hok] at he
        cases he
      rw [insertedKeys_snoc, noteKey, if_pos (hexisted.mp hex), ← h.keys]
      simp only [Sqlite.Connection.commit]
      rw [insert_existed hex, upsert_keys]
  · refine ⟨h.inv.add now a, by rw [heq]; rfl, ?_⟩
    rw [heq, insertedKeys_snoc, noteKey, if_neg (by rw [← hexisted, hnew]; decide), ← h.keys]
    simp only [Index.grown, Sqlite.Connection.commit]
    rw [newRows hnew, List.map_append, upsert_keys]
    rfl

theorem kept_step {history : List Op} {op : Op} {s' : Index} (h : Kept py secret history s)
    (hstep : step py secret s op = .ok s') : Kept py secret (history ++ [op]) s' := by
  have hinv := h.inv.apply op
  rw [← step_apply hstep] at hinv
  cases op with
  | reopen =>
    obtain rfl := Except.ok.inj hstep
    refine ⟨hinv, rfl, ?_⟩
    rw [insertedKeys_snoc]
    exact (congrArg (fun t => t.fingerprints.map (·.key)) h.committed).trans h.keys
  | call op =>
    cases op with
    | add now a =>
      rw [step_apply hstep]
      exact kept_add h (step_add_ok hstep)
    | setAuthorization d authorized =>
      obtain rfl := Except.ok.inj hstep
      refine ⟨hinv, rfl, ?_⟩
      rw [insertedKeys_snoc]
      exact h.keys
    | supersede d v =>
      obtain rfl := Except.ok.inj hstep
      refine ⟨hinv, rfl, ?_⟩
      have hkeys : (s.conn.tables.sweep d v).fingerprints.map (·.key) =
          s.conn.tables.fingerprints.map (·.key) := by rw [← fixed_keys, sweep_fixed, fixed_keys]
      rw [insertedKeys_snoc]
      exact hkeys.trans h.keys

theorem run_kept {history : List Op} (h : run py secret history = .ok s) :
    Kept py secret history s :=
  Run.invariant _ ⟨init_inv, rfl, rfl⟩ (fun _ _ _ _ _ hk hs => kept_step hk hs) history s h

/-- After every run whose calls return: on disk, one leaf a row, in the order of insertion; in
memory, what a rebuild would give; and the proof of every fingerprint that was added verifies. -/
theorem transparency_log (history : List Op) (h : run py secret history = .ok s) :
    Logged s.conn.durable.fingerprints s.durableLeaves ∧
      s.conn.durable.fingerprints.map (·.key) = insertedKeys history ∧
      (insertedKeys history).Nodup ∧
      s.conn.tables = s.conn.durable ∧ s.leaves = s.durableLeaves ∧
      (s.tree, s.leafIndexByFp) = rebuild py s.durableLeaves ∧
      ∀ now a, .call (.add now a) ∈ history → ∃ leaf i proof root s₁ s₂,
        s.inclusionProof py a.fingerprint = .ok ((leaf, i, proof.map hex), s₁) ∧
          s₁.treeRoot py = .ok (hex root, s₂) ∧
          verifyInclusionProof py.sha256 leaf i s₂.treeSize proof root = true := by
  have hk := run_kept h
  have hinv := hk.inv
  refine ⟨?_, ?_, ?_, hk.committed.symm, hinv.saved.symm, ?_, ?_⟩
  · rw [hk.committed, hinv.saved]
    exact hinv.logged
  · rw [hk.committed]
    exact hk.keys
  · rw [← hk.keys]
    exact hinv.consistent.keys
  · rw [hinv.saved]
    exact hinv.memory
  · intro now a ha
    have hheld : ∃ r ∈ s.conn.tables.fingerprints, r.fingerprint = a.fingerprint := by
      have hkey := mem_insertedKeys ha
      rw [← hk.keys] at hkey
      obtain ⟨r, hr, hrk⟩ := List.mem_map.mp hkey
      exact ⟨r, hr, congrArg Prod.fst hrk⟩
    obtain ⟨r, hlast, -, -⟩ := lastRow_held hheld
    obtain ⟨i, leaf, s₁, s₂, hleaf, -, hproof, hroot, hsize⟩ := hinv.inclusionProof hlast
    refine ⟨leaf, i, _, _, s₁, s₂, hproof, hroot, ?_⟩
    have hpath := Merkle.verify_path py.sha256 hleaf
    rw [hsize]
    rw [List.length_map, List.map_map] at hpath
    exact hpath

end

namespace Sample

open Sqlite.Sample (secret)

def firstLeaf : Bytes :=
  [151, 171, 197, 210, 227, 151, 102, 155, 9, 143, 204, 195, 211, 14, 108, 200, 114, 100, 77, 101,
   184, 102, 2, 51, 20, 24, 248, 222, 212, 75, 19, 187]

def secondLeaf : Bytes :=
  [174, 134, 228, 80, 77, 135, 241, 0, 247, 23, 131, 133, 122, 116, 118, 48, 254, 74, 172, 78, 193,
   241, 149, 129, 147, 157, 50, 175, 0, 179, 63, 48]

def bothLeaves : Bytes :=
  [182, 146, 218, 94, 159, 119, 7, 210, 212, 239, 85, 9, 94, 65, 122, 53, 190, 121, 190, 69, 1, 193,
   198, 65, 207, 236, 97, 36, 63, 206, 131, 76]

def digests : List (Bytes × Bytes) :=
  [(Merkle.leafInput (encodeUtf8 "sha256:aa\ndoc\nsha256:01\n2024-01-01T00:00:00.000Z\n0\n5"),
      firstLeaf),
    (Merkle.leafInput (encodeUtf8 "sha256:bb\ndoc\nsha256:02\n2024-01-02T00:00:00.000Z\n0\n5"),
      secondLeaf),
    (Merkle.nodeInput (firstLeaf, secondLeaf), bothLeaves)]

def py : Stdlib :=
  { Sqlite.Sample.py with sha256 := fun b => (digests.lookup b).getD (List.replicate 32 0) }

def first : AddArgs := ⟨"sha256:aa", "doc", "sha256:01", 0, 5, true⟩

/-- A chunk, a restart, a chunk of the next version, and the first one again. -/
def history : List Op :=
  [.call (.add "2024-01-01T00:00:00.000Z" first), .reopen,
    .call (.add "2024-01-02T00:00:00.000Z" ⟨"sha256:bb", "doc", "sha256:02", 0, 5, true⟩),
    .call (.add "2024-01-03T00:00:00.000Z" first)]

end Sample

open Sqlite.Sample (secret) in
theorem transparency_log_sample :
    ∃ s, run Sample.py secret Sample.history = .ok s ∧
      s.conn.durable.fingerprints.map (·.key) =
        [("sha256:aa", "doc", "sha256:01"), ("sha256:bb", "doc", "sha256:02")] ∧
      ∃ leaf i proof root s₁ s₂,
        s.inclusionProof Sample.py "sha256:aa" = .ok ((leaf, i, proof.map hex), s₁) ∧
          s₁.treeRoot Sample.py = .ok (hex root, s₂) ∧
          verifyInclusionProof Sample.py.sha256 leaf i s₂.treeSize proof root = true := by
  have hrun : (run Sample.py secret Sample.history).isOk = true := by decide +kernel
  cases h : run Sample.py secret Sample.history with
  | error e =>
    rw [h] at hrun
    cases hrun
  | ok s =>
    obtain ⟨-, hkeys, -, -, -, -, hproofs⟩ := transparency_log Sample.history h
    exact ⟨s, rfl, hkeys.trans (by decide), hproofs _ Sample.first List.mem_cons_self⟩

end Provenex.MerkleSqlite
