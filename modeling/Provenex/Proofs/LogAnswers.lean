import Provenex.Proofs.Answers
import Provenex.Proofs.AppendOnly
import Provenex.Proofs.Ingest

/-! The log changes no answer: over any history of calls, restarts and reads of the log, the index
with a log answers as the index without one that saw the same calls. -/

namespace Provenex.MerkleSqlite

open Effect Steps
open Sqlite (AddArgs Consistent)

section

variable {py : Stdlib} {secret : Bytes} {s : Index} {conn : Sqlite.Connection} {now : String}
  {a : AddArgs}

/-- No call was disturbed: the leaves are durable, and all of them are in the tree. -/
structure Aligned (py : Stdlib) (secret : Bytes) (s : Index) : Prop where
  consistent : Consistent py secret s.conn.tables
  durable : Consistent py secret s.conn.durable
  saved : s.durableLeaves = s.leaves
  size : s.tree.size = s.leaves.length
  held : Held py s

theorem append_size (tree : Merkle.MerkleTree) (sha256 : Bytes → Bytes) (leaf : Bytes) :
    (tree.append sha256 leaf).2.size = tree.size + 1 := by
  rw [Merkle.MerkleTree.size, Merkle.MerkleTree.size, Merkle.MerkleTree.append]
  simp

/-- The row that was just stored is read back. -/
theorem newLeaf_returns (hc : Consistent py secret s.conn.tables)
    (hheld : ∃ r ∈ s.conn.tables.fingerprints, r.key = a.key) :
    ∃ leafBytes, s.newLeaf a = .ok ⟨s.tree.size, a.fingerprint, leafBytes⟩ := by
  unfold Index.newLeaf
  cases hfind : s.conn.tables.fingerprints.find? fun r => r.key = a.key with
  | none =>
    obtain ⟨r, hr, hkey⟩ := hheld
    exact absurd hkey (by simpa using List.find?_eq_none.mp hfind r hr)
  | some row =>
    obtain ⟨payload, hpayload, -⟩ := hc.signed row (List.mem_of_find?_eq_some hfind)
    exact ⟨payload, by simp only [hpayload, Except.map]⟩

theorem Aligned.withConn (h : Aligned py secret s) (hc : Consistent py secret conn.tables)
    (hd : Consistent py secret conn.durable) : Aligned py secret { s with conn := conn } :=
  ⟨hc, hd, h.saved, h.size, h.held.contiguous, h.held.signed, h.held.saved, h.held.memory⟩

/-- What the parent's `add` leaves, and what of it is durable. -/
theorem add_keeps (hc : Consistent py secret conn.tables) (hd : Consistent py secret conn.durable)
    (now : String) (a : AddArgs) :
    Consistent py secret (Sqlite.add py secret conn now a).2.tables ∧
      Consistent py secret (Sqlite.add py secret conn now a).2.durable := by
  have htables : Consistent py secret (Sqlite.add py secret conn now a).2.tables :=
    Sqlite.apply_consistent hc (.add now a)
  refine ⟨htables, ?_⟩
  cases hadd : (Sqlite.add py secret conn now a).1 with
  | ok u =>
    obtain ⟨payload, -, heq⟩ := Sqlite.step_add (Sqlite.add_returned hadd)
    rw [heq] at htables ⊢
    exact htables
  | error e =>
    obtain heq | heq := Sqlite.add_raised hadd
    · rwa [heq]
    · rwa [heq]

/-- What an `add` does to the connection, the parent's does. -/
theorem Aligned.add (h : Aligned py secret s) (now : String) (a : AddArgs) :
    (s.add py secret now a).1 = (Sqlite.add py secret s.conn now a).1 ∧
      (s.add py secret now a).2.conn = (Sqlite.add py secret s.conn now a).2 ∧
      Aligned py secret (s.add py secret now a).2 := by
  obtain ⟨hc, hd⟩ := add_keeps h.consistent h.durable now a
  have hheld : Held py (s.add py secret now a).2 := (h.held.after (.op (.call (.add now a)))).1
  by_cases hold : s.existed a.key = true ∨ ∃ e, (Sqlite.add py secret s.conn now a).1 = .error e
  · rw [Index.add, addSteps_old h.saved hold, execute_parent py secret now a h.saved]
    exact ⟨rfl, rfl, h.withConn hc hd⟩
  · rw [not_or] at hold
    have hadd : (Sqlite.add py secret s.conn now a).1 = .ok () := by
      cases hadd : (Sqlite.add py secret s.conn now a).1 with
      | ok u => rfl
      | error e => exact absurd ⟨e, hadd⟩ hold.2
    obtain ⟨payload, -, heq⟩ := Sqlite.step_add (Sqlite.add_returned hadd)
    have hexisted : s.existed a.key = false := by simpa using hold.1
    have hparent := execute_parent py secret now a h.saved
    rw [hadd, heq] at hparent
    rw [heq] at hc hd
    set t := (s.conn.tables.upsertDocument a.documentId a.documentVersion a.authorized).insertOrIgnore
      (a.row py secret now payload)
    -- the log's steps, on what the parent has left
    let m : Index := { s with conn := .commit t }
    have hrow : ∃ r ∈ m.conn.tables.fingerprints, r.key = a.key := by
      refine List.mem_map.mp ((Sqlite.insertOrIgnore_keys (k := a.key)).mpr (.inr ?_))
      rfl
    obtain ⟨leafBytes, hleaf⟩ := newLeaf_returns (s := m) hc hrow
    have hsteps : s.addSteps py secret now a = s.parentSteps py secret now a ++
        [.insertLeaf ⟨s.tree.size, a.fingerprint, leafBytes⟩, .base .commit,
          .appendLeaf ⟨s.tree.size, a.fingerprint, leafBytes⟩,
          .noteIndex ⟨s.tree.size, a.fingerprint, leafBytes⟩] := by
      rw [Index.addSteps, hparent, hexisted]
      simp only [Bool.false_eq_true, if_false, Index.leafSteps]
      rw [show ({ s with conn := .commit t } : Index).newLeaf a = _ from hleaf]
    have hindex : (s.tree.size : ℤ) = s.leaves.length := congrArg Nat.cast h.size
    have hfree := contiguous_free h.held.contiguous (l := ⟨s.tree.size, a.fingerprint, leafBytes⟩) hindex
    rw [Index.add, hsteps, execute_append hparent,
      execute_cons_ok (by rw [Step.run, hfree]; rfl)] at hheld ⊢
    rw [heq, hadd]
    refine ⟨rfl, rfl, hc, hd, rfl, ?_, hheld⟩
    change (s.tree.append py.sha256 leafBytes).2.size = (s.leaves ++ [_]).length
    rw [append_size, h.size, List.length_append]
    rfl

theorem Aligned.call (h : Aligned py secret s) (op : Sqlite.Op) :
    (apply py secret s (.call op)).conn = Sqlite.apply py secret s.conn op ∧
      Aligned py secret (apply py secret s (.call op)) := by
  have hheld : Held py (apply py secret s (.call op)) := (h.held.after (.op (.call op))).1
  cases op with
  | add now a => exact ⟨(h.add now a).2.1, (h.add now a).2.2⟩
  | setAuthorization d authorized =>
    have hc : Consistent py secret (Sqlite.setAuthorization s.conn d authorized).tables :=
      Sqlite.apply_consistent h.consistent (.setAuthorization d authorized)
    exact ⟨rfl, hc, hc, rfl, h.size, hheld⟩
  | supersede d v =>
    have hc : Consistent py secret (Sqlite.supersede s.conn d v).2.tables :=
      Sqlite.apply_consistent h.consistent (.supersede d v)
    exact ⟨rfl, hc, hc, rfl, h.size, hheld⟩

/-! ## The methods -/

/-- The index with a log, and the one without. -/
def Beside (py : Stdlib) (secret : Bytes) (t : Index) (conn : Sqlite.Connection) : Prop :=
  t.conn = conn ∧ Aligned py secret t

variable (py secret) in
theorem log_simulates (plan : Sqlite.QueryPlan) : SimulatesIndex (Beside py secret)
    (MerkleSqlite.asWritable py secret plan) (Sqlite.asWritable py secret plan) where
  verify fp := by
    rintro t _ ⟨rfl, ht⟩
    change Ends _ (lift (Sqlite.verify py secret plan t.conn fp) t)
      (lift (Sqlite.verify py secret plan t.conn fp) t.conn)
    cases Sqlite.verify py secret plan t.conn fp with
    | ok o => exact .ok o ⟨rfl, ht⟩
    | error e => exact .error e ⟨rfl, ht⟩
  lookup fp := by
    rintro t _ ⟨rfl, ht⟩
    exact .ok _ ⟨rfl, ht⟩
  add now a := by
    rintro t _ ⟨rfl, ht⟩
    obtain ⟨hresult, hconn, hnext⟩ := ht.add now a
    change Ends _ (lift (t.add py secret now a).1 (t.add py secret now a).2)
      (lift (Sqlite.add py secret t.conn now a).1 (Sqlite.add py secret t.conn now a).2)
    rw [hresult]
    cases (Sqlite.add py secret t.conn now a).1 with
    | ok u => exact .ok u ⟨hconn, hnext⟩
    | error e => exact .error e ⟨hconn, hnext⟩
  setAuthorization d authorized := by
    rintro t _ ⟨rfl, ht⟩
    exact .ok () ⟨rfl, (ht.call (.setAuthorization d authorized)).2⟩
  supersede d v := by
    rintro t _ ⟨rfl, ht⟩
    exact .ok _ ⟨rfl, (ht.call (.supersede d v)).2⟩

/-! ## Histories -/

theorem init_aligned : Aligned py secret (.init py) :=
  ⟨Sqlite.consistent_init, Sqlite.consistent_init, rfl, rfl, init_held⟩

theorem Held.size_le (h : Held py s) : s.tree.size ≤ s.durableLeaves.length := by
  obtain ⟨leaves, hleaves, hmem⟩ := h.memory
  rw [hmem.size]
  exact hleaves.length_le

theorem Aligned.reopen (h : Aligned py secret s) : Aligned py secret (s.reopen py) := by
  refine ⟨h.durable, h.durable, rfl, ?_, h.held.reopen.1⟩
  have hcontiguous : Contiguous s.durableLeaves := h.saved ▸ h.held.contiguous
  exact (remembers_rebuild hcontiguous).size

variable (py secret s) in
/-- A read of the log fills the cache of its tree. -/
theorem treeRoot_after : ∃ t, Access.treeRoot.after py secret s = { s with tree := t } := by
  rw [Access.after]
  cases hroot : s.treeRoot py with
  | error e => exact ⟨s.tree, rfl⟩
  | ok r =>
    obtain ⟨root, -, rfl⟩ := Guard.map_ok.mp hroot
    exact ⟨_, rfl⟩

variable (py secret s) in
theorem inclusionProof_after (fp : String) :
    ∃ t, (Access.inclusionProof fp).after py secret s = { s with tree := t } := by
  rw [Access.after]
  cases hproof : s.inclusionProof py fp with
  | error e => exact ⟨s.tree, rfl⟩
  | ok r =>
    unfold Index.inclusionProof at hproof
    split at hproof
    · cases hproof
    · obtain ⟨path, -, hproof⟩ := Guard.bind_ok.mp hproof
      dsimp only at hproof
      split at hproof
      · cases hproof
      · obtain rfl := Except.ok.inj hproof
        exact ⟨_, rfl⟩

theorem Aligned.read (h : Aligned py secret s) {t : Merkle.MerkleTree} {x : Access}
    (hx : x.after py secret s = { s with tree := t }) :
    (x.after py secret s).conn = s.conn ∧ Aligned py secret (x.after py secret s) := by
  obtain ⟨hheld, hgrows⟩ : Held py (x.after py secret s) ∧ Grows s (x.after py secret s) :=
    h.held.access x
  have hle := hheld.size_le
  have hge := hgrows.tree.length_le
  rw [hx] at hheld hle hge ⊢
  refine ⟨rfl, h.consistent, h.durable, h.saved, le_antisymm ?_ ?_, hheld⟩
  · rw [← h.saved]
    exact hle
  · rw [← h.size]
    exact hge

/-- Every call runs to its end, and every restart is a close before it. -/
def Undisturbed : Access → Prop
  | .event (.op _) => True
  | .event _ => False
  | .treeRoot => True
  | .inclusionProof _ => True

/-- What an access is to an index without a log. -/
def Access.plainly (py : Stdlib) (secret : Bytes) (conn : Sqlite.Connection) :
    Access → Sqlite.Connection
  | .event (.op (.call op)) => Sqlite.apply py secret conn op
  | .event (.op .reopen) => .commit conn.durable
  | _ => conn

theorem Aligned.access (h : Aligned py secret s) {x : Access} (hx : Undisturbed x) :
    (x.after py secret s).conn = x.plainly py secret s.conn ∧
      Aligned py secret (x.after py secret s) := by
  cases x with
  | event e =>
    cases e with
    | op o =>
      cases o with
      | call op => exact h.call op
      | reopen => exact ⟨rfl, h.reopen⟩
    | failed call k => exact absurd hx id
    | stopped call k => exact absurd hx id
  | treeRoot =>
    obtain ⟨t, ht⟩ := treeRoot_after py secret s
    exact h.read ht
  | inclusionProof fp =>
    obtain ⟨t, ht⟩ := inclusionProof_after py secret s fp
    exact h.read ht

theorem accessed_aligned (accesses : List Access) (hclean : ∀ x ∈ accesses, Undisturbed x) :
    (accessed py secret accesses).conn = accesses.foldl (Access.plainly py secret) .init ∧
      Aligned py secret (accessed py secret accesses) := by
  induction accesses using List.reverseRecOn with
  | nil => exact ⟨rfl, init_aligned⟩
  | append_singleton accesses x ih =>
    obtain ⟨hconn, haligned⟩ := ih fun y hy => hclean y (List.mem_append_left _ hy)
    obtain ⟨hnext, hkept⟩ := haligned.access (hclean x (List.mem_append_right _ List.mem_cons_self))
    rw [accessed, List.foldl_append, List.foldl_append]
    exact ⟨hnext.trans (congrArg (x.plainly py secret) hconn), hkept⟩

end

/-- Over any history of undisturbed calls, restarts and reads of the log, the connection is that of
an index without a log that saw the same calls; and from there on the calls return and raise the
same on both, with the same answers and the same receipts after them. -/
theorem log_answers_alike (py : Stdlib) (secret : Bytes) (plan : Sqlite.QueryPlan)
    (accesses : List Access) (hclean : ∀ x ∈ accesses, Undisturbed x) (ops : List Sqlite.Op) :
    (accessed py secret accesses).conn = accesses.foldl (Access.plainly py secret) .init ∧
    outcomeOf ((MerkleSqlite.asWritable py secret plan).performAll ops (accessed py secret accesses)) =
      outcomeOf ((Sqlite.asWritable py secret plan).performAll ops
        (accesses.foldl (Access.plainly py secret) .init)) ∧
    AnswersAlike py (MerkleSqlite.asWritable py secret plan).toProvenanceIndex
      (Sqlite.asIndex py secret plan)
      (stateOf ((MerkleSqlite.asWritable py secret plan).performAll ops (accessed py secret accesses)))
      (stateOf ((Sqlite.asWritable py secret plan).performAll ops
        (accesses.foldl (Access.plainly py secret) .init))) := by
  have hsim := log_simulates py secret plan
  obtain ⟨hconn, haligned⟩ := accessed_aligned accesses hclean
  have hrun := hsim.performAll ops (accessed py secret accesses)
    (accesses.foldl (Access.plainly py secret) .init) ⟨hconn, haligned⟩
  exact ⟨hconn, hrun.outcome, hsim.answers py hrun.state⟩

namespace Sample

def undisturbed : List Access :=
  (Provenex.Sample.olderVersion.map fun op => .event (.op (.call op))) ++
    [.treeRoot, .event (.op .reopen), .inclusionProof "sha256:aa"]

end Sample

theorem log_answers_alike_sample :
    Sqlite.verify Provenex.Sample.gatePy [107] Provenex.Sample.gatePlan
      (accessed Provenex.Sample.gatePy [107] Sample.undisturbed).conn "sha256:aa" =
      Sqlite.verify Provenex.Sample.gatePy [107] Provenex.Sample.gatePlan
        (Sample.undisturbed.foldl (Access.plainly Provenex.Sample.gatePy [107]) .init) "sha256:aa" := by
  have hclean : ∀ x ∈ Sample.undisturbed, Undisturbed x := by
    intro x hx
    obtain hx | hx := List.mem_append.mp hx
    · obtain ⟨op, -, rfl⟩ := List.mem_map.mp hx
      exact trivial
    · simp only [List.mem_cons, List.not_mem_nil, or_false] at hx
      rcases hx with rfl | rfl | rfl <;> exact trivial
  rw [(log_answers_alike Provenex.Sample.gatePy [107] Provenex.Sample.gatePlan Sample.undisturbed
    hclean []).1]

end Provenex.MerkleSqlite
