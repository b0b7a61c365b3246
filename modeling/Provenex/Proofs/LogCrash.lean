import Provenex.Proofs.TransparencyLog

/-! An `add` of the log that stops halfway. The row and its leaf are committed one
after the other, and an `add` that finds its row appends no leaf: what stops
between the two commits leaves a row that no later call will log. -/

namespace Provenex.MerkleSqlite

open Steps
open Sqlite (AddArgs FingerprintRow Consistent Tables)

/-! ## One leaf a row -/

/-- Every row has one leaf, of its canonical payload. -/
def OneLeafEach (s : Index) : Prop :=
  ∀ r ∈ s.conn.tables.fingerprints, ∃ payload, r.payload = .ok payload ∧
    s.leaves.countP (fun l => l.leafBytes = payload) = 1

section

variable {py : Stdlib} {secret : Bytes} {s : Index} {now now' : String} {a : AddArgs} {k : ℕ}
  {rows : List FingerprintRow} {leaves : List LeafRow}

/-- Rows with the same bytes have the same key. -/
theorem payload_key {r r' : FingerprintRow} {payload : Bytes} (h : r.payload = .ok payload)
    (h' : r'.payload = .ok payload) : r.key = r'.key := by
  obtain ⟨hf, hd, hv, -⟩ := Sqlite.canonicalPayload_inj h h'
  rw [FingerprintRow.key, FingerprintRow.key, hf, hd, hv]

theorem Inv.oneLeafEach (h : Inv py secret s) : OneLeafEach s := by
  intro r hr
  have hkeys := h.consistent.keys
  obtain ⟨l, -, -, hpay⟩ := Rows.mem_forall₂ h.logged.rows hr
  refine ⟨l.leafBytes, hpay, ?_⟩
  rw [← Rows.countP_forall₂ (p := fun r' : FingerprintRow => r'.payload = .ok l.leafBytes) _
    h.logged.rows]
  · rw [Rows.countP_eq_one (List.Nodup.of_map _ hkeys)]
    refine ⟨⟨r, hr, by simpa using hpay⟩, ?_⟩
    intro x hx y hy hpx hpy
    refine List.inj_on_of_nodup_map hkeys hx hy (payload_key (of_decide_eq_true hpx) ?_)
    exact of_decide_eq_true hpy
  · intro r' l' hrl
    rw [hrl.2]
    simp

/-- A row whose key was not among the logged ones has no leaf. -/
theorem Logged.unlogged (h : Logged rows leaves) {r : FingerprintRow} {payload : Bytes}
    (hpay : r.payload = .ok payload) (hnew : ∀ r' ∈ rows, r'.key ≠ r.key) :
    leaves.countP (fun l => l.leafBytes = payload) = 0 := by
  rw [List.countP_eq_zero]
  intro l hl heq
  obtain ⟨r', hr', -, hpay'⟩ := Rows.mem_forall₂ h.rows.flip hl
  rw [of_decide_eq_true heq] at hpay'
  exact hnew r' hr' (payload_key hpay' hpay)

/-! ## Up to the first commit -/

/-- The call inserts a row: its texts are accepted, its integers can be bound, and its key is not
there. -/
def Stores (s : Index) (now : String) (a : AddArgs) : Prop :=
  (∃ payload, (Sqlite.Op.add now a).Signs payload) ∧
    (Sqlite.fitsInt64 a.chunkOffset ∧ Sqlite.fitsInt64 a.chunkLength) ∧ s.existed a.key = false

variable (py secret) in
theorem addSteps_parent (s : Index) (now : String) (a : AddArgs) :
    ∃ rest, s.addSteps py secret now a = s.parentSteps py secret now a ++ rest := by
  rw [Index.addSteps]
  rcases execute (Step.run py) s (s.parentSteps py secret now a) with ⟨_ | _, s'⟩
  · exact ⟨[], (List.append_nil _).symm⟩
  · exact ⟨if s.existed a.key then [] else s'.leafSteps a, rfl⟩

/-- As far as the steps are the parent's, the connection is where the parent's would be. -/
theorem stopped_parent (h : s.durableLeaves = s.leaves)
    (hk : k ≤ (s.parentSteps py secret now a).length) :
    s.stopped py secret (.add now a) k =
      { s with conn := Sqlite.failedAdd py secret s.conn now a k } := by
  obtain ⟨rest, hrest⟩ := addSteps_parent py secret s now a
  rw [Index.stopped, Index.callSteps, hrest, List.take_append_of_le_length hk, Index.parentSteps,
    ← List.map_take, execute_base h, Sqlite.failedAdd]

/-- Before the row is inserted, or where none is, a failure leaves the log as it is. -/
theorem Inv.before (h : Inv py secret s) (hk : k < (s.parentSteps py secret now a).length)
    (hold : k + 1 < (s.parentSteps py secret now a).length ∨ ¬ Stores s now a) :
    Inv py secret { s with conn := Sqlite.failedAdd py secret s.conn now a k } := by
  have hup := upsert_fixed s.conn.tables a.documentId a.documentVersion a.authorized
  rw [Index.parentSteps, List.length_map] at hk hold
  rcases Sqlite.failedAdd_cases hk with ⟨-, heq⟩ | ⟨-, heq⟩ | ⟨-, heq⟩ | ⟨hlen, payload, hs, heq⟩
  · rw [heq]
    exact h
  · rw [heq]
    exact h.withConn h.consistent.sweep h.durable (sweep_fixed ..) h.same
  · rw [heq]
    exact h.withConn h.consistent.upsertDocument h.durable hup h.same
  · -- the row was to be inserted, and has been there before
    have hex : s.existed a.key = true := by
      rw [Sqlite.addSteps_signed hs, List.length_append] at hk hold
      split_ifs at hk hold with hi
      · simp only [List.length_cons, List.length_nil] at hk hold
        have hno := hold.resolve_left (by omega)
        by_contra hex
        exact hno ⟨⟨payload, hs⟩, hi, by simpa using hex⟩
      · rw [List.length_singleton] at hk
        omega
    rw [heq, insert_existed hex]
    exact h.withConn h.consistent.upsertDocument h.durable hup h.same

theorem failedAdd_durable {conn : Sqlite.Connection}
    (hk : k < (Sqlite.addSteps py secret conn.tables now a).length) :
    (Sqlite.failedAdd py secret conn now a k).durable = conn.durable := by
  rcases Sqlite.failedAdd_cases hk with ⟨-, h⟩ | ⟨-, h⟩ | ⟨-, h⟩ | ⟨-, payload, -, h⟩ <;> rw [h]

/-- A stop before the first commit is a restart. -/
theorem stopped_reopen (h : Inv py secret s) (hk : k < (s.parentSteps py secret now a).length) :
    (s.stopped py secret (.add now a) k).reopen py = s.reopen py := by
  rw [stopped_parent h.saved hk.le]
  rw [Index.parentSteps, List.length_map] at hk
  rw [Index.reopen, failedAdd_durable hk, Index.reopen]

/-! ## After it -/

/-- A call that stores no row ends with the parent's steps. -/
theorem stopped_old (h : Inv py secret s) (hno : ¬ Stores s now a)
    (hk : (s.parentSteps py secret now a).length ≤ k) :
    s.stopped py secret (.add now a) k = (s.add py secret now a).2 := by
  have hsteps : s.addSteps py secret now a = s.parentSteps py secret now a := by
    refine addSteps_old h.saved ?_
    rcases add_cases h now a with ⟨hold, -⟩ | ⟨payload, hs, hi, hnew, -⟩
    · exact hold
    · exact absurd ⟨⟨payload, hs⟩, hi, hnew⟩ hno
  rw [Index.stopped, Index.callSteps, hsteps, List.take_of_length_le hk, Index.add, hsteps]

/-- The tables with the call's row. -/
def stored (py : Stdlib) (secret : Bytes) (s : Index) (now : String) (a : AddArgs)
    (payload : Bytes) : Tables :=
  (s.conn.tables.upsertDocument a.documentId a.documentVersion a.authorized).insertOrIgnore
    (a.row py secret now payload)

/-- What is durable after the row's commit: the row, and its leaf from the second commit on. -/
theorem stopped_stored (h : Inv py secret s) {payload : Bytes}
    (hs : (Sqlite.Op.add now a).Signs payload)
    (hi : Sqlite.fitsInt64 a.chunkOffset ∧ Sqlite.fitsInt64 a.chunkLength)
    (hnew : s.existed a.key = false) (j : ℕ) :
    (s.stopped py secret (.add now a) ((s.parentSteps py secret now a).length + j)).reopen py =
      opened py (stored py secret s now a payload)
        (if j < 2 then s.leaves else s.leaves ++ [s.leafOf a payload]) := by
  have hadd : Sqlite.add py secret s.conn now a = _ := Sqlite.add_ok hs.1 hs.2.1 hs.2.2 hi
  have hfree := contiguous_free h.logged.contiguous (l := s.leafOf a payload) rfl
  have hparent := execute_parent py secret now a h.saved
  rw [hadd] at hparent
  rw [Index.stopped, Index.callSteps, addSteps_new h hs hi hnew, List.take_length_add_append,
    execute_append hparent]
  rcases j with _ | j
  · simp only [List.take_zero, execute_nil, Index.reopen, h.saved]
    rfl
  · rw [List.take_succ_cons, execute_cons_ok (by rw [Step.run, hfree]; rfl)]
    rcases j with _ | _ | _ | j
    · simp only [List.take_zero, execute_nil, Index.reopen, h.saved]
      rfl
    · rfl
    · rfl
    · rw [List.take_of_length_le (by simp)]
      rfl

/-! ## Events -/

/-- The row is durable, and its leaf is not. -/
def Between (py : Stdlib) (secret : Bytes) (s : Index) (now : String) (a : AddArgs) (k : ℕ) : Prop :=
  Stores s now a ∧ (s.parentSteps py secret now a).length ≤ k ∧
    k < (s.parentSteps py secret now a).length + 2

/-- An event after which the log is in order: no stop between the commits, and where the index goes
on, no exception from the insertion of the row to the end of the call. -/
def Safe (py : Stdlib) (secret : Bytes) (s : Index) : Event → Prop
  | .failed (.add now a) k => Stores s now a →
      k + 1 < (s.parentSteps py secret now a).length ∨
        (s.parentSteps py secret now a).length + 4 ≤ k
  | .stopped (.add now a) k => ¬ Between py secret s now a k
  | _ => True

theorem Inv.failed (h : Inv py secret s) (hsafe : Safe py secret s (.failed (.add now a) k)) :
    Inv py secret (s.stopped py secret (.add now a) k) := by
  by_cases hst : Stores s now a
  · rcases hsafe hst with hk | hk
    · rw [stopped_parent h.saved (by omega)]
      exact h.before (by omega) (.inl hk)
    · obtain ⟨⟨payload, hs⟩, hi, hnew⟩ := hst
      have hlen : (s.addSteps py secret now a).length ≤ k := by
        rw [addSteps_new h hs hi hnew, List.length_append]
        exact hk
      rw [Index.stopped, Index.callSteps, List.take_of_length_le hlen]
      exact h.add now a
  · rcases Nat.lt_or_ge k (s.parentSteps py secret now a).length with hk | hk
    · rw [stopped_parent h.saved hk.le]
      exact h.before hk (.inr hst)
    · rw [stopped_old h hst hk]
      exact h.add now a

theorem Inv.stopped (h : Inv py secret s) (hsafe : ¬ Between py secret s now a k) :
    Inv py secret ((s.stopped py secret (.add now a) k).reopen py) := by
  by_cases hst : Stores s now a
  · rcases Nat.lt_or_ge k (s.parentSteps py secret now a).length with hk | hk
    · rw [stopped_reopen h hk]
      exact h.reopen
    · have hlater : (s.parentSteps py secret now a).length + 2 ≤ k :=
        not_lt.mp fun hlt => hsafe ⟨hst, hk, hlt⟩
      obtain ⟨⟨payload, hs⟩, hi, hnew⟩ := hst
      obtain ⟨j, rfl⟩ := Nat.exists_eq_add_of_le hk
      rw [stopped_stored h hs hi hnew, if_neg (by omega)]
      exact (grown_inv h hs hnew).reopen
  · refine (h.failed ?_).reopen
    exact fun hst' => absurd hst' hst

/-- A failure in one of the other methods leaves the log. -/
theorem Inv.failed_other (h : Inv py secret s) {call : Sqlite.Op} (hcall : ∀ now a, call ≠ .add now a)
    (k : ℕ) : Inv py secret (s.stopped py secret call k) := by
  cases call with
  | add now a => exact absurd rfl (hcall now a)
  | setAuthorization d authorized =>
    rw [Index.stopped, Index.callSteps, ← List.map_take, execute_base h.saved, Sqlite.callSteps]
    · have hc : Consistent py secret (Sqlite.setAuthorization s.conn d authorized).tables :=
        h.consistent.authorize _
      rcases k with _ | _ | k
      · exact h
      · exact h.withConn hc h.durable rfl h.same
      · rw [List.take_of_length_le (by simp)]
        exact h.withConn hc hc rfl rfl
    · nofun
  | supersede d v =>
    rw [Index.stopped, Index.callSteps, ← List.map_take, execute_base h.saved, Sqlite.callSteps]
    · have hc : Consistent py secret (Sqlite.supersede s.conn d v).2.tables :=
        Sqlite.apply_consistent h.consistent (.supersede d v)
      rcases k with _ | _ | _ | k
      · exact h
      · exact h.withConn h.consistent.sweep h.durable (sweep_fixed ..) h.same
      · exact h.withConn hc h.durable (sweep_fixed ..) h.same
      · rw [List.take_of_length_le (by simp)]
        exact h.withConn hc hc (sweep_fixed ..) (sweep_fixed ..)
    · nofun

theorem Inv.after (h : Inv py secret s) {e : Event} (hsafe : Safe py secret s e) :
    Inv py secret (e.after py secret s) := by
  cases e with
  | op o => exact h.apply o
  | failed call k =>
    cases call with
    | add now a => exact h.failed hsafe
    | setAuthorization d authorized => exact h.failed_other (by nofun) k
    | supersede d v => exact h.failed_other (by nofun) k
  | stopped call k =>
    cases call with
    | add now a => exact h.stopped hsafe
    | setAuthorization d authorized => exact (h.failed_other (by nofun) k).reopen
    | supersede d v => exact (h.failed_other (by nofun) k).reopen

/-- Every event is safe in the state in which it comes. -/
def EachSafe (py : Stdlib) (secret : Bytes) (s : Index) (events : List Event) : Prop :=
  ∀ earlier e later, events = earlier ++ e :: later → Safe py secret (afterAll py secret earlier s) e

theorem Inv.afterAll {events : List Event} (h : Inv py secret s)
    (hsafe : EachSafe py secret s events) : Inv py secret (afterAll py secret events s) := by
  induction events generalizing s with
  | nil => exact h
  | cons e events ih =>
    refine ih (h.after (hsafe [] e events rfl)) ?_
    exact fun earlier e' later heq => hsafe (e :: earlier) e' later (by rw [heq]; rfl)

/-- Calls and restarts alone are safe. -/
theorem eachSafe_ops (s : Index) (ops : List Op) : EachSafe py secret s (ops.map .op) := by
  intro earlier e later heq
  have he : e ∈ ops.map Event.op := by
    rw [heq]
    simp
  obtain ⟨o, -, rfl⟩ := List.mem_map.mp he
  exact trivial

/-! ## The call repeated -/

/-- An `add` that finds its row without a leaf leaves it so. -/
theorem add_unlogged (hsaved : s.durableLeaves = s.leaves) {r : FingerprintRow} {payload : Bytes}
    (hr : r ∈ s.conn.tables.fingerprints) (hk : r.key = a.key) (hpay : r.payload = .ok payload)
    (hnone : s.leaves.countP (fun l => l.leafBytes = payload) = 0) :
    ¬ OneLeafEach (s.add py secret now a).2 := by
  have hex : s.existed a.key = true := existed_iff.mpr ⟨r, hr, hk⟩
  have hfixed : (Sqlite.add py secret s.conn now a).2.tables.fingerprints.map fixed =
      s.conn.tables.fingerprints.map fixed := by
    rcases refreshed_tables py secret now (.inl hex) with heq | ⟨-, heq⟩
    · rw [heq]
    · rw [heq, upsert_fixed]
  have hfix := List.mem_map_of_mem (f := fixed) hr
  rw [← hfixed] at hfix
  obtain ⟨r', hr', heq⟩ := List.mem_map.mp hfix
  have hpay' : r'.payload = .ok payload := (congrArg FingerprintRow.payload heq).trans hpay
  rw [Index.add, addSteps_old hsaved (.inl hex), execute_parent py secret now a hsaved]
  intro hall
  obtain ⟨payload', hp, hcount⟩ := hall r' hr'
  obtain rfl : payload' = payload := Except.ok.inj (hp.symm.trans hpay')
  rw [hnone] at hcount
  cases hcount

/-- Between the commits, the row is there when the call is repeated. -/
theorem repeated_unlogged (h : Inv py secret s) (hb : Between py secret s now a k) :
    ¬ OneLeafEach (((s.stopped py secret (.add now a) k).reopen py).add py secret now' a).2 := by
  obtain ⟨⟨⟨payload, hs⟩, hi, hnew⟩, hge, hlt⟩ := hb
  obtain ⟨j, rfl⟩ := Nat.exists_eq_add_of_le hge
  rw [stopped_stored h hs hi hnew, if_pos (by omega)]
  have hmem : a.row py secret now payload ∈ (stored py secret s now a payload).fingerprints := by
    rw [stored, newRows hnew]
    simp
  have hrow : (a.row py secret now payload).payload = .ok payload := hs.2.2
  refine add_unlogged (s := opened py (stored py secret s now a payload) s.leaves) rfl hmem rfl
    hrow (h.logged.unlogged hrow fun r hr hk => ?_)
  rw [existed_iff.mpr ⟨r, hr, hk⟩] at hnew
  cases hnew

/-- The index is opened again after an `add` that stopped after `k` steps, and the call is repeated:
every row has its leaf exactly if the stop was not between the commits. -/
theorem log_survives_crash (events : List Event) (hsafe : EachSafe py secret (.init py) events)
    (now now' : String) (a : AddArgs) (k : ℕ) :
    let s := afterAll py secret events (.init py)
    let s' := (((s.stopped py secret (.add now a) k).reopen py).add py secret now' a).2
    OneLeafEach s' ↔ ¬ Between py secret s now a k := by
  have h : Inv py secret (afterAll py secret events (.init py)) := init_inv.afterAll hsafe
  constructor
  · intro hall hb
    exact repeated_unlogged h hb hall
  · intro hb
    exact ((h.stopped hb).add now' a).oneLeafEach

end

open Sqlite.Sample (secret)

namespace Sample

def ingested : List Op := [.call (.add "2024-01-01T00:00:00.000Z" first)]

/-- A chunk of the next version; its row is the fourth step. -/
def second : AddArgs := ⟨"sha256:bb", "doc", "sha256:02", 0, 5, true⟩

end Sample

theorem log_survives_crash_sample :
    let s := afterAll Sample.py secret (Sample.ingested.map .op) (.init Sample.py)
    OneLeafEach (((s.stopped Sample.py secret (.add "2024-01-02T00:00:00.000Z" Sample.second)
      3).reopen Sample.py).add Sample.py secret "2024-01-02T00:00:00.000Z" Sample.second).2 := by
  refine (log_survives_crash _ (eachSafe_ops _ Sample.ingested) _ _ _ 3).mpr ?_
  rintro ⟨-, hle, -⟩
  exact absurd hle (by decide +kernel)

/-- The process stops between the commits of the first call; the call is repeated, and returns. -/
theorem crash_loses_leaf :
    let s := ((Index.init Sample.py).stopped Sample.py secret
      (.add "2024-01-01T00:00:00.000Z" Sample.first) 3).reopen Sample.py
    let call := s.add Sample.py secret "2024-01-01T00:00:00.000Z" Sample.first
    call.1 = .ok () ∧ call.2.conn.durable.fingerprints.map (·.key) = [Sample.first.key] ∧
      call.2.durableLeaves = [] ∧ ¬ OneLeafEach call.2 := by
  intro s call
  have hrows : call.2.conn.tables.fingerprints.map (·.key) = [Sample.first.key] := by
    decide +kernel
  have hnone : call.2.leaves = [] := by decide +kernel
  refine ⟨by decide +kernel, by decide +kernel, by decide +kernel, ?_⟩
  intro hall
  have hmem : Sample.first.key ∈ call.2.conn.tables.fingerprints.map (·.key) := by
    rw [hrows]
    simp
  obtain ⟨r, hr, -⟩ := List.mem_map.mp hmem
  obtain ⟨payload, -, hcount⟩ := hall r hr
  rw [hnone] at hcount
  cases hcount

end Provenex.MerkleSqlite
