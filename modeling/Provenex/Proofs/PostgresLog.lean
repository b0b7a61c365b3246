import Mathlib.Data.List.TakeWhile
import Provenex.Proofs.Payload
import Provenex.Proofs.PostgresRows

/-! The log of concurrent writers. Its indices are contiguous and its leaves are
rows, whatever the interleaving; a row has one leaf unless two calls for it both
made their check before it was there. -/

namespace Provenex.Postgres

open Transactions Rows

/-! ## The leaves -/

/-- The indices count the leaves from zero. -/
def Tables.Contiguous (t : Tables) : Prop :=
  t.merkleLeaves.map (·.leafIndex) = (List.range t.merkleLeaves.length).map fun n : ℕ => (n : ℤ)

theorem nextLeafIndex_eq {t : Tables} (h : t.Contiguous) :
    t.nextLeafIndex = t.merkleLeaves.length := by
  rw [Tables.nextLeafIndex, h]
  cases t.merkleLeaves.length with
  | zero => rfl
  | succ n =>
    have hmax : ((List.range (n + 1)).map fun n : ℕ => (n : ℤ)).max? = some (n : ℤ) := by
      rw [List.max?_eq_some_iff]
      refine ⟨List.mem_map.mpr ⟨n, by simp, rfl⟩, ?_⟩
      intro b hb
      obtain ⟨m, hm, rfl⟩ := List.mem_map.mp hb
      have := List.mem_range.mp hm
      omega
    rw [hmax]
    simp

theorem free_leafIndex {t : Tables} (h : t.Contiguous) {x : LeafRow} (hx : x ∈ t.merkleLeaves) :
    x.leafIndex ≠ t.merkleLeaves.length := by
  have hm : x.leafIndex ∈ t.merkleLeaves.map (·.leafIndex) := List.mem_map_of_mem hx
  rw [h] at hm
  obtain ⟨n, hn, heq⟩ := List.mem_map.mp hm
  have := List.mem_range.mp hn
  omega

/-- A row of the call is stored, and these are its bytes. -/
def LeafOf (db : Tables) (a : Sqlite.AddArgs) (bytes : Bytes) : Prop :=
  ∃ y ∈ db.fixedRows, y.key = a.key ∧ y.payload = .ok bytes

/-! ## Where a call is -/

section

variable (py : Stdlib) (secret : Bytes) (hashtext : String → ℤ)

/-- The state of a call whose check has found its row, or not. -/
inductive Stage (now : String) (a : Sqlite.AddArgs) (db : Tables) (holds : ℤ → Prop) :
    Bool → Client Tables RowWrite ℤ → Prop
  | checked (e : Bool) :
    Stage now a db holds e ⟨.commit (add py secret hashtext now a (afterAdd a e)), []⟩
  | ready (e : Bool) : Stage now a db holds e ⟨add py secret hashtext now a (afterAdd a e), []⟩
  | body (e : Bool) {payload : Bytes} {p : Program} {ws : List RowWrite}
    (hp : Sqlite.canonicalPayload a.fingerprint a.documentId a.documentVersion now a.chunkOffset
      a.chunkLength = .ok payload)
    (hscheme : startsWith a.fingerprint "sha256:" = true ∧
      startsWith a.documentVersion "sha256:" = true)
    (hlock : holds (hashtext a.documentId))
    (hbody : AddBody (row py secret a now payload) (afterAdd a e) p)
    (hws : Good db (row py secret a now payload) ws) : Stage now a db holds e ⟨p, ws⟩
  | inserted (e : Bool) {payload : Bytes} {ws : List RowWrite}
    (hp : Sqlite.canonicalPayload a.fingerprint a.documentId a.documentVersion now a.chunkOffset
      a.chunkLength = .ok payload)
    (hok : Accepted (.add now a)) (hlock : holds (hashtext a.documentId))
    (hws : Good db (row py secret a now payload) ws)
    (hheld : (ws.foldl Tables.write db).Held a.key) :
    Stage now a db holds e ⟨.commit (afterAdd a e), ws⟩
  | returned (e : Bool) (hok : Accepted (.add now a)) (hheld : db.Held a.key) :
    Stage now a db holds e ⟨afterAdd a e, []⟩
  | find (hok : Accepted (.add now a)) (hheld : db.Held a.key) (hlock : holds leafLockKey) :
    Stage now a db holds false
      ⟨.query fun t => appendRow a.fingerprint .done (t.fingerprints.find? fun r => r.key = a.key),
        []⟩
  | next {bytes : Bytes} (hok : Accepted (.add now a)) (hleaf : LeafOf db a bytes)
    (hlock : holds leafLockKey) :
    Stage now a db holds false
      ⟨.query fun t => insertLeaf ⟨t.nextLeafIndex, a.fingerprint, bytes⟩ .done, []⟩
  | insertLeaf {bytes : Bytes} (hok : Accepted (.add now a)) (hleaf : LeafOf db a bytes)
    (hlock : holds leafLockKey) :
    Stage now a db holds false
      ⟨insertLeaf ⟨db.merkleLeaves.length, a.fingerprint, bytes⟩ .done, []⟩
  | writeLeaf {bytes : Bytes} (hok : Accepted (.add now a)) (hleaf : LeafOf db a bytes)
    (hlock : holds leafLockKey) :
    Stage now a db holds false
      ⟨.write (fun _ => [.leaf ⟨db.merkleLeaves.length, a.fingerprint, bytes⟩]) (.commit .done), []⟩
  | commitLeaf {bytes : Bytes} (hok : Accepted (.add now a)) (hleaf : LeafOf db a bytes)
    (hlock : holds leafLockKey) :
    Stage now a db holds false
      ⟨.commit .done, [.leaf ⟨db.merkleLeaves.length, a.fingerprint, bytes⟩]⟩
  | logged (hok : Accepted (.add now a)) : Stage now a db holds false ⟨.done, []⟩
  | raised (e : Bool) (hno : ¬ Accepted (.add now a)) : Stage now a db holds e ⟨.raised, []⟩

variable {py secret hashtext} {now : String} {a : Sqlite.AddArgs} {db db' : Tables}
  {holds holds' : ℤ → Prop} {e : Bool} {c : Client Tables RowWrite ℤ}

/-- The committed tables after a transaction of another call. -/
structure Grown (now : String) (a : Sqlite.AddArgs) (hashtext : String → ℤ) (holds : ℤ → Prop)
    (db db' : Tables) : Prop where
  rows : ∃ extra, db'.fixedRows = db.fixedRows ++ extra ∧
    (holds (hashtext a.documentId) → ∀ y ∈ extra, y.key ≠ a.key)
  leaves : holds leafLockKey → db'.merkleLeaves.length = db.merkleLeaves.length

theorem Grown.held (h : Grown now a hashtext holds db db') {key : String × String × String}
    (hk : db.Held key) : db'.Held key := by
  obtain ⟨extra, hrows, -⟩ := h.rows
  obtain ⟨y, hy, hyk⟩ := hk
  exact ⟨y, hrows ▸ List.mem_append_left _ hy, hyk⟩

theorem Grown.leafOf (h : Grown now a hashtext holds db db') {bytes : Bytes}
    (hl : LeafOf db a bytes) : LeafOf db' a bytes := by
  obtain ⟨extra, hrows, -⟩ := h.rows
  obtain ⟨y, hy, hyk⟩ := hl
  exact ⟨y, hrows ▸ List.mem_append_left _ hy, hyk⟩

theorem Grown.good (h : Grown now a hashtext holds db db') (hlock : holds (hashtext a.documentId))
    {r : FingerprintRow} (hr : r.key = a.key) {ws : List RowWrite} (hws : Good db r ws) :
    Good db' r ws := by
  obtain ⟨extra, hrows, hextra⟩ := h.rows
  refine ⟨fun x hx => ?_, hws.leaves⟩
  rcases hws.rows x hx with hx | ⟨hxr, hnew⟩
  · exact .inl (hrows ▸ List.mem_append_left _ hx)
  · refine .inr ⟨hxr, ?_⟩
    rintro ⟨y, hy, hyk⟩
    rw [hrows, List.mem_append] at hy
    rcases hy with hy | hy
    · exact hnew ⟨y, hy, hyk⟩
    · exact hextra hlock y hy (hyk.trans hr)

/-- A transaction of another call leaves this one where it is. -/
theorem Stage.kept (h : Stage py secret hashtext now a db holds e c)
    (hg : Grown now a hashtext holds db db') (hh : ∀ k, holds k → holds' k) :
    Stage py secret hashtext now a db' holds' e c := by
  cases h with
  | checked e => exact .checked e
  | ready e => exact .ready e
  | body e hp hscheme hlock hbody hws =>
    exact .body e hp hscheme (hh _ hlock) hbody (hg.good hlock rfl hws)
  | inserted e hp hok hlock hws hheld =>
    refine .inserted e hp hok (hh _ hlock) (hg.good hlock rfl hws) ?_
    rw [held_view] at hheld ⊢
    exact hheld.imp_left hg.held
  | returned e hok hheld => exact .returned e hok (hg.held hheld)
  | find hok hheld hlock => exact .find hok (hg.held hheld) (hh _ hlock)
  | next hok hleaf hlock => exact .next hok (hg.leafOf hleaf) (hh _ hlock)
  | insertLeaf hok hleaf hlock =>
    rw [← hg.leaves hlock]
    exact .insertLeaf hok (hg.leafOf hleaf) (hh _ hlock)
  | writeLeaf hok hleaf hlock =>
    rw [← hg.leaves hlock]
    exact .writeLeaf hok (hg.leafOf hleaf) (hh _ hlock)
  | commitLeaf hok hleaf hlock =>
    rw [← hg.leaves hlock]
    exact .commitLeaf hok (hg.leafOf hleaf) (hh _ hlock)
  | logged hok => exact .logged hok
  | raised e hno => exact .raised e hno

/-! ## A step of one call -/

variable (py secret hashtext) in
theorem add_cases (now : String) (a : Sqlite.AddArgs) (next : Program) :
    (add py secret hashtext now a next = .rollback ∧ ¬ Accepted (.add now a)) ∨
      ∃ payload, Sqlite.canonicalPayload a.fingerprint a.documentId a.documentVersion now
          a.chunkOffset a.chunkLength = .ok payload ∧
        (startsWith a.fingerprint "sha256:" = true ∧
          startsWith a.documentVersion "sha256:" = true) ∧
        add py secret hashtext now a next =
          addTransaction hashtext a (row py secret a now payload) next := by
  rw [add]
  split_ifs with hscheme
  · refine .inl ⟨rfl, fun h => ?_⟩
    rcases hscheme with h1 | h2
    · exact h1 h.1
    · exact h2 h.2.1
  · push Not at hscheme
    cases hp : Sqlite.canonicalPayload a.fingerprint a.documentId a.documentVersion now
      a.chunkOffset a.chunkLength with
    | error e =>
      refine .inl ⟨rfl, fun h => ?_⟩
      obtain ⟨-, -, ⟨payload, hpayload⟩, -⟩ := h
      rw [hp] at hpayload
      cases hpayload
    | ok payload => exact .inr ⟨payload, rfl, hscheme, rfl⟩

variable {ι : Type} [DecidableEq ι] {s s' : System Tables RowWrite ℤ ι} {i : ι}

/-- What a call that is under way can do in one step. -/
inductive Progress (py : Stdlib) (secret : Bytes) (hashtext : String → ℤ) (now : String)
    (a : Sqlite.AddArgs) (i : ι) (e : Bool) (s s' : System Tables RowWrite ℤ ι) : Prop
  | move (hdb : s'.db = s.db)
    (hstage : Stage py secret hashtext now a s'.db (fun k => (i, k) ∈ s'.locks) e (s'.clients i))
    (hopen : (s'.clients i).program ≠ .done)
  | store {payload : Bytes}
    (hp : Sqlite.canonicalPayload a.fingerprint a.documentId a.documentVersion now a.chunkOffset
      a.chunkLength = .ok payload)
    (hok : Accepted (.add now a)) (hlock : (i, hashtext a.documentId) ∈ s.locks)
    (hrows : Extends s.db (row py secret a now payload) s'.db) (hheld : s'.db.Held a.key)
    (hleaves : s'.db.merkleLeaves = s.db.merkleLeaves)
    (hclient : s'.clients i = ⟨afterAdd a e, []⟩)
  | log {bytes : Bytes} (he : e = false) (hok : Accepted (.add now a))
    (hlock : (i, leafLockKey) ∈ s.locks) (hleaf : LeafOf s.db a bytes)
    (hdb : s'.db = { s.db with
      merkleLeaves := s.db.merkleLeaves ++ [⟨s.db.merkleLeaves.length, a.fingerprint, bytes⟩] })
    (hclient : s'.clients i = ⟨.done, []⟩)

theorem find_held {key : String × String × String} (h : db.Held key) :
    ∃ y, db.fingerprints.find? (fun r => r.key = key) = some y ∧ y.fixed ∈ db.fixedRows ∧
      y.key = key := by
  cases hf : db.fingerprints.find? fun r => r.key = key with
  | none =>
    obtain ⟨y, hy, hk⟩ := h
    obtain ⟨x, hx, rfl⟩ := List.mem_map.mp hy
    exact absurd hk (by simpa using List.find?_eq_none.mp hf x hx)
  | some y =>
    exact ⟨y, rfl, List.mem_map_of_mem (List.mem_of_find?_eq_some hf),
      by simpa using List.find?_some hf⟩

theorem addBody_open {r : FingerprintRow} {next p : Program} (h : AddBody r next p) : p ≠ .done := by
  cases h <;> nofun

theorem stage_step (h : Stage py secret hashtext now a s.db (fun k => (i, k) ∈ s.locks) e
      (s.clients i))
    (hnd : (s.db.fixedRows.map (·.key)).Nodup) (hcont : s.db.Contiguous)
    (hpay : ∀ y ∈ s.db.fixedRows, ∃ bytes, y.payload = .ok bytes)
    (hs : step Tables.write s i = .ok s') :
    Progress py secret hashtext now a i e s s' := by
  generalize hc : s.clients i = c at h
  cases h with
  | checked e =>
    obtain rfl := step_commit hc hs
    refine .move rfl ?_ ?_
    · rw [close_same]
      exact .ready e
    · rw [close_same]
      rcases add_cases py secret hashtext now a (afterAdd a e)
        with ⟨h, -⟩ | ⟨payload, -, -, h⟩
      · rw [h]
        nofun
      · rw [h]
        nofun
  | ready e =>
    rcases add_cases py secret hashtext now a (afterAdd a e)
      with ⟨h, hno⟩ | ⟨payload, hp, hscheme, h⟩
    · rw [h] at hc
      obtain rfl := step_rollback hc hs
      refine .move rfl ?_ ?_
      · rw [close_same]
        exact .raised e hno
      · rw [close_same]
        nofun
    · rw [h] at hc
      obtain rfl := step_lock hc hs
      have hclient : ({ s.set i ⟨.query fun t => afterSelect a (row py secret a now payload)
          (afterAdd a e) (t.selectCurrentVersion a.documentId), []⟩ with
            locks := (i, hashtext a.documentId) :: s.locks,
            granted := s.granted ++ [i] } : System Tables RowWrite ℤ ι).clients i = _ :=
        set_same s i _
      refine .move rfl ?_ ?_
      · rw [hclient]
        refine .body e hp hscheme List.mem_cons_self (.query fun t => ?_) ⟨by simp, by simp⟩
        exact addBody_afterSelect a _ _ _
      · rw [hclient]
        nofun
  | body e hp hscheme hlock hbody hws =>
    cases hbody with
    | insert hfits =>
      obtain rfl := step_write hc hs
      refine .move rfl ?_ ?_
      · rw [set_same]
        exact .inserted e hp ⟨hscheme.1, hscheme.2, ⟨_, hp⟩, hfits⟩ hlock hws.insert.1 hws.insert.2
      · rw [set_same]
        nofun
    | refuse hfits =>
      obtain rfl := step_rollback hc hs
      refine .move rfl ?_ ?_
      · rw [close_same]
        exact .raised e fun hok => hfits hok.2.2.2
      · rw [close_same]
        nofun
    | query hrest =>
      obtain rfl := step_query hc hs
      refine .move rfl ?_ ?_
      · rw [set_same]
        exact .body e hp hscheme hlock (hrest _) hws
      · rw [set_same]
        exact addBody_open (hrest _)
    | write hsafe hrest =>
      obtain rfl := step_write hc hs
      refine .move rfl ?_ ?_
      · rw [set_same]
        exact .body e hp hscheme hlock hrest (hws.write hnd hsafe)
      · rw [set_same]
        exact addBody_open hrest
  | inserted e hp hok hlock hws hheld =>
    obtain rfl := step_commit hc hs
    obtain ⟨hext, hleaves⟩ := good_view hws hnd
    exact .store hp hok hlock hext hheld hleaves (close_same ..)
  | returned e hok hheld =>
    cases e with
    | true => exact absurd hs (step_stuck (by rw [hc]; rfl))
    | false =>
      obtain rfl := step_lock hc hs
      have hclient : ({ s.set i ⟨.query fun t => appendRow a.fingerprint .done
          (t.fingerprints.find? fun r => r.key = a.key), []⟩ with
            locks := (i, leafLockKey) :: s.locks,
            granted := s.granted ++ [i] } : System Tables RowWrite ℤ ι).clients i = _ :=
        set_same s i _
      refine .move rfl ?_ ?_
      · rw [hclient]
        exact .find hok hheld List.mem_cons_self
      · rw [hclient]
        nofun
  | find hok hheld hlock =>
    obtain ⟨y, hfind, hy, hk⟩ := find_held hheld
    obtain ⟨bytes, hbytes⟩ := hpay _ hy
    obtain rfl := step_query hc hs
    have hnext : appendRow a.fingerprint (.done : Program)
        (s.db.fingerprints.find? fun r => r.key = a.key) =
          .query fun t => insertLeaf ⟨t.nextLeafIndex, a.fingerprint, bytes⟩ .done := by
      rw [fixed_payload] at hbytes
      rw [hfind, appendRow, hbytes]
    refine .move rfl ?_ ?_
    · rw [set_same, List.foldl_nil, hnext]
      exact .next hok ⟨_, hy, hk, hbytes⟩ hlock
    · rw [set_same, List.foldl_nil, hnext]
      nofun
  | next hok hleaf hlock =>
    obtain rfl := step_query hc hs
    refine .move rfl ?_ ?_
    · rw [set_same, List.foldl_nil, nextLeafIndex_eq hcont]
      exact .insertLeaf hok hleaf hlock
    · rw [set_same]
      nofun
  | insertLeaf hok hleaf hlock =>
    obtain rfl := step_query hc hs
    have hfree : (s.db.merkleLeaves.any fun x => x.leafIndex = s.db.merkleLeaves.length) = false := by
      rw [List.any_eq_false]
      intro x hx
      simpa using free_leafIndex hcont hx
    refine .move rfl ?_ ?_
    · rw [set_same, List.foldl_nil, if_neg (by rw [hfree]; exact Bool.false_ne_true)]
      exact .writeLeaf hok hleaf hlock
    · rw [set_same, List.foldl_nil, if_neg (by rw [hfree]; exact Bool.false_ne_true)]
      nofun
  | writeLeaf hok hleaf hlock =>
    obtain rfl := step_write hc hs
    refine .move rfl ?_ ?_
    · rw [set_same]
      exact .commitLeaf hok hleaf hlock
    · rw [set_same]
      nofun
  | commitLeaf hok hleaf hlock =>
    obtain rfl := step_commit hc hs
    refine .log rfl hok hlock hleaf ?_ (close_same ..)
    rw [System.close, List.foldl_cons, List.foldl_nil, Tables.write, put_new]
    exact fun x hx => free_leafIndex hcont hx
  | logged hok => exact absurd hs (step_stuck (by rw [hc]; rfl))
  | raised e hno => exact absurd hs (step_stuck (by rw [hc]; rfl))

end

/-! ## Runs -/

section

variable (py : Stdlib) (secret : Bytes) (hashtext : String → ℤ) {ι : Type} [DecidableEq ι]
  (call : ι → String × Sqlite.AddArgs)

/-- Some calls, on an empty database. -/
def initial : System Tables RowWrite ℤ ι :=
  .init .init fun i => merkleAdd py secret hashtext (call i).1 (call i).2

/-- The steps before the check of the call, which is its first. -/
def beforeCheck (schedule : List ι) (i : ι) : List ι := schedule.takeWhile fun j => j ≠ i

/-- The call has made its check, and did not find its row. -/
def Missed (schedule : List ι) (i : ι) : Prop :=
  i ∈ schedule ∧ ∃ m, run Tables.write (initial py secret hashtext call) (beforeCheck schedule i) =
    .ok m ∧ m.db.existed (call i).2.key = false

/-- What is true in every state of every run. -/
structure LogInv (schedule : List ι) (s : System Tables RowWrite ℤ ι) : Prop where
  exclusive : Exclusive s
  keys : (s.db.fixedRows.map (·.key)).Nodup
  payloads : ∀ y ∈ s.db.fixedRows, ∃ bytes, y.payload = .ok bytes
  contiguous : s.db.Contiguous
  fresh : ∀ i, i ∉ schedule →
    s.clients i = ⟨merkleAdd py secret hashtext (call i).1 (call i).2, []⟩
  stage : ∀ i ∈ schedule, ∃ e, (e = false ↔ Missed py secret hashtext call schedule i) ∧
    (e = true → s.db.Held (call i).2.key) ∧
    Stage py secret hashtext (call i).1 (call i).2 s.db (fun k => (i, k) ∈ s.locks) e (s.clients i)
  inserter : ∀ y ∈ s.db.fixedRows, ∃ i, Missed py secret hashtext call schedule i ∧
    Accepted (.add (call i).1 (call i).2) ∧ (call i).2.key = y.key
  log : ∃ is : List ι, is.Nodup ∧
    (∀ i, i ∈ is ↔ Missed py secret hashtext call schedule i ∧ (s.clients i).program = .done) ∧
    List.Forall₂ (fun i l => l.fingerprint = (call i).2.fingerprint ∧
      LeafOf s.db (call i).2 l.leafBytes) is s.db.merkleLeaves

variable {py secret hashtext call} {schedule : List ι} {s s' : System Tables RowWrite ℤ ι} {i j : ι}

theorem beforeCheck_append (later : List ι) (h : j ∈ schedule) :
    beforeCheck (schedule ++ later) j = beforeCheck schedule j := by
  unfold beforeCheck
  induction schedule with
  | nil => cases h
  | cons k schedule ih =>
    by_cases hk : k = j
    · simp [hk]
    · rw [List.cons_append, List.takeWhile_cons_of_pos (by simpa using hk),
        List.takeWhile_cons_of_pos (by simpa using hk),
        ih ((List.mem_cons.mp h).resolve_left (Ne.symm hk))]

theorem beforeCheck_split (schedule : List ι) (i : ι) :
    ∃ later, schedule = beforeCheck schedule i ++ later :=
  ⟨_, (List.takeWhile_append_dropWhile).symm⟩

/-- Of two calls, one makes its check before the other. -/
theorem beforeCheck_total (hi : i ∈ schedule) (hj : j ∈ schedule) (hij : i ≠ j) :
    j ∈ beforeCheck schedule i ∨ i ∈ beforeCheck schedule j := by
  unfold beforeCheck
  induction schedule with
  | nil => cases hi
  | cons k schedule ih =>
    by_cases hki : k = i
    · subst hki
      exact .inr (by rw [List.takeWhile_cons_of_pos (by simpa using hij)]; exact List.mem_cons_self)
    · by_cases hkj : k = j
      · subst hkj
        exact .inl (by rw [List.takeWhile_cons_of_pos (by simpa using hki)]; exact List.mem_cons_self)
      · rw [List.takeWhile_cons_of_pos (by simpa using hki),
          List.takeWhile_cons_of_pos (by simpa using hkj)]
        exact (ih ((List.mem_cons.mp hi).resolve_left (Ne.symm hki))
          ((List.mem_cons.mp hj).resolve_left (Ne.symm hkj))).imp (List.mem_cons_of_mem _)
            (List.mem_cons_of_mem _)

theorem missed_snoc (hj : j ∈ schedule ∨ j ≠ i) :
    Missed py secret hashtext call (schedule ++ [i]) j ↔
      Missed py secret hashtext call schedule j := by
  unfold Missed
  by_cases hm : j ∈ schedule
  · rw [beforeCheck_append [i] hm]
    simp [hm]
  · have hne := hj.resolve_left hm
    simp [hm, hne]

theorem missed_first (hi : i ∉ schedule)
    (hrun : run Tables.write (initial py secret hashtext call) schedule = .ok s) :
    Missed py secret hashtext call (schedule ++ [i]) i ↔ s.db.existed (call i).2.key = false := by
  have hbefore : beforeCheck (schedule ++ [i]) i = schedule := by
    unfold beforeCheck
    rw [List.takeWhile_append_of_pos]
    · simp
    · intro j hj
      simpa using fun h : j = i => hi (h ▸ hj)
  unfold Missed
  rw [hbefore, hrun]
  simp

theorem logInv_init : LogInv py secret hashtext call [] (initial py secret hashtext call) := by
  refine ⟨?_, List.nodup_nil, nofun, rfl, fun _ _ => rfl, nofun, nofun, [], List.nodup_nil, ?_, .nil⟩
  · intro e he
    cases he
  · intro i
    simp [Missed]

/-- The calls other than the one that took the step. -/
theorem LogInv.others (h : LogInv py secret hashtext call schedule s)
    (hs : step Tables.write s i = .ok s')
    (hg : ∀ j, j ≠ i → Grown (call j).1 (call j).2 hashtext (fun k => (j, k) ∈ s.locks) s.db s'.db)
    (hj : j ∈ schedule) (hji : j ≠ i) :
    ∃ e, (e = false ↔ Missed py secret hashtext call (schedule ++ [i]) j) ∧
      (e = true → s'.db.Held (call j).2.key) ∧
      Stage py secret hashtext (call j).1 (call j).2 s'.db (fun k => (j, k) ∈ s'.locks) e
        (s'.clients j) := by
  obtain ⟨e, he, hheld, hstage⟩ := h.stage j hj
  refine ⟨e, he.trans (missed_snoc (.inl hj)).symm, fun het => (hg j hji).held (hheld het), ?_⟩
  rw [step_other hs hji]
  exact hstage.kept (hg j hji) fun k => step_locks hs hji

theorem grown_same {now : String} {a : Sqlite.AddArgs} {holds : ℤ → Prop} {db db' : Tables}
    (h : db' = db) : Grown now a hashtext holds db db' := by
  subst h
  exact ⟨⟨[], (List.append_nil _).symm, fun _ => nofun⟩, fun _ => rfl⟩

theorem fresh_snoc (h : LogInv py secret hashtext call schedule s)
    (hs : step Tables.write s i = .ok s') (hj : j ∉ schedule ++ [i]) :
    s'.clients j = ⟨merkleAdd py secret hashtext (call j).1 (call j).2, []⟩ := by
  rw [List.mem_append, List.mem_singleton, not_or] at hj
  rw [step_other hs hj.2]
  exact h.fresh j hj.1

/-- A step that leaves the tables, and after which the call is still under way. -/
theorem LogInv.move (h : LogInv py secret hashtext call schedule s)
    (hs : step Tables.write s i = .ok s') (hdb : s'.db = s.db)
    (hstage : ∃ e, (e = false ↔ Missed py secret hashtext call (schedule ++ [i]) i) ∧
      (e = true → s.db.Held (call i).2.key) ∧
      Stage py secret hashtext (call i).1 (call i).2 s'.db (fun k => (i, k) ∈ s'.locks) e
        (s'.clients i))
    (hopen : (s'.clients i).program ≠ .done) :
    LogInv py secret hashtext call (schedule ++ [i]) s' := by
  have hmissed {j : ι} (hm : Missed py secret hashtext call schedule j) :
      Missed py secret hashtext call (schedule ++ [i]) j := (missed_snoc (.inl hm.1)).mpr hm
  refine ⟨exclusive_step hs h.exclusive, hdb ▸ h.keys, hdb ▸ h.payloads, hdb ▸ h.contiguous,
    fun j hj => fresh_snoc h hs hj, ?_, ?_, ?_⟩
  · intro j hj
    by_cases hji : j = i
    · subst hji
      rwa [← hdb] at hstage
    · exact h.others hs (fun j _ => grown_same hdb)
        ((List.mem_append.mp hj).resolve_right (by simpa using hji)) hji
  · rw [hdb]
    intro y hy
    obtain ⟨j, hm, hrest⟩ := h.inserter y hy
    exact ⟨j, hmissed hm, hrest⟩
  · obtain ⟨is, hnd, hmem, hleaves⟩ := h.log
    rw [hdb]
    refine ⟨is, hnd, fun j => ?_, hleaves⟩
    by_cases hji : j = i
    · subst hji
      have hnot : (s.clients j).program ≠ .done := fun hdone =>
        step_stuck (by rw [hdone]; rfl) hs
      rw [hmem]
      simp [hopen, hnot]
    · rw [hmem, missed_snoc (.inr hji), step_other hs hji]

theorem extra_rows {r : FingerprintRow} {db db' : Tables} (h : Extends db r db') :
    ∃ extra, db'.fixedRows = db.fixedRows ++ extra ∧ ∀ y ∈ extra, y = r.fixed ∧ ¬ db.Held r.key := by
  rcases h with h | ⟨hnew, h⟩
  · exact ⟨[], by rw [h, List.append_nil], nofun⟩
  · refine ⟨[r.fixed], h, fun y hy => ⟨List.mem_singleton.mp hy, hnew⟩⟩

/-- The commit of the second transaction. -/
theorem LogInv.store (h : LogInv py secret hashtext call schedule s)
    (hs : step Tables.write s i = .ok s') (hi : i ∈ schedule) {e : Bool}
    (he : e = false ↔ Missed py secret hashtext call schedule i)
    (heheld : e = true → s.db.Held (call i).2.key) {payload : Bytes}
    (hp : Sqlite.canonicalPayload (call i).2.fingerprint (call i).2.documentId
      (call i).2.documentVersion (call i).1 (call i).2.chunkOffset (call i).2.chunkLength =
        .ok payload)
    (hok : Accepted (.add (call i).1 (call i).2))
    (hlock : (i, hashtext (call i).2.documentId) ∈ s.locks)
    (hrows : Extends s.db (row py secret (call i).2 (call i).1 payload) s'.db)
    (hheld : s'.db.Held (call i).2.key) (hleaves : s'.db.merkleLeaves = s.db.merkleLeaves)
    (hclient : s'.clients i = ⟨afterAdd (call i).2 e, []⟩) :
    LogInv py secret hashtext call (schedule ++ [i]) s' := by
  have hmissed {j : ι} (hm : Missed py secret hashtext call schedule j) :
      Missed py secret hashtext call (schedule ++ [i]) j := (missed_snoc (.inl hm.1)).mpr hm
  obtain ⟨extra, hdb, hextra⟩ := extra_rows hrows
  have hgrown (j : ι) (hji : j ≠ i) :
      Grown (call j).1 (call j).2 hashtext (fun k => (j, k) ∈ s.locks) s.db s'.db := by
    refine ⟨⟨extra, hdb, fun hj y hy hk => hji ?_⟩, fun _ => by rw [hleaves]⟩
    -- both calls would hold the lock of one document
    obtain ⟨rfl, -⟩ := hextra y hy
    have hdoc : (call i).2.documentId = (call j).2.documentId := congrArg (·.2.1) hk
    exact h.exclusive _ hj _ hlock (congrArg hashtext hdoc.symm)
  have hself : Grown (call i).1 (call i).2 hashtext (fun _ => False) s.db s'.db :=
    ⟨⟨extra, hdb, nofun⟩, nofun⟩
  refine ⟨exclusive_step hs h.exclusive, ?_, ?_, ?_, fun j hj => fresh_snoc h hs hj, ?_, ?_, ?_⟩
  · rw [fixedRows_keys]
    exact hrows.keys h.keys
  · intro y hy
    rw [hdb, List.mem_append] at hy
    rcases hy with hy | hy
    · exact h.payloads y hy
    · rw [(hextra y hy).1]
      exact ⟨payload, hp⟩
  · rw [Tables.Contiguous, hleaves]
    exact h.contiguous
  · intro j hj
    by_cases hji : j = i
    · subst hji
      refine ⟨e, he.trans (missed_snoc (.inl hi)).symm, fun het => hself.held (heheld het), ?_⟩
      rw [hclient]
      exact .returned e hok hheld
    · exact h.others hs hgrown ((List.mem_append.mp hj).resolve_right (by simpa using hji)) hji
  · intro y hy
    rw [hdb, List.mem_append] at hy
    rcases hy with hy | hy
    · obtain ⟨j, hm, hrest⟩ := h.inserter y hy
      exact ⟨j, hmissed hm, hrest⟩
    · -- the row is new, so the check had not found it
      obtain ⟨rfl, hnew⟩ := hextra y hy
      refine ⟨i, hmissed (he.mp ?_), hok, rfl⟩
      cases e with
      | false => rfl
      | true => exact absurd (heheld rfl) hnew
  · obtain ⟨is, hnd, hmem, hall⟩ := h.log
    rw [hleaves]
    refine ⟨is, hnd, fun j => ?_, hall.imp fun j l hl => ⟨hl.1, ?_⟩⟩
    · by_cases hji : j = i
      · subst hji
        have hnot : (s.clients j).program ≠ .done := fun hdone =>
          step_stuck (by rw [hdone]; rfl) hs
        rw [hmem, missed_snoc (.inl hi), ← he, hclient]
        cases e with
        | true => simp
        | false => simp [hnot, afterAdd, appendLeaf]
      · rw [hmem, missed_snoc (.inr hji), step_other hs hji]
    · obtain ⟨y, hy, hrest⟩ := hl.2
      exact ⟨y, hdb ▸ List.mem_append_left _ hy, hrest⟩

/-- The commit of the third transaction. -/
theorem LogInv.append (h : LogInv py secret hashtext call schedule s)
    (hs : step Tables.write s i = .ok s') (hi : i ∈ schedule)
    (hm : Missed py secret hashtext call schedule i)
    (hok : Accepted (.add (call i).1 (call i).2)) (hlock : (i, leafLockKey) ∈ s.locks)
    {bytes : Bytes} (hleaf : LeafOf s.db (call i).2 bytes)
    (hdb : s'.db = { s.db with
      merkleLeaves := s.db.merkleLeaves ++
        [⟨s.db.merkleLeaves.length, (call i).2.fingerprint, bytes⟩] })
    (hclient : s'.clients i = ⟨.done, []⟩) :
    LogInv py secret hashtext call (schedule ++ [i]) s' := by
  have hmissed {j : ι} (hm : Missed py secret hashtext call schedule j) :
      Missed py secret hashtext call (schedule ++ [i]) j := (missed_snoc (.inl hm.1)).mpr hm
  have hrows : s'.db.fixedRows = s.db.fixedRows := by rw [hdb]; rfl
  have hleaves : s'.db.merkleLeaves = s.db.merkleLeaves ++
      [⟨s.db.merkleLeaves.length, (call i).2.fingerprint, bytes⟩] := by rw [hdb]
  have hnot : (s.clients i).program ≠ .done := fun hdone => step_stuck (by rw [hdone]; rfl) hs
  refine ⟨exclusive_step hs h.exclusive, hrows ▸ h.keys, hrows ▸ h.payloads, ?_,
    fun j hj => fresh_snoc h hs hj, ?_, ?_, ?_⟩
  · have hc := h.contiguous
    unfold Tables.Contiguous at hc ⊢
    rw [hleaves, List.map_append, hc, List.length_append, List.length_singleton, List.range_succ,
      List.map_append]
    rfl
  · intro j hj
    by_cases hji : j = i
    · subst hji
      refine ⟨false, iff_of_true rfl (hmissed hm), nofun, ?_⟩
      rw [hclient]
      exact .logged hok
    · refine h.others hs (fun j hji => ⟨⟨[], by rw [hrows, List.append_nil], fun _ => nofun⟩, ?_⟩)
        ((List.mem_append.mp hj).resolve_right (by simpa using hji)) hji
      exact fun hj => absurd (h.exclusive _ hj _ hlock rfl) hji
  · rw [hrows]
    intro y hy
    obtain ⟨j, hm, hrest⟩ := h.inserter y hy
    exact ⟨j, hmissed hm, hrest⟩
  · obtain ⟨is, hnd, hmem, hall⟩ := h.log
    have hleafOf {j : ι} {b : Bytes} (hl : LeafOf s.db (call j).2 b) : LeafOf s'.db (call j).2 b := by
      obtain ⟨y, hy, hrest⟩ := hl
      exact ⟨y, hrows ▸ hy, hrest⟩
    have hnew : i ∉ is := fun hi => hnot ((hmem i).mp hi).2
    refine ⟨is ++ [i], List.nodup_append'.mpr ⟨hnd, by simp, by simpa using hnew⟩, fun j => ?_, ?_⟩
    · rw [List.mem_append, List.mem_singleton]
      by_cases hji : j = i
      · subst hji
        simp [hmissed hm, hclient]
      · rw [hmem, missed_snoc (.inr hji), step_other hs hji]
        simp [hji]
    · rw [hleaves]
      refine List.rel_append (hall.imp fun j l hl => ⟨hl.1, hleafOf hl.2⟩) (.cons ⟨rfl, ?_⟩ .nil)
      exact hleafOf hleaf

theorem logInv_step (hrun : run Tables.write (initial py secret hashtext call) schedule = .ok s)
    (h : LogInv py secret hashtext call schedule s) (hs : step Tables.write s i = .ok s') :
    LogInv py secret hashtext call (schedule ++ [i]) s' := by
  by_cases hi : i ∈ schedule
  · obtain ⟨e, he, heheld, hstage⟩ := h.stage i hi
    cases stage_step hstage h.keys h.contiguous h.payloads hs with
    | move hdb hstage' hopen =>
      exact h.move hs hdb ⟨e, he.trans (missed_snoc (.inl hi)).symm, heheld, hstage'⟩ hopen
    | store hp hok hlock hrows hheld hleaves hclient =>
      exact h.store hs hi he heheld hp hok hlock hrows hheld hleaves hclient
    | log he' hok hlock hleaf hdb hclient =>
      exact h.append hs hi (he.mp he') hok hlock hleaf hdb hclient
  · obtain rfl := step_query (h.fresh i hi) hs
    refine h.move hs rfl ⟨s.db.existed (call i).2.key, (missed_first hi hrun).symm, ?_, ?_⟩ ?_
    · exact existed_iff.mp
    · rw [set_same]
      exact .checked _
    · rw [set_same]
      nofun

theorem logInv_run (h : run Tables.write (initial py secret hashtext call) schedule = .ok s) :
    LogInv py secret hashtext call schedule s :=
  Run.invariant (LogInv py secret hashtext call) logInv_init
    (fun _ _ _ _ hrun hm hs => logInv_step hrun hm hs) schedule s h

/-! ## The log at the end -/

/-- The bytes of a call's leaf are those of a stored row exactly when the row is the call's. -/
theorem leafOf_bytes (h : LogInv py secret hashtext call schedule s) {a : Sqlite.AddArgs}
    {r : FingerprintRow} (hr : r ∈ s.db.fingerprints) {payload bytes : Bytes}
    (hp : r.payload = .ok payload) (hl : LeafOf s.db a bytes) : a.key = r.key ↔ bytes = payload := by
  obtain ⟨y, hy, hk, hbytes⟩ := hl
  constructor
  · intro hkey
    have hyr : y = r.fixed :=
      List.inj_on_of_nodup_map h.keys hy (List.mem_map_of_mem hr) (hk.trans hkey)
    rw [hyr, fixed_payload, hp] at hbytes
    exact (Except.ok.inj hbytes).symm
  · rintro rfl
    obtain ⟨hf, hd, hv, -⟩ := Sqlite.canonicalPayload_inj hbytes hp
    rw [← hk]
    exact Prod.ext hf (Prod.ext hd hv)

theorem addBody_unfinished {r : FingerprintRow} {next p : Program} (h : AddBody r next p) :
    p.finished = false := by
  cases h <;> rfl

/-- A call that is over, and whose check found nothing, has its leaf if it was acceptable. -/
theorem Stage.done_iff {now : String} {a : Sqlite.AddArgs} {db : Tables} {holds : ℤ → Prop}
    {c : Client Tables RowWrite ℤ} (h : Stage py secret hashtext now a db holds false c)
    (hover : c.program.finished = true) : c.program = .done ↔ Accepted (.add now a) := by
  cases h with
  | checked => cases hover
  | ready =>
    rcases add_cases py secret hashtext now a (afterAdd a false) with ⟨h, -⟩ | ⟨_, -, -, h⟩
    · rw [h] at hover
      cases hover
    · rw [h] at hover
      cases hover
  | body _ _ _ _ hbody _ =>
    rw [addBody_unfinished hbody] at hover
    cases hover
  | inserted => cases hover
  | returned => cases hover
  | find => cases hover
  | next => cases hover
  | insertLeaf => cases hover
  | writeLeaf => cases hover
  | commitLeaf => cases hover
  | logged hok => exact iff_of_true rfl hok
  | raised _ hno => exact iff_of_false nofun hno

/-- Every row has one leaf, of its canonical payload. -/
def Tables.OneLeafEach (t : Tables) : Prop :=
  ∀ r ∈ t.fingerprints, ∃ payload, r.payload = .ok payload ∧
    t.merkleLeaves.countP (fun l => l.leafBytes = payload) = 1

/-- The log is the rows, each once, under the indices from zero. -/
structure Tables.LogMatches (t : Tables) : Prop where
  contiguous : t.Contiguous
  leaves : ∀ l ∈ t.merkleLeaves, ∃ r ∈ t.fingerprints, r.fingerprint = l.fingerprint ∧
    r.payload = .ok l.leafBytes
  rows : t.OneLeafEach

/-- The calls that appended, in the order of their leaves. -/
theorem LogInv.appended (h : LogInv py secret hashtext call schedule s)
    (hover : ∀ i ∈ schedule, (s.clients i).program.finished = true) :
    ∃ is : List ι, is.Nodup ∧
      (∀ i, i ∈ is ↔
        Missed py secret hashtext call schedule i ∧ Accepted (.add (call i).1 (call i).2)) ∧
      List.Forall₂ (fun i l => l.fingerprint = (call i).2.fingerprint ∧
        LeafOf s.db (call i).2 l.leafBytes) is s.db.merkleLeaves := by
  obtain ⟨is, hnd, hmem, hleaves⟩ := h.log
  refine ⟨is, hnd, fun i => ?_, hleaves⟩
  rw [hmem]
  refine and_congr_right fun hm => ?_
  obtain ⟨e, he, -, hstage⟩ := h.stage i hm.1
  obtain rfl := he.mpr hm
  exact hstage.done_iff (hover i hm.1)

theorem LogInv.leaves (h : LogInv py secret hashtext call schedule s) :
    ∀ l ∈ s.db.merkleLeaves, ∃ r ∈ s.db.fingerprints, r.fingerprint = l.fingerprint ∧
      r.payload = .ok l.leafBytes := by
  obtain ⟨is, -, -, hleaves⟩ := h.log
  intro l hl
  obtain ⟨i, -, hf, y, hy, hk, hbytes⟩ := Rows.mem_forall₂ hleaves.flip hl
  obtain ⟨r, hr, rfl⟩ := List.mem_map.mp hy
  refine ⟨r, hr, ?_, hbytes⟩
  rw [hf]
  exact congrArg (·.1) hk

/-- The leaves of a row are as many as the calls for it that appended. -/
theorem LogInv.oneLeafEach_iff (h : LogInv py secret hashtext call schedule s)
    {is : List ι} (hnd : is.Nodup)
    (hmem : ∀ i, i ∈ is ↔
      Missed py secret hashtext call schedule i ∧ Accepted (.add (call i).1 (call i).2))
    (hleaves : List.Forall₂ (fun i l => l.fingerprint = (call i).2.fingerprint ∧
      LeafOf s.db (call i).2 l.leafBytes) is s.db.merkleLeaves) :
    s.db.OneLeafEach ↔
      ∀ i ∈ is, ∀ j ∈ is, (call i).2.key = (call j).2.key → i = j := by
  have hcount {r : FingerprintRow} (hr : r ∈ s.db.fingerprints) {payload : Bytes}
      (hp : r.payload = .ok payload) :
      s.db.merkleLeaves.countP (fun l => l.leafBytes = payload) =
        is.countP fun i => (call i).2.key = r.key := by
    refine (countP_forall₂ (fun i l hl => ?_) hleaves).symm
    exact decide_eq_decide.mpr (leafOf_bytes h hr hp hl.2)
  have hpayload {r : FingerprintRow} (hr : r ∈ s.db.fingerprints) :
      ∃ payload, r.payload = .ok payload := h.payloads r.fixed (List.mem_map_of_mem hr)
  constructor
  · intro hone i hi j hj hij
    obtain ⟨l, -, -, y, hy, hk, -⟩ := Rows.mem_forall₂ hleaves hi
    obtain ⟨r, hr, rfl⟩ := List.mem_map.mp hy
    obtain ⟨payload, hp, hcard⟩ := hone r hr
    rw [hcount hr hp, Rows.countP_eq_one hnd] at hcard
    exact hcard.2 i hi j hj (by simpa using hk.symm) (by simpa using hij.symm.trans hk.symm)
  · intro hinj r hr
    obtain ⟨payload, hp⟩ := hpayload hr
    refine ⟨payload, hp, ?_⟩
    rw [hcount hr hp, Rows.countP_eq_one hnd]
    refine ⟨?_, fun i hi j hj hik hjk => hinj i hi j hj ?_⟩
    · obtain ⟨i, hm, hok, hk⟩ := h.inserter r.fixed (List.mem_map_of_mem hr)
      exact ⟨i, (hmem i).mpr ⟨hm, hok⟩, by simpa using hk⟩
    · rw [of_decide_eq_true hik, of_decide_eq_true hjk]

theorem not_mem_beforeCheck (schedule : List ι) (i : ι) : i ∉ beforeCheck schedule i := by
  intro h
  simpa using List.mem_takeWhile_imp h

/-- When all calls are over, the log is right exactly if no acceptable call, after another for the
same row has made its check, makes its own before the row is committed. -/
theorem merkle_log_iff (py : Stdlib) (secret : Bytes) (hashtext : String → ℤ)
    (call : ι → String × Sqlite.AddArgs) (schedule : List ι) (s : System Tables RowWrite ℤ ι)
    (hrun : run Tables.write (initial py secret hashtext call) schedule = .ok s)
    (hover : ∀ i ∈ schedule, (s.clients i).program.finished = true) :
    s.db.LogMatches ↔
      ∀ i ∈ schedule, ∀ j ∈ beforeCheck schedule i,
        Accepted (.add (call i).1 (call i).2) → Accepted (.add (call j).1 (call j).2) →
        (call i).2.key = (call j).2.key →
        ∀ m, run Tables.write (initial py secret hashtext call) (beforeCheck schedule i) = .ok m →
          ∃ r ∈ m.db.fingerprints, r.key = (call i).2.key := by
  have hinv := logInv_run hrun
  obtain ⟨is, hnd, hmem, hleaves⟩ := hinv.appended hover
  have hone := hinv.oneLeafEach_iff hnd hmem hleaves
  have hheld {m : System Tables RowWrite ℤ ι} {key : String × String × String} :
      m.db.existed key = true ↔ ∃ r ∈ m.db.fingerprints, r.key = key := by
    simp [Tables.existed]
  constructor
  · intro hlog i hi j hj hoki hokj hkey m hm
    rw [← hheld]
    by_contra hmiss
    rw [Bool.not_eq_true] at hmiss
    have hmi : Missed py secret hashtext call schedule i := ⟨hi, m, hm, hmiss⟩
    -- the other call checked still earlier, and rows are never deleted
    have hmj : Missed py secret hashtext call schedule j := by
      obtain ⟨e, he, hheld, -⟩ := (logInv_run hm).stage j hj
      have hfalse : e = false := by
        cases e with
        | false => rfl
        | true =>
          rw [existed_iff.mpr (hkey ▸ hheld rfl)] at hmiss
          cases hmiss
      obtain ⟨later, hsplit⟩ := beforeCheck_split schedule i
      obtain ⟨-, m', hm', hmiss'⟩ := he.mp hfalse
      refine ⟨hsplit ▸ List.mem_append_left _ hj, m', ?_, hmiss'⟩
      rw [hsplit, beforeCheck_append later hj]
      exact hm'
    have heq : i = j :=
      hone.mp hlog.rows i ((hmem i).mpr ⟨hmi, hoki⟩) j ((hmem j).mpr ⟨hmj, hokj⟩) hkey
    exact not_mem_beforeCheck schedule i (heq ▸ hj)
  · intro hfound
    refine ⟨hinv.contiguous, hinv.leaves, hone.mpr fun i hi j hj hkey => ?_⟩
    have hlate {i j : ι} (hi : i ∈ is) (hj : j ∈ is) (hkey : (call i).2.key = (call j).2.key) :
        j ∉ beforeCheck schedule i := by
      intro hbefore
      obtain ⟨⟨his, m, hm, hmiss⟩, hoki⟩ := (hmem i).mp hi
      have hfind := hfound i his j hbefore hoki ((hmem j).mp hj).2 hkey m hm
      rw [hheld.mpr hfind] at hmiss
      cases hmiss
    by_contra hij
    rcases beforeCheck_total ((hmem i).mp hi).1.1 ((hmem j).mp hj).1.1 hij with h | h
    · exact hlate hi hj hkey h
    · exact hlate hj hi hkey.symm h

end

namespace Sample

def row : Sqlite.AddArgs := ⟨"sha256:aa", "doc", "sha256:01", 0, 5, true⟩

/-- The same row, ingested by two processes. -/
def sameRow : Fin 2 → String × Sqlite.AddArgs
  | 0 => ("2024-01-01T00:00:00.000Z", row)
  | 1 => ("2024-01-03T00:00:00.000Z", row)

def bothCheckFirst : List (Fin 2) := [0, 1] ++ List.replicate 12 0 ++ List.replicate 12 1

def oneAfterTheOther : List (Fin 2) := List.replicate 13 0 ++ List.replicate 7 1

end Sample

theorem merkle_log_iff_sample :
    ∃ s, run Tables.write (initial Sqlite.Sample.py Sqlite.Sample.secret Sample.hashtext
        Sample.sameRow) Sample.oneAfterTheOther = .ok s ∧ s.db.LogMatches := by
  refine ⟨_, rfl, (merkle_log_iff Sqlite.Sample.py Sqlite.Sample.secret Sample.hashtext
    Sample.sameRow Sample.oneAfterTheOther _ rfl ?_).mpr ?_⟩
  · intro i _
    fin_cases i <;> rfl
  · intro i _ j hj _ _ _ m hm
    fin_cases i
    · cases hj
    · obtain rfl := Except.ok.inj hm
      exact ⟨_, List.mem_cons_self, rfl⟩

/-- Two processes ingest one row; each looks for it before the other has stored it. -/
theorem one_row_two_leaves :
    ∃ s, run Tables.write (initial Sqlite.Sample.py Sqlite.Sample.secret Sample.hashtext
        Sample.sameRow) Sample.bothCheckFirst = .ok s ∧
      (∀ i, (s.clients i).program = .done) ∧
      s.db.fingerprints.length = 1 ∧ s.db.merkleLeaves.length = 2 ∧ ¬ s.db.LogMatches := by
  refine ⟨_, rfl, ?_, rfl, rfl, ?_⟩
  · intro i
    fin_cases i <;> rfl
  · intro h
    obtain ⟨payload, hp, hcount⟩ := h.rows _ List.mem_cons_self
    obtain rfl := Except.ok.inj hp
    revert hcount
    decide

end Provenex.Postgres
