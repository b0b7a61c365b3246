import Provenex.Lib.Run

/-! Clients of one database. A statement sees what is committed and what its own
transaction has written; what a transaction has written, and the locks it was
granted, last until it ends. Transactions that lock what they touch leave the
database as if each had run alone, in the order in which they were granted. -/

namespace Transactions

/-- What a client has still to run: `write` collects the row writes of a statement. -/
inductive Program (σ ω κ : Type)
  | lock (k : κ) (rest : Program σ ω κ)
  | query (next : σ → Program σ ω κ)
  | write (stmt : σ → List ω) (rest : Program σ ω κ)
  | commit (rest : Program σ ω κ)
  | rollback
  | raised
  | done

namespace Program

variable {σ ω κ : Type}

/-- The call has returned, or it has raised. -/
def finished : Program σ ω κ → Bool
  | raised => true
  | done => true
  | _ => false

/-- The call has returned. -/
def returned : Program σ ω κ → Bool
  | done => true
  | _ => false

/-- The database after the program, run by itself. -/
def alone (apply : σ → ω → σ) : Program σ ω κ → σ → List ω → σ
  | lock _ rest, s, ws => rest.alone apply s ws
  | query next, s, ws => (next (ws.foldl apply s)).alone apply s ws
  | write stmt rest, s, ws => rest.alone apply s (ws ++ stmt (ws.foldl apply s))
  | commit rest, s, ws => rest.alone apply (ws.foldl apply s) []
  | rollback, s, _ => s
  | raised, s, _ => s
  | done, s, _ => s

/-- Run by itself, the program ends in an exception. -/
def raises (apply : σ → ω → σ) : Program σ ω κ → σ → List ω → Bool
  | lock _ rest, s, ws => rest.raises apply s ws
  | query next, s, ws => (next (ws.foldl apply s)).raises apply s ws
  | write stmt rest, s, ws => rest.raises apply s (ws ++ stmt (ws.foldl apply s))
  | commit rest, s, ws => rest.raises apply (ws.foldl apply s) []
  | rollback, _, _ => true
  | raised, _, _ => true
  | done, _, _ => false

/-- On every path the program ends in an exception. -/
def Doomed : Program σ ω κ → Prop
  | lock _ rest => rest.Doomed
  | query next => ∀ s, (next s).Doomed
  | write _ rest => rest.Doomed
  | commit rest => rest.Doomed
  | rollback => True
  | raised => True
  | done => False

/-- On every path the program ends without one. -/
def Sure : Program σ ω κ → Prop
  | lock _ rest => rest.Sure
  | query next => ∀ s, (next s).Sure
  | write _ rest => rest.Sure
  | commit rest => rest.Sure
  | rollback => False
  | raised => False
  | done => True

/-- What a step leaves of the program. -/
inductive Next : Program σ ω κ → Program σ ω κ → Prop
  | lock (k : κ) (rest : Program σ ω κ) : Next (lock k rest) rest
  | query (next : σ → Program σ ω κ) (s : σ) : Next (query next) (next s)
  | write (stmt : σ → List ω) (rest : Program σ ω κ) : Next (write stmt rest) rest
  | commit (rest : Program σ ω κ) : Next (commit rest) rest
  | rollback : Next rollback raised

theorem returned_iff {p : Program σ ω κ} : p.returned = true ↔ p = .done := by
  cases p <;> simp [returned]

theorem Next.doomed {p q : Program σ ω κ} (h : Next p q) (hp : p.Doomed) : q.Doomed := by
  cases h with
  | query next s => exact hp s
  | _ => exact hp

theorem Next.sure {p q : Program σ ω κ} (h : Next p q) (hp : p.Sure) : q.Sure := by
  cases h with
  | query next s => exact hp s
  | _ => exact hp

end Program

structure Client (σ ω κ : Type) where
  program : Program σ ω κ
  writes : List ω

/-- The committed database, its clients, the locks that are held, and the order in which locks
were granted. -/
structure System (σ ω κ ι : Type) where
  db : σ
  clients : ι → Client σ ω κ
  locks : List (ι × κ)
  granted : List ι

inductive Stuck
  | waits
  | finished
  deriving DecidableEq, Repr

section

variable {σ ω κ ι : Type} [DecidableEq ι] (apply : σ → ω → σ)

namespace System

def init (db : σ) (start : ι → Program σ ω κ) : System σ ω κ ι := ⟨db, fun i => ⟨start i, []⟩, [], []⟩

/-- What a statement of the client sees. -/
def view (s : System σ ω κ ι) (i : ι) : σ := (s.clients i).writes.foldl apply s.db

def set (s : System σ ω κ ι) (i : ι) (c : Client σ ω κ) : System σ ω κ ι :=
  { s with clients := Function.update s.clients i c }

/-- The end of the client's transaction. -/
def close (s : System σ ω κ ι) (i : ι) (db : σ) (rest : Program σ ω κ) : System σ ω κ ι where
  db := db
  clients := Function.update s.clients i ⟨rest, []⟩
  locks := s.locks.filter fun e => e.1 ≠ i
  granted := s.granted

end System

section

variable {s : System σ ω κ ι} {i j : ι}

@[simp] theorem set_same (s : System σ ω κ ι) (i : ι) (c : Client σ ω κ) :
    (s.set i c).clients i = c := by simp [System.set]

theorem set_other (s : System σ ω κ ι) (c : Client σ ω κ) (h : j ≠ i) :
    (s.set i c).clients j = s.clients j := by simp [System.set, h]

@[simp] theorem close_same (s : System σ ω κ ι) (i : ι) (db : σ) (rest : Program σ ω κ) :
    (s.close i db rest).clients i = ⟨rest, []⟩ := by simp [System.close]

theorem close_other (s : System σ ω κ ι) (db : σ) (rest : Program σ ω κ) (h : j ≠ i) :
    (s.close i db rest).clients j = s.clients j := by simp [System.close, h]

end

variable [DecidableEq κ]

/-- The next step of one client. -/
def step (s : System σ ω κ ι) (i : ι) : Except Stuck (System σ ω κ ι) :=
  let c := s.clients i
  match c.program with
  | .lock k rest =>
    if s.locks.any fun e => e.1 ≠ i ∧ e.2 = k then .error .waits
    else .ok { s.set i ⟨rest, c.writes⟩ with
      locks := (i, k) :: s.locks
      granted := s.granted ++ [i] }
  | .query next => .ok (s.set i ⟨next (s.view apply i), c.writes⟩)
  | .write stmt rest => .ok (s.set i ⟨rest, c.writes ++ stmt (s.view apply i)⟩)
  | .commit rest => .ok (s.close i (s.view apply i) rest)
  | .rollback => .ok (s.close i s.db .raised)
  | .raised => .error .finished
  | .done => .error .finished

/-- The clients take steps in this order. -/
def run (s : System σ ω κ ι) (schedule : List ι) : Except Stuck (System σ ω κ ι) :=
  Run.run (step apply) s schedule

variable {apply} {s s' : System σ ω κ ι} {i j : ι}

/-- All that a step can be. -/
theorem step_cases (h : step apply s i = .ok s') :
    (∃ k rest, (s.clients i).program = .lock k rest ∧ (∀ e ∈ s.locks, e.1 ≠ i → e.2 ≠ k) ∧
      s' = { s.set i ⟨rest, (s.clients i).writes⟩ with
        locks := (i, k) :: s.locks, granted := s.granted ++ [i] }) ∨
    (∃ next, (s.clients i).program = .query next ∧
      s' = s.set i ⟨next (s.view apply i), (s.clients i).writes⟩) ∨
    (∃ stmt rest, (s.clients i).program = .write stmt rest ∧
      s' = s.set i ⟨rest, (s.clients i).writes ++ stmt (s.view apply i)⟩) ∨
    (∃ rest, (s.clients i).program = .commit rest ∧ s' = s.close i (s.view apply i) rest) ∨
    ((s.clients i).program = .rollback ∧ s' = s.close i s.db .raised) := by
  unfold step at h
  cases hp : (s.clients i).program with
  | lock k rest =>
    simp only [hp] at h
    split_ifs at h with hany
    refine .inl ⟨k, rest, rfl, ?_, (Except.ok.inj h).symm⟩
    intro e he hi hk
    exact hany (List.any_eq_true.mpr ⟨e, he, by simp [hi, hk]⟩)
  | query next =>
    simp only [hp] at h
    exact .inr (.inl ⟨next, rfl, (Except.ok.inj h).symm⟩)
  | write stmt rest =>
    simp only [hp] at h
    exact .inr (.inr (.inl ⟨stmt, rest, rfl, (Except.ok.inj h).symm⟩))
  | commit rest =>
    simp only [hp] at h
    exact .inr (.inr (.inr (.inl ⟨rest, rfl, (Except.ok.inj h).symm⟩)))
  | rollback =>
    simp only [hp] at h
    exact .inr (.inr (.inr (.inr ⟨rfl, (Except.ok.inj h).symm⟩)))
  | raised => simp [hp] at h
  | done => simp [hp] at h

section

variable {next : σ → Program σ ω κ} {stmt : σ → List ω} {rest : Program σ ω κ} {k : κ}
  {ws : List ω}

theorem step_lock (h : s.clients i = ⟨.lock k rest, ws⟩) (hs : step apply s i = .ok s') :
    s' = { s.set i ⟨rest, ws⟩ with locks := (i, k) :: s.locks, granted := s.granted ++ [i] } := by
  rw [step] at hs
  simp only [h] at hs
  split_ifs at hs
  exact (Except.ok.inj hs).symm

theorem step_query (h : s.clients i = ⟨.query next, ws⟩) (hs : step apply s i = .ok s') :
    s' = s.set i ⟨next (ws.foldl apply s.db), ws⟩ := by
  rw [step, System.view] at hs
  simp only [h] at hs
  exact (Except.ok.inj hs).symm

theorem step_write (h : s.clients i = ⟨.write stmt rest, ws⟩) (hs : step apply s i = .ok s') :
    s' = s.set i ⟨rest, ws ++ stmt (ws.foldl apply s.db)⟩ := by
  rw [step, System.view] at hs
  simp only [h] at hs
  exact (Except.ok.inj hs).symm

theorem step_commit (h : s.clients i = ⟨.commit rest, ws⟩) (hs : step apply s i = .ok s') :
    s' = s.close i (ws.foldl apply s.db) rest := by
  rw [step, System.view] at hs
  simp only [h] at hs
  exact (Except.ok.inj hs).symm

theorem step_rollback (h : s.clients i = ⟨.rollback, ws⟩) (hs : step apply s i = .ok s') :
    s' = s.close i s.db .raised := by
  rw [step] at hs
  simp only [h] at hs
  exact (Except.ok.inj hs).symm

theorem step_stuck (h : (s.clients i).program.finished = true) : step apply s i ≠ .ok s' := by
  intro hs
  rw [step] at hs
  cases hp : (s.clients i).program <;> simp [hp, Program.finished] at h hs

/-- The locks of the others stay. -/
theorem step_locks (hs : step apply s i = .ok s') (hj : j ≠ i) {k : κ} (h : (j, k) ∈ s.locks) :
    (j, k) ∈ s'.locks := by
  rcases step_cases hs with ⟨k, rest, -, -, rfl⟩ | ⟨next, -, rfl⟩ | ⟨stmt, rest, -, rfl⟩ |
    ⟨rest, -, rfl⟩ | ⟨-, rfl⟩
  · exact List.mem_cons_of_mem _ h
  · exact h
  · exact h
  · exact List.mem_filter.mpr ⟨h, by simpa using hj⟩
  · exact List.mem_filter.mpr ⟨h, by simpa using hj⟩

end

/-- A step is that of one client. -/
theorem step_other (h : step apply s i = .ok s') (hj : j ≠ i) : s'.clients j = s.clients j := by
  rcases step_cases h with ⟨k, rest, -, -, rfl⟩ | ⟨next, -, rfl⟩ | ⟨stmt, rest, -, rfl⟩ |
    ⟨rest, -, rfl⟩ | ⟨-, rfl⟩
  · exact set_other s _ hj
  · exact set_other s _ hj
  · exact set_other s _ hj
  · exact close_other s _ _ hj
  · exact close_other s _ _ hj

/-- No lock has two holders. -/
def Exclusive (s : System σ ω κ ι) : Prop :=
  ∀ e ∈ s.locks, ∀ e' ∈ s.locks, e.2 = e'.2 → e.1 = e'.1

theorem exclusive_step (h : step apply s i = .ok s') (hx : Exclusive s) : Exclusive s' := by
  rcases step_cases h with ⟨k, rest, -, hfree, rfl⟩ | ⟨next, -, rfl⟩ | ⟨stmt, rest, -, rfl⟩ |
    ⟨rest, -, rfl⟩ | ⟨-, rfl⟩
  · intro e he e' he' hk
    rcases List.mem_cons.mp he with rfl | he
    · rcases List.mem_cons.mp he' with rfl | he'
      · rfl
      · by_contra hne
        exact hfree e' he' (Ne.symm hne) hk.symm
    · rcases List.mem_cons.mp he' with rfl | he'
      · by_contra hne
        exact hfree e he hne hk
      · exact hx e he e' he' hk
  · exact hx
  · exact hx
  · intro e he e' he' hk
    exact hx e (List.mem_filter.mp he).1 e' (List.mem_filter.mp he').1 hk
  · intro e he e' he' hk
    exact hx e (List.mem_filter.mp he).1 e' (List.mem_filter.mp he').1 hk

theorem step_next (h : step apply s i = .ok s') (j : ι) :
    (s'.clients j).program = (s.clients j).program ∨
      (s.clients j).program.Next (s'.clients j).program := by
  by_cases hji : j = i
  · subst hji
    right
    rcases step_cases h with ⟨k, rest, hp, -, rfl⟩ | ⟨next, hp, rfl⟩ | ⟨stmt, rest, hp, rfl⟩ |
      ⟨rest, hp, rfl⟩ | ⟨hp, rfl⟩
    · rw [hp]
      simpa [System.set] using Program.Next.lock k rest
    · rw [hp, set_same]
      exact .query next _
    · rw [hp, set_same]
      exact .write stmt rest
    · rw [hp, close_same]
      exact .commit rest
    · rw [hp, close_same]
      exact .rollback
  · rw [step_other h hji]
    exact .inl rfl

/-- What holds of a program, and of what each step of it leaves, holds all along. -/
theorem run_kept {P : Program σ ω κ → Prop} (hP : ∀ p q, Program.Next p q → P p → P q) {db : σ}
    {start : ι → Program σ ω κ} {schedule : List ι}
    (h : run apply (.init db start) schedule = .ok s) (hj : P (start j)) :
    P (s.clients j).program := by
  refine Run.invariant (fun _ (s : System σ ω κ ι) => P (s.clients j).program) hj ?_ schedule s h
  intro _ _ _ _ _ hm hs
  rcases step_next hs j with heq | hnext
  · rwa [heq]
  · exact hP _ _ hnext hm

/-- A call that cannot but raise has not returned. -/
theorem run_not_done {db : σ} {start : ι → Program σ ω κ} {schedule : List ι}
    (h : run apply (.init db start) schedule = .ok s) (hj : (start j).Doomed) :
    (s.clients j).program ≠ .done := by
  intro hdone
  have hdoomed := run_kept (P := Program.Doomed) (fun _ _ => Program.Next.doomed) h hj
  rw [hdone] at hdoomed
  exact hdoomed

/-- A call that cannot raise has not raised. -/
theorem run_not_raised {db : σ} {start : ι → Program σ ω κ} {schedule : List ι}
    (h : run apply (.init db start) schedule = .ok s) (hj : (start j).Sure) :
    (s.clients j).program ≠ .raised := by
  intro hraised
  have hsure := run_kept (P := Program.Sure) (fun _ _ => Program.Next.sure) h hj
  rw [hraised] at hsure
  exact hsure

end

/-! ## Programs that touch one part -/

section

variable {σ ω κ ρ P : Type} (apply : σ → ω → σ) (part : ρ → σ → P)

/-- The write depends on this part of the database, and changes no other. -/
structure Confined (r : ρ) (w : ω) : Prop where
  congr : ∀ s s', part r s = part r s' → part r (apply s w) = part r (apply s' w)
  frame : ∀ r', r' ≠ r → ∀ s, part r' (apply s w) = part r' s

/-- The rest of one transaction, which reads and writes this part. -/
def Program.Owned (r : ρ) : Program σ ω κ → Prop
  | .query next => (∀ s s', part r s = part r s' → next s = next s') ∧ ∀ s, (next s).Owned r
  | .write stmt rest => (∀ s s', part r s = part r s' → stmt s = stmt s') ∧
      (∀ s, ∀ w ∈ stmt s, Confined apply part r w) ∧ rest.Owned r
  | .commit rest => rest = .done
  | .rollback => True
  | _ => False

/-- One transaction, which locks the part that it owns before it reads; or a call that raises
before it begins one. -/
def Program.Locks (k : κ) (r : ρ) (p : Program σ ω κ) : Prop :=
  p = .rollback ∨ ∃ body, p = .lock k body ∧ body.Owned apply part r

variable {apply part} {r r' : ρ} {ws : List ω}

theorem foldl_congr (hws : ∀ w ∈ ws, Confined apply part r w) {s s' : σ}
    (h : part r s = part r s') : part r (ws.foldl apply s) = part r (ws.foldl apply s') := by
  induction ws generalizing s s' with
  | nil => exact h
  | cons w ws ih =>
    obtain ⟨hw, hws⟩ := List.forall_mem_cons.mp hws
    exact ih hws (hw.congr s s' h)

theorem foldl_frame (hws : ∀ w ∈ ws, Confined apply part r w) (hr : r' ≠ r) (s : σ) :
    part r' (ws.foldl apply s) = part r' s := by
  induction ws generalizing s with
  | nil => rfl
  | cons w ws ih =>
    obtain ⟨hw, hws⟩ := List.forall_mem_cons.mp hws
    exact (ih hws _).trans (hw.frame r' hr s)

/-- What the rest of the transaction leaves of its part follows from that part. -/
theorem alone_congr {p : Program σ ω κ} (hp : p.Owned apply part r)
    (hws : ∀ w ∈ ws, Confined apply part r w) {s s' : σ} (h : part r s = part r s') :
    part r (p.alone apply s ws) = part r (p.alone apply s' ws) := by
  induction p generalizing ws with
  | lock k rest => exact hp.elim
  | query next ih =>
    rw [Program.alone, Program.alone, hp.1 _ _ (foldl_congr hws h)]
    exact ih _ (hp.2 _) hws
  | write stmt rest ih =>
    rw [Program.alone, Program.alone, hp.1 _ _ (foldl_congr hws h)]
    refine ih hp.2.2 fun w hw => ?_
    rcases List.mem_append.mp hw with hw | hw
    · exact hws w hw
    · exact hp.2.1 _ w hw
  | commit rest ih =>
    obtain rfl : rest = .done := hp
    exact foldl_congr hws h
  | rollback => exact h
  | raised => exact hp.elim
  | done => exact hp.elim

theorem alone_frame {p : Program σ ω κ} (hp : p.Owned apply part r)
    (hws : ∀ w ∈ ws, Confined apply part r w) (hr : r' ≠ r) (s : σ) :
    part r' (p.alone apply s ws) = part r' s := by
  induction p generalizing ws with
  | lock k rest => exact hp.elim
  | query next ih => exact ih _ (hp.2 _) hws
  | write stmt rest ih =>
    refine ih hp.2.2 fun w hw => ?_
    rcases List.mem_append.mp hw with hw | hw
    · exact hws w hw
    · exact hp.2.1 _ w hw
  | commit rest ih =>
    obtain rfl : rest = .done := hp
    exact foldl_frame hws hr s
  | rollback => rfl
  | raised => exact hp.elim
  | done => exact hp.elim

theorem raises_of_doomed {p : Program σ ω κ} (h : p.Doomed) (s : σ) (ws : List ω) :
    p.raises apply s ws = true := by
  induction p generalizing s ws with
  | lock k rest ih => exact ih h s ws
  | query next ih => exact ih _ (h _) s ws
  | write stmt rest ih => exact ih h s _
  | commit rest ih => exact ih h _ _
  | rollback => rfl
  | raised => rfl
  | done => exact h.elim

/-- A transaction that raises is rolled back. -/
theorem Program.Owned.alone_doomed {p : Program σ ω κ} (hp : p.Owned apply part r) (h : p.Doomed)
    (s : σ) : p.alone apply s ws = s := by
  induction p generalizing ws with
  | lock k rest => exact hp.elim
  | query next ih => exact ih _ (hp.2 _) (h _)
  | write stmt rest ih => exact ih hp.2.2 h
  | commit rest ih =>
    obtain rfl : rest = .done := hp
    exact h.elim
  | rollback => rfl
  | raised => exact hp.elim
  | done => exact hp.elim

theorem Program.Locks.alone_doomed {k : κ} {p : Program σ ω κ} (hp : p.Locks apply part k r)
    (h : p.Doomed) (s : σ) : p.alone apply s [] = s := by
  rcases hp with rfl | ⟨body, rfl, howned⟩
  · rfl
  · exact howned.alone_doomed h s

theorem Program.Owned.unfinished {p : Program σ ω κ} (hp : p.Owned apply part r) :
    p.finished = false := by
  cases p with
  | raised => exact hp.elim
  | done => exact hp.elim
  | _ => rfl

end

/-! ## Serial runs -/

section

variable {σ ω κ ρ P ι : Type} (apply : σ → ω → σ) (part : ρ → σ → P) (start : ι → Program σ ω κ)
  (owner : ι → ρ) (key : ρ → κ)

/-- The calls one after another, each by itself. -/
def serial (is : List ι) (db : σ) : σ := is.foldl (fun d i => (start i).alone apply d []) db

structure Waiting (s : System σ ω κ ι) (i : ι) : Prop where
  fresh : s.clients i = ⟨start i, []⟩
  granted : i ∉ s.granted

/-- What the client's transaction still does, from the committed state, is all that it does. -/
structure Running (s : System σ ω κ ι) (i : ι) : Prop where
  granted : i ∈ s.granted
  lock : (i, key (owner i)) ∈ s.locks
  owned : (s.clients i).program.Owned apply part (owner i)
  writes : ∀ w ∈ (s.clients i).writes, Confined apply part (owner i) w
  rest : part (owner i) ((s.clients i).program.alone apply s.db (s.clients i).writes) =
    part (owner i) ((start i).alone apply s.db [])

def Over (s : System σ ω κ ι) (i : ι) : Prop := (s.clients i).program.finished = true

/-- What a step of another client leaves of this one. -/
structure Unmoved (s s' : System σ ω κ ι) (j : ι) : Prop where
  client : s'.clients j = s.clients j
  granted : j ∈ s'.granted ↔ j ∈ s.granted
  locks : ∀ k, (j, k) ∈ s.locks → (j, k) ∈ s'.locks

variable {apply part start owner key} {s s' : System σ ω κ ι} {i j : ι} {db : σ} {r : ρ}

theorem Running.not_over (h : Running apply part start owner key s i) : ¬ Over s i := by
  rw [Over, h.owned.unfinished]
  exact Bool.false_ne_true

theorem start_congr (hstart : (start i).Locks apply part (key (owner i)) (owner i)) {d d' : σ}
    (h : part (owner i) d = part (owner i) d') :
    part (owner i) ((start i).alone apply d []) = part (owner i) ((start i).alone apply d' []) := by
  rcases hstart with hroll | ⟨body, hbody, howned⟩
  · rw [hroll]
    exact h
  · rw [hbody]
    exact alone_congr howned (by simp) h

theorem start_frame (hstart : (start i).Locks apply part (key (owner i)) (owner i))
    (hr : r ≠ owner i) (d : σ) : part r ((start i).alone apply d []) = part r d := by
  rcases hstart with hroll | ⟨body, hbody, howned⟩
  · rw [hroll]
    rfl
  · rw [hbody]
    exact alone_frame howned (by simp) hr d

theorem Waiting.kept (h : Waiting start s j) (hu : Unmoved s s' j) : Waiting start s' j :=
  ⟨by rw [hu.client, h.fresh], fun hg => h.granted (hu.granted.mp hg)⟩

theorem Running.kept (h : Running apply part start owner key s j)
    (hstart : (start j).Locks apply part (key (owner j)) (owner j)) (hu : Unmoved s s' j)
    (hdb : part (owner j) s'.db = part (owner j) s.db) :
    Running apply part start owner key s' j := by
  refine ⟨hu.granted.mpr h.granted, hu.locks _ h.lock, ?_, ?_, ?_⟩
  · rw [hu.client]
    exact h.owned
  · rw [hu.client]
    exact h.writes
  · rw [hu.client, alone_congr h.owned h.writes hdb, h.rest]
    exact (start_congr hstart hdb).symm

theorem Over.kept (h : Over s j) (hu : Unmoved s s' j) : Over s' j := by
  rw [Over, hu.client]
  exact h

/-- Only the calls that own a part matter to it. -/
theorem serial_filter [DecidableEq ρ]
    (hstart : ∀ i, (start i).Locks apply part (key (owner i)) (owner i)) (is : List ι) (db : σ) :
    part r (serial apply start is db) =
      part r (serial apply start (is.filter (owner · = r)) db) := by
  have hcongr (l : List ι) (hl : ∀ i ∈ l, owner i = r) {d d' : σ} (h : part r d = part r d') :
      part r (serial apply start l d) = part r (serial apply start l d') := by
    induction l generalizing d d' with
    | nil => exact h
    | cons i l ih =>
      obtain ⟨rfl, hl⟩ := List.forall_mem_cons.mp hl
      exact ih hl (start_congr (hstart i) h)
  induction is generalizing db with
  | nil => rfl
  | cons i is ih =>
    by_cases hi : owner i = r
    · rw [List.filter_cons_of_pos (by simpa using hi)]
      exact ih _
    · rw [List.filter_cons_of_neg (by simpa using hi)]
      refine (ih _).trans (hcongr _ (fun j hj => by simpa using (List.mem_filter.mp hj).2) ?_)
      exact start_frame (hstart i) (Ne.symm hi) db

end

section

variable {σ ω κ ρ P ι : Type} [DecidableEq ρ] (apply : σ → ω → σ) (part : ρ → σ → P)
  (start : ι → Program σ ω κ) (owner : ι → ρ) (key : ρ → κ)

/-- Every part of the database is what the calls that are over have left of it, in the order
in which they were granted; one more may be at work on it. -/
structure Serial (db : σ) (s : System σ ω κ ι) : Prop where
  exclusive : Exclusive s
  client : ∀ i, Waiting start s i ∨ Running apply part start owner key s i ∨ Over s i
  order : ∀ r, ∃ l, (∀ j ∈ l, Over s j) ∧ part r s.db = part r (serial apply start l db) ∧
    (s.granted.filter (owner · = r) = l ∨ ∃ i, Running apply part start owner key s i ∧
      owner i = r ∧ s.granted.filter (owner · = r) = l ++ [i])

variable {apply part start owner key} {s s' : System σ ω κ ι} {i j : ι} {db : σ}

theorem Serial.init : Serial apply part start owner key db (.init db start) := by
  refine ⟨?_, ?_, ?_⟩
  · intro e he
    cases he
  · exact fun i => .inl ⟨rfl, List.not_mem_nil⟩
  · exact fun r => ⟨[], by simp, rfl, .inl rfl⟩

/-- Where the client runs, no other does on its part. -/
theorem Serial.running (h : Serial apply part start owner key db s)
    (hi : Running apply part start owner key s i) :
    ∃ l, (∀ j ∈ l, Over s j) ∧ part (owner i) s.db = part (owner i) (serial apply start l db) ∧
      s.granted.filter (owner · = owner i) = l ++ [i] := by
  obtain ⟨l, hl, hdb, hlist | ⟨j, hj, hjo, hlist⟩⟩ := h.order (owner i)
  · have hmem : i ∈ l := hlist ▸ List.mem_filter.mpr ⟨hi.granted, by simp⟩
    exact absurd (hl i hmem) hi.not_over
  · obtain rfl : j = i :=
      h.exclusive _ hj.lock _ hi.lock (congrArg key hjo)
    exact ⟨l, hl, hdb, hlist⟩

/-- The others where they were, when one client makes a step. -/
theorem Serial.clients [DecidableEq ι] (h : Serial apply part start owner key db s)
    (hu : ∀ j, j ≠ i → Unmoved s s' j)
    (hkept : ∀ j, j ≠ i → Running apply part start owner key s j →
      Running apply part start owner key s' j)
    (hi : Waiting start s' i ∨ Running apply part start owner key s' i ∨ Over s' i) (j : ι) :
    Waiting start s' j ∨ Running apply part start owner key s' j ∨ Over s' j := by
  by_cases hj : j = i
  · exact hj ▸ hi
  · exact (h.client j).imp (·.kept (hu j hj)) (Or.imp (hkept j hj) (·.kept (hu j hj)))

variable [DecidableEq ι]

theorem unmoved_close {d : σ} {p : Program σ ω κ} (hj : j ≠ i) : Unmoved s (s.close i d p) j :=
  ⟨close_other s d p hj, .rfl, fun k hk => List.mem_filter.mpr ⟨hk, by simpa using hj⟩⟩

theorem exclusive_close {d : σ} {p : Program σ ω κ} (h : Exclusive s) : Exclusive (s.close i d p) :=
  fun e he e' he' hk => h e (List.mem_filter.mp he).1 e' (List.mem_filter.mp he').1 hk

theorem over_close {d : σ} {p : Program σ ω κ} (hp : p.finished = true) : Over (s.close i d p) i := by
  rw [Over, close_same]
  exact hp

theorem Over.close {d : σ} {p : Program σ ω κ} (hp : p.finished = true) (hj : Over s j) :
    Over (s.close i d p) j := by
  by_cases hji : j = i
  · exact hji ▸ over_close hp
  · exact hj.kept (unmoved_close hji)

/-- A step within a transaction. -/
theorem Serial.move (h : Serial apply part start owner key db s)
    (hstart : ∀ i, (start i).Locks apply part (key (owner i)) (owner i))
    (hi : Running apply part start owner key s i) {c : Client σ ω κ}
    (hi' : Running apply part start owner key (s.set i c) i) :
    Serial apply part start owner key db (s.set i c) := by
  have hu (j : ι) (hj : j ≠ i) : Unmoved s (s.set i c) j := ⟨set_other s c hj, .rfl, fun _ => id⟩
  have hover (j : ι) (hj : Over s j) : Over (s.set i c) j :=
    hj.kept (hu j (by rintro rfl; exact hi.not_over hj))
  have hkept (j : ι) (hj : j ≠ i) (hjrun : Running apply part start owner key s j) :
      Running apply part start owner key (s.set i c) j := hjrun.kept (hstart j) (hu j hj) rfl
  refine ⟨h.exclusive, h.clients hu hkept (.inr (.inl hi')), ?_⟩
  intro r
  obtain ⟨l, hl, hdb, hlist⟩ := h.order r
  refine ⟨l, fun j hj => hover j (hl j hj), hdb, hlist.imp_right ?_⟩
  rintro ⟨j, hj, hjo, hlist⟩
  by_cases hji : j = i
  · exact ⟨j, hji ▸ hi', hjo, hlist⟩
  · exact ⟨j, hkept j hji hj, hjo, hlist⟩

/-- The end of a transaction. -/
theorem Serial.finish (h : Serial apply part start owner key db s)
    (hstart : ∀ i, (start i).Locks apply part (key (owner i)) (owner i))
    (hi : Running apply part start owner key s i) {d : σ} {p : Program σ ω κ}
    (hp : p.finished = true)
    (hown : part (owner i) d = part (owner i) ((start i).alone apply s.db []))
    (hframe : ∀ r, r ≠ owner i → part r d = part r s.db) :
    Serial apply part start owner key db (s.close i d p) := by
  have hparts {j : ι} (hj : Running apply part start owner key s j) (hji : j ≠ i) :
      owner j ≠ owner i := fun ho =>
    hji (h.exclusive _ hj.lock _ hi.lock (congrArg key ho))
  have hkept (j : ι) (hji : j ≠ i) (hj : Running apply part start owner key s j) :
      Running apply part start owner key (s.close i d p) j :=
    hj.kept (hstart j) (unmoved_close hji) (hframe _ (hparts hj hji))
  refine ⟨exclusive_close h.exclusive,
    h.clients (fun _ => unmoved_close) hkept (.inr (.inr (over_close hp))), ?_⟩
  intro r
  by_cases hr : r = owner i
  · subst hr
    obtain ⟨l, hl, hdb, hlist⟩ := h.running hi
    refine ⟨l ++ [i], ?_, ?_, .inl hlist⟩
    · intro j hj
      rcases List.mem_append.mp hj with hj | hj
      · exact (hl j hj).close hp
      · exact List.mem_singleton.mp hj ▸ over_close hp
    · rw [serial, List.foldl_append]
      exact hown.trans (start_congr (hstart i) hdb)
  · obtain ⟨l, hl, hdb, hlist⟩ := h.order r
    refine ⟨l, fun j hj => (hl j hj).close hp, (hframe r hr).trans hdb, hlist.imp_right ?_⟩
    rintro ⟨j, hj, rfl, hlist⟩
    exact ⟨j, hkept j (by rintro rfl; exact hr rfl) hj, rfl, hlist⟩

/-- A call that raises before its transaction. -/
theorem Serial.reject (h : Serial apply part start owner key db s)
    (hstart : ∀ i, (start i).Locks apply part (key (owner i)) (owner i))
    (hi : Waiting start s i) : Serial apply part start owner key db (s.close i s.db .raised) := by
  have hkept (j : ι) (hji : j ≠ i) (hj : Running apply part start owner key s j) :
      Running apply part start owner key (s.close i s.db .raised) j :=
    hj.kept (hstart j) (unmoved_close hji) rfl
  refine ⟨exclusive_close h.exclusive,
    h.clients (fun _ => unmoved_close) hkept (.inr (.inr (over_close rfl))), ?_⟩
  intro r
  obtain ⟨l, hl, hdb, hlist⟩ := h.order r
  refine ⟨l, fun j hj => (hl j hj).close rfl, hdb, hlist.imp_right ?_⟩
  rintro ⟨j, hj, hjo, hlist⟩
  refine ⟨j, hkept j ?_ hj, hjo, hlist⟩
  rintro rfl
  exact hi.granted hj.granted

/-- The lock that begins a transaction. -/
theorem Serial.begin (h : Serial apply part start owner key db s)
    (hstart : ∀ i, (start i).Locks apply part (key (owner i)) (owner i))
    (hi : Waiting start s i) {body : Program σ ω κ}
    (hbody : start i = .lock (key (owner i)) body) (howned : body.Owned apply part (owner i))
    (hfree : ∀ e ∈ s.locks, e.1 ≠ i → e.2 ≠ key (owner i)) {s' : System σ ω κ ι}
    (hs' : s' = { s.set i ⟨body, []⟩ with
      locks := (i, key (owner i)) :: s.locks, granted := s.granted ++ [i] })
    (hx : Exclusive s') : Serial apply part start owner key db s' := by
  subst hs'
  set s' : System σ ω κ ι := { s.set i ⟨body, []⟩ with
    locks := (i, key (owner i)) :: s.locks, granted := s.granted ++ [i] } with hs'
  have hu (j : ι) (hj : j ≠ i) : Unmoved s s' j :=
    ⟨set_other s _ hj, by simp [hs', hj], fun k hk => List.mem_cons_of_mem _ hk⟩
  have hclient : s'.clients i = ⟨body, []⟩ := set_same s i _
  have hi' : Running apply part start owner key s' i := by
    refine ⟨by simp [hs'], List.mem_cons_self, ?_, ?_, ?_⟩
    · rw [hclient]
      exact howned
    · rw [hclient]
      simp
    · rw [hclient, hbody]
      rfl
  have hover (j : ι) (hj : Over s j) : Over s' j := by
    refine hj.kept (hu j ?_)
    rintro rfl
    rw [Over, hi.fresh, hbody] at hj
    cases hj
  have hne {j : ι} (hj : Running apply part start owner key s j) : j ≠ i := by
    rintro rfl
    exact hi.granted hj.granted
  have hkept (j : ι) (hj : j ≠ i) (hjrun : Running apply part start owner key s j) :
      Running apply part start owner key s' j := hjrun.kept (hstart j) (hu j hj) rfl
  refine ⟨hx, h.clients hu hkept (.inr (.inl hi')), ?_⟩
  intro r
  obtain ⟨l, hl, hdb, hlist⟩ := h.order r
  refine ⟨l, fun j hj => hover j (hl j hj), hdb, ?_⟩
  by_cases hr : owner i = r
  · subst hr
    rcases hlist with hlist | ⟨j, hj, hjo, -⟩
    · refine .inr ⟨i, hi', rfl, ?_⟩
      simp [hs', List.filter_append, hlist]
    · -- the part is free, since its lock was
      exact absurd (congrArg key hjo) (hfree _ hj.lock (hne hj))
  · have hfilter : s'.granted.filter (owner · = r) = s.granted.filter (owner · = r) := by
      simp [hs', List.filter_append, hr]
    rw [hfilter]
    refine hlist.imp_right ?_
    rintro ⟨j, hj, hjo, hlist⟩
    exact ⟨j, hkept j (hne hj) hj, hjo, hlist⟩

variable [DecidableEq κ]

theorem Serial.step (h : Serial apply part start owner key db s)
    (hstart : ∀ i, (start i).Locks apply part (key (owner i)) (owner i))
    (hs : step apply s i = .ok s') : Serial apply part start owner key db s' := by
  have hx := exclusive_step hs h.exclusive
  rcases h.client i with hi | hi | hi
  · have hprogram : (s.clients i).program = start i := by rw [hi.fresh]
    have hwrites : (s.clients i).writes = [] := by rw [hi.fresh]
    rcases hstart i with hroll | ⟨body, hbody, howned⟩
    · rcases step_cases hs with ⟨_, _, hp, -⟩ | ⟨_, hp, -⟩ | ⟨_, _, hp, -⟩ | ⟨_, hp, -⟩ | ⟨-, rfl⟩
      · rw [hprogram, hroll] at hp; cases hp
      · rw [hprogram, hroll] at hp; cases hp
      · rw [hprogram, hroll] at hp; cases hp
      · rw [hprogram, hroll] at hp; cases hp
      · exact h.reject hstart hi
    · rcases step_cases hs with ⟨k, rest, hp, hfree, hs'⟩ | ⟨_, hp, -⟩ | ⟨_, _, hp, -⟩ |
        ⟨_, hp, -⟩ | ⟨hp, -⟩
      · rw [hprogram, hbody] at hp
        cases hp
        rw [hwrites] at hs'
        exact h.begin hstart hi hbody howned hfree hs' hx
      · rw [hprogram, hbody] at hp; cases hp
      · rw [hprogram, hbody] at hp; cases hp
      · rw [hprogram, hbody] at hp; cases hp
      · rw [hprogram, hbody] at hp; cases hp
  · have howned := hi.owned
    have hrest := hi.rest
    rcases step_cases hs with ⟨_, _, hp, -⟩ | ⟨next, hp, rfl⟩ | ⟨stmt, rest, hp, rfl⟩ |
      ⟨rest, hp, rfl⟩ | ⟨hp, rfl⟩ <;> rw [hp] at howned hrest
    · exact howned.elim
    · refine h.move hstart hi ⟨hi.granted, hi.lock, ?_, ?_, ?_⟩
      · rw [set_same]
        exact howned.2 _
      · rw [set_same]
        exact hi.writes
      · rw [set_same]
        exact hrest
    · refine h.move hstart hi ⟨hi.granted, hi.lock, ?_, ?_, ?_⟩
      · rw [set_same]
        exact howned.2.2
      · rw [set_same]
        intro w hw
        rcases List.mem_append.mp hw with hw | hw
        · exact hi.writes w hw
        · exact howned.2.1 _ w hw
      · rw [set_same]
        exact hrest
    · obtain rfl : rest = .done := howned
      exact h.finish hstart hi rfl hrest fun r hr => foldl_frame hi.writes hr _
    · exact h.finish hstart hi rfl hrest fun _ _ => rfl
  · exact absurd hs (step_stuck hi)

/-- Every run of transactions that lock what they own. -/
theorem run_serial (hstart : ∀ i, (start i).Locks apply part (key (owner i)) (owner i))
    {schedule : List ι} (h : run apply (.init db start) schedule = .ok s) :
    Serial apply part start owner key db s :=
  Run.invariant (fun _ s => Serial apply part start owner key db s) Serial.init
    (fun _ _ _ _ _ hm hs => hm.step hstart hs) schedule s h

variable (owner key) in
/-- When no transaction is open, every part is as if the calls had run one after another, in the
order in which their locks were granted. -/
theorem serialisable (hstart : ∀ i, (start i).Locks apply part (key (owner i)) (owner i))
    {schedule : List ι} (h : run apply (.init db start) schedule = .ok s)
    (hover : ∀ i ∈ s.granted, Over s i) (r : ρ) :
    part r s.db = part r (serial apply start s.granted db) := by
  obtain ⟨l, -, hdb, hlist | ⟨i, hi, -, -⟩⟩ := (run_serial hstart h).order r
  · rw [hdb, serial_filter hstart s.granted, hlist]
  · exact absurd (hover i hi.granted) hi.not_over

/-- The calls that have returned, in the order in which they got their locks. -/
def System.returned (s : System σ ω κ ι) : List ι :=
  s.granted.filter fun i => (s.clients i).program.returned

omit [DecidableEq ρ] in
/-- Those that are over are those that have returned, and some that cannot but raise. -/
theorem serial_returned (hstart : ∀ i, (start i).Locks apply part (key (owner i)) (owner i))
    (hends : ∀ i, (start i).Doomed ∨ (start i).Sure) {schedule : List ι}
    (h : run apply (.init db start) schedule = .ok s) (is : List ι) (d : σ) :
    serial apply start (is.filter fun i => (s.clients i).program.finished) d =
      serial apply start (is.filter fun i => (s.clients i).program.returned) d := by
  induction is generalizing d with
  | nil => rfl
  | cons i is ih =>
    cases hp : (s.clients i).program with
    | done =>
      rw [List.filter_cons_of_pos (by rw [hp]; rfl), List.filter_cons_of_pos (by rw [hp]; rfl)]
      exact ih _
    | raised =>
      have hdoomed := (hends i).resolve_right fun hsure => run_not_raised h hsure hp
      rw [List.filter_cons_of_pos (by rw [hp]; rfl),
        List.filter_cons_of_neg (by simp [hp, Program.returned]), ← ih, serial, List.foldl_cons,
        (hstart i).alone_doomed hdoomed, serial]
    | _ =>
      rw [List.filter_cons_of_neg (by simp [hp, Program.finished]),
        List.filter_cons_of_neg (by simp [hp, Program.returned])]
      exact ih d

variable (owner key) in
/-- At every moment, every part is as if the calls that have returned had run one after another. -/
theorem returned_serial (hstart : ∀ i, (start i).Locks apply part (key (owner i)) (owner i))
    (hends : ∀ i, (start i).Doomed ∨ (start i).Sure) {schedule : List ι}
    (h : run apply (.init db start) schedule = .ok s) (r : ρ) :
    part r s.db = part r (serial apply start s.returned db) := by
  obtain ⟨l, hl, hdb, hlist⟩ := (run_serial hstart h).order r
  have hfinished : l.filter (fun i => (s.clients i).program.finished) = l :=
    List.filter_eq_self.mpr hl
  have hover : (s.granted.filter fun i => (s.clients i).program.finished).filter (owner · = r) =
      l := by
    rw [List.filter_filter, List.filter_congr fun i _ => Bool.and_comm _ _, ← List.filter_filter]
    rcases hlist with hlist | ⟨i, hi, -, hlist⟩
    · rw [hlist, hfinished]
    · have hopen : (s.clients i).program.finished = false := hi.owned.unfinished
      rw [hlist, List.filter_append, hfinished, List.filter_cons_of_neg (by simp [hopen]),
        List.filter_nil, List.append_nil]
  rw [hdb, System.returned, ← serial_returned hstart hends h, serial_filter hstart (s.granted.filter _),
    hover]

end

end Transactions
