import Mathlib.Tactic

/-! A call as the steps that it takes. The first that raises ends it, and what
the steps before it have done remains. A call that is cut short has taken the
first of its steps. -/

namespace Steps

section

variable {σ α ε : Type} (step : σ → α → Except ε σ)

/-- How the steps end, and the state that they leave. -/
def execute : σ → List α → Except ε Unit × σ
  | s, [] => (.ok (), s)
  | s, a :: as =>
    match step s a with
    | .error e => (.error e, s)
    | .ok s' => execute s' as

variable {step} {s s' : σ} {a : α} {as bs : List α}

@[simp] theorem execute_nil : execute step s [] = (.ok (), s) := rfl

theorem execute_cons_ok (h : step s a = .ok s') :
    execute step s (a :: as) = execute step s' as := by
  rw [execute, h]

theorem execute_cons_error {e : ε} (h : step s a = .error e) :
    execute step s (a :: as) = (.error e, s) := by
  rw [execute, h]

/-- Steps after a call that has returned. -/
theorem execute_append (h : execute step s as = (.ok (), s')) :
    execute step s (as ++ bs) = execute step s' bs := by
  induction as generalizing s with
  | nil =>
    obtain ⟨-, rfl⟩ := Prod.mk.inj h
    rfl
  | cons a as ih =>
    cases hs : step s a with
    | error e =>
      rw [execute_cons_error hs] at h
      cases h
    | ok m =>
      rw [execute_cons_ok hs] at h
      rw [List.cons_append, execute_cons_ok hs, ih h]

/-- What every step of the call keeps is true wherever the call ends. -/
theorem execute_invariant (Inv : σ → Prop)
    (hstep : ∀ s, ∀ a ∈ as, ∀ s', Inv s → step s a = .ok s' → Inv s') (h : Inv s) :
    Inv (execute step s as).2 := by
  induction as generalizing s with
  | nil => exact h
  | cons a as ih =>
    cases hs : step s a with
    | error e =>
      rw [execute_cons_error hs]
      exact h
    | ok m =>
      rw [execute_cons_ok hs]
      exact ih (fun s b hb => hstep s b (List.mem_cons_of_mem _ hb))
        (hstep s a List.mem_cons_self m h hs)

end

end Steps
