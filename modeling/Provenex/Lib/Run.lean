import Mathlib.Tactic

/-! Runs of a step function that may fail, and the induction by which an
invariant that may also speak of the history holds in every state reached. -/

namespace Run

variable {σ α ε : Type} (step : σ → α → Except ε σ)

/-- The state after the operations, or the first error. -/
def run : σ → List α → Except ε σ
  | s, [] => .ok s
  | s, op :: ops => step s op >>= fun s' => run s' ops

variable {step} {s s' : σ} {op : α} {ops : List α}

@[simp] theorem run_nil : run step s [] = .ok s := rfl

theorem run_append (ops' : List α) :
    run step s (ops ++ ops') = run step s ops >>= fun m => run step m ops' := by
  induction ops generalizing s with
  | nil => rfl
  | cons op ops ih =>
    rw [List.cons_append, run, run]
    cases h : step s op with
    | error e => rfl
    | ok m => exact ih

theorem run_append_ok {ops' : List α} :
    run step s (ops ++ ops') = .ok s' ↔ ∃ m, run step s ops = .ok m ∧ run step m ops' = .ok s' := by
  rw [run_append]
  cases run step s ops with
  | error e => simp [bind, Except.bind]
  | ok m => simp [bind, Except.bind]

theorem run_snoc_ok :
    run step s (ops ++ [op]) = .ok s' ↔ ∃ m, run step s ops = .ok m ∧ step m op = .ok s' := by
  rw [run_append_ok]
  have hone (m : σ) : run step m [op] = step m op := by
    rw [run]
    cases step m op <;> rfl
  simp only [hone]

/-- What holds at the start and is kept by every step holds after every run. -/
theorem invariant (Inv : List α → σ → Prop) (h0 : Inv [] s)
    (hstep : ∀ ops m op m', run step s ops = .ok m → Inv ops m → step m op = .ok m' →
      Inv (ops ++ [op]) m') :
    ∀ ops s', run step s ops = .ok s' → Inv ops s' := by
  intro ops
  induction ops using List.reverseRecOn with
  | nil =>
    rintro s' ⟨⟩
    exact h0
  | append_singleton ops op ih =>
    intro s' h
    obtain ⟨m, hm, hop⟩ := run_snoc_ok.mp h
    exact hstep ops m op s' hm (ih m hm) hop

end Run
