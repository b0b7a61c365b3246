import Provenex.Lib.Effect

/-! Computations over two states that return or raise the same and keep the states related.
What is built from such computations with `bind` and loops is such a computation again. -/

namespace Effect

section

variable {ε σ τ α β : Type} {R : τ → σ → Prop}

/-- One result or one error, in related states. -/
inductive Ends (R : τ → σ → Prop) : EStateM.Result ε τ α → EStateM.Result ε σ α → Prop
  | ok (a : α) {t : τ} {s : σ} (h : R t s) : Ends R (.ok a t) (.ok a s)
  | error (e : ε) {t : τ} {s : σ} (h : R t s) : Ends R (.error e t) (.error e s)

theorem Ends.outcome {r : EStateM.Result ε τ α} {r' : EStateM.Result ε σ α} (h : Ends R r r') :
    outcomeOf r = outcomeOf r' := by
  cases h with
  | ok a h => rfl
  | error e h => rfl

theorem Ends.state {r : EStateM.Result ε τ α} {r' : EStateM.Result ε σ α} (h : Ends R r r') :
    R (stateOf r) (stateOf r') := by
  cases h with
  | ok a h => exact h
  | error e h => exact h

/-- From related states, the two end alike. -/
def Simulates (R : τ → σ → Prop) (x : EStateM ε τ α) (y : EStateM ε σ α) : Prop :=
  ∀ t s, R t s → Ends R (x t) (y s)

theorem simulates_pure (a : α) : Simulates R (pure a : EStateM ε τ α) (pure a) :=
  fun _ _ h => .ok a h

theorem simulates_lift (x : Except ε α) : Simulates R (lift x : EStateM ε τ α) (lift x) := by
  intro t s h
  cases x with
  | ok a => exact .ok a h
  | error e => exact .error e h

theorem Simulates.bind {x : EStateM ε τ α} {y : EStateM ε σ α} {f : α → EStateM ε τ β}
    {g : α → EStateM ε σ β} (hxy : Simulates R x y) (hfg : ∀ a, Simulates R (f a) (g a)) :
    Simulates R (x >>= f) (y >>= g) := by
  intro t s h
  have hmid := hxy t s h
  change Ends R (EStateM.bind x f t) (EStateM.bind y g s)
  unfold EStateM.bind
  generalize x t = r at hmid
  generalize y s = r' at hmid
  cases hmid with
  | ok a h => exact hfg a _ _ h
  | error e h => exact .error e h

/-- A loop whose turns simulate each other, from one accumulator. -/
theorem simulates_forEach {l : List α} {body : β → α → EStateM ε τ β} {body' : β → α → EStateM ε σ β}
    (h : ∀ b x, Simulates R (body b x) (body' b x)) (b : β) :
    Simulates R (forEach l b body) (forEach l b body') := by
  induction l generalizing b with
  | nil => exact simulates_pure b
  | cons x xs ih => exact (h b x).bind ih

/-- What was returned or raised, as a value: the exception is caught. -/
def attempt (x : EStateM ε σ α) : EStateM ε σ (Except ε α) := fun s =>
  .ok (outcomeOf (x s)) (stateOf (x s))

theorem Simulates.attempt {x : EStateM ε τ α} {y : EStateM ε σ α} (h : Simulates R x y) :
    Simulates R (Effect.attempt x) (Effect.attempt y) := by
  intro t s hts
  have hends := h t s hts
  rw [Effect.attempt, Effect.attempt, hends.outcome]
  exact .ok _ hends.state

end

end Effect
