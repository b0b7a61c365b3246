import Provenex.Lib.Guard

/-! Computations that read and leave a state and may raise, and loops over them.
What a loop that returned has done follows from what one turn of it does. -/

namespace Effect

section

variable {ε σ α β : Type}

/-- A computation that does not touch the state. -/
def lift (x : Except ε α) : EStateM ε σ α := fun s =>
  match x with
  | .ok a => .ok a s
  | .error e => .error e s

/-- `for x in l`, with what the body accumulates. -/
def forEach (l : List α) (acc : β) (body : β → α → EStateM ε σ β) : EStateM ε σ β :=
  match l with
  | [] => pure acc
  | x :: xs => body acc x >>= fun acc' => forEach xs acc' body

theorem bind_ok {x : EStateM ε σ α} {f : α → EStateM ε σ β} {s t : σ} {b : β} :
    (x >>= f) s = .ok b t ↔ ∃ a u, x s = .ok a u ∧ f a u = .ok b t := by
  change EStateM.bind x f s = _ ↔ _
  unfold EStateM.bind
  cases x s with
  | ok a u => simp
  | error e u => simp

theorem pure_ok {a b : α} {s t : σ} :
    (pure a : EStateM ε σ α) s = .ok b t ↔ a = b ∧ s = t := by
  change EStateM.Result.ok a s = _ ↔ _
  simp

theorem lift_ok {x : Except ε α} {b : α} {s t : σ} :
    lift x s = .ok b t ↔ x = .ok b ∧ s = t := by
  unfold lift
  cases x with
  | ok a => simp
  | error e => simp

theorem lift_error {x : Except ε α} {e : ε} {s t : σ} :
    lift x s = .error e t ↔ x = .error e ∧ s = t := by
  unfold lift
  cases x with
  | ok a => simp
  | error e => simp

theorem lift_bind (x : Except ε α) (f : α → Except ε β) :
    (lift (x >>= f) : EStateM ε σ β) = lift x >>= fun a => lift (f a) := by
  funext s
  cases x <;> rfl

/-- A loop whose turns leave the state as it is. -/
theorem forEach_lift {body : β → α → EStateM ε σ β} {f : β → α → Except ε β} {s : σ}
    (hbody : ∀ b x, body b x s = lift (f b x) s) (l : List α) (b : β) :
    forEach l b body s = lift (l.foldlM f b) s := by
  induction l generalizing b with
  | nil => rfl
  | cons x xs ih =>
    change EStateM.bind (body b x) _ s = lift (f b x >>= fun b' => xs.foldlM f b') s
    unfold EStateM.bind
    rw [hbody]
    cases f b x with
    | error e => rfl
    | ok b' => exact ih b'

/-- What the first turn needs, and every turn leaves for the next, holds after the loop. -/
theorem forEach_invariant (Inv : List α → β → σ → Prop) {body : β → α → EStateM ε σ β}
    (hstep : ∀ done acc s x acc' s', Inv done acc s → body acc x s = .ok acc' s' →
      Inv (done ++ [x]) acc' s') :
    ∀ (l done : List α) (acc acc' : β) (s s' : σ), Inv done acc s →
      forEach l acc body s = .ok acc' s' → Inv (done ++ l) acc' s' := by
  intro l
  induction l with
  | nil =>
    intro done acc acc' s s' hinv h
    obtain ⟨rfl, rfl⟩ := pure_ok.mp h
    rwa [List.append_nil]
  | cons x xs ih =>
    intro done acc acc' s s' hinv h
    rw [forEach, bind_ok] at h
    obtain ⟨mid, u, hx, hxs⟩ := h
    have hmid := hstep done acc s x mid u hinv hx
    simpa only [List.append_assoc, List.singleton_append] using ih _ mid acc' u s' hmid hxs

/-! ## What every outcome keeps -/

/-- The state in which a computation ended. -/
def stateOf : EStateM.Result ε σ α → σ
  | .ok _ s => s
  | .error _ s => s

/-- What a computation returned or raised. -/
def outcomeOf : EStateM.Result ε σ α → Except ε α
  | .ok a _ => .ok a
  | .error e _ => .error e

theorem outcomeOf_lift (x : Except ε α) (s : σ) : outcomeOf (lift x s) = x := by
  cases x <;> rfl

/-- Whether it returns or raises, the computation keeps what is true of the state. -/
def Keeps (P : σ → Prop) (x : EStateM ε σ α) : Prop := ∀ s, P s → P (stateOf (x s))

theorem keeps_pure {P : σ → Prop} (a : α) : Keeps P (pure a : EStateM ε σ α) := fun _ h => h

theorem keeps_lift {P : σ → Prop} (x : Except ε α) : Keeps P (lift x : EStateM ε σ α) := by
  intro s h
  unfold lift
  cases x <;> exact h

theorem keeps_bind {P : σ → Prop} {x : EStateM ε σ α} {f : α → EStateM ε σ β} (hx : Keeps P x)
    (hf : ∀ a s t, x s = .ok a t → Keeps P (f a)) : Keeps P (x >>= f) := by
  intro s h
  have hmid := hx s h
  change P (stateOf (EStateM.bind x f s))
  unfold EStateM.bind
  cases heq : x s with
  | ok a t =>
    rw [heq] at hmid
    exact hf a s t heq t hmid
  | error e t =>
    rw [heq] at hmid
    exact hmid

theorem keeps_forEach {P : σ → Prop} {l : List α} {body : β → α → EStateM ε σ β}
    (h : ∀ x ∈ l, ∀ acc, Keeps P (body acc x)) (acc : β) : Keeps P (forEach l acc body) := by
  induction l generalizing acc with
  | nil => exact keeps_pure acc
  | cons x xs ih =>
    exact keeps_bind (h x List.mem_cons_self acc) fun acc' _ _ _ =>
      ih (fun y hy => h y (List.mem_cons_of_mem _ hy)) acc'

/-! ## Two loops side by side -/

/-- Two runs that end in one state: with related results, or with one error. -/
inductive Related {γ : Type} (R : β → γ → Prop) :
    EStateM.Result ε σ β → EStateM.Result ε σ γ → Prop
  | ok {b : β} {c : γ} (s : σ) (h : R b c) : Related R (.ok b s) (.ok c s)
  | error (e : ε) (s : σ) : Related R (.error e s) (.error e s)

theorem Related.left {γ : Type} {R : β → γ → Prop} {b : β} {s : σ}
    {r : EStateM.Result ε σ γ} (h : Related R (.ok b s) r) : ∃ c, r = .ok c s ∧ R b c := by
  cases h with
  | ok s h => exact ⟨_, rfl, h⟩

theorem Related.right {γ : Type} {R : β → γ → Prop} {c : γ} {s : σ}
    {r : EStateM.Result ε σ β} (h : Related R r (.ok c s)) : ∃ b, r = .ok b s ∧ R b c := by
  cases h with
  | ok s h => exact ⟨_, rfl, h⟩

theorem Related.outcome {γ : Type} {R : β → γ → Prop} {r : EStateM.Result ε σ β}
    {r' : EStateM.Result ε σ γ} (h : Related R r r') :
    Guard.SameOutcome R (outcomeOf r) (outcomeOf r') := by
  cases h with
  | ok s h => exact .ok h
  | error e s => exact .error e

theorem Related.mono {γ : Type} {R R' : β → γ → Prop} (himp : ∀ b c, R b c → R' b c)
    {r : EStateM.Result ε σ β} {r' : EStateM.Result ε σ γ} (h : Related R r r') :
    Related R' r r' := by
  cases h with
  | ok s h => exact .ok s (himp _ _ h)
  | error e s => exact .error e s

/-- Two runs that are related to a third one. -/
theorem Related.meet {γ δ : Type} {R : β → δ → Prop} {Q : γ → δ → Prop}
    {r : EStateM.Result ε σ β} {r' : EStateM.Result ε σ γ} {m : EStateM.Result ε σ δ}
    (h : Related R r m) (h' : Related Q r' m) : Related (fun b c => ∃ a, R b a ∧ Q c a) r r' := by
  cases h with
  | error e s =>
    cases h'
    exact .error e s
  | ok s hb =>
    cases h' with
    | ok s hc => exact .ok s ⟨_, hb, hc⟩

/-- After one computation that both runs begin with. -/
theorem Related.bind {γ δ : Type} {R : γ → δ → Prop} (x : EStateM ε σ α)
    {f : α → EStateM ε σ γ} {g : α → EStateM ε σ δ} {s : σ}
    (h : ∀ a u, x s = .ok a u → Related R (f a u) (g a u)) :
    Related R ((x >>= f) s) ((x >>= g) s) := by
  change Related R (EStateM.bind x f s) (EStateM.bind x g s)
  unfold EStateM.bind
  cases hx : x s with
  | ok a u => exact h a u hx
  | error e u => exact .error e u

/-- After two computations that end alike. -/
theorem Related.into {γ δ ζ : Type} {R : β → γ → Prop} {Q : δ → ζ → Prop}
    {x : EStateM ε σ β} {y : EStateM ε σ γ} {f : β → EStateM ε σ δ} {g : γ → EStateM ε σ ζ} {s : σ}
    (hxy : Related R (x s) (y s)) (h : ∀ b c u, R b c → Related Q (f b u) (g c u)) :
    Related Q ((x >>= f) s) ((y >>= g) s) := by
  change Related Q (EStateM.bind x f s) (EStateM.bind y g s)
  unfold EStateM.bind
  generalize x s = left at hxy
  generalize y s = right at hxy
  cases hxy with
  | ok u hbc => exact h _ _ u hbc
  | error e u => exact .error e u

theorem Related.lift {γ : Type} {R : β → γ → Prop} {x : Except ε β} {y : Except ε γ} (s : σ)
    (h : Guard.SameOutcome R x y) : Related R (Effect.lift x s) (Effect.lift y s) := by
  cases h with
  | ok h => exact .ok s h
  | error e => exact .error e s

/-- Loops over related items, whose turns keep their accumulators related, end related. -/
theorem forEach_related {α' γ : Type} {P : α → α' → Prop}
    (R : List α → List α' → β → γ → Prop) {body : β → α → EStateM ε σ β}
    {body' : γ → α' → EStateM ε σ γ}
    (hstep : ∀ done done' b c x y s, R done done' b c → P x y →
      Related (R (done ++ [x]) (done' ++ [y])) (body b x s) (body' c y s))
    {l : List α} {l' : List α'} (h : List.Forall₂ P l l') :
    ∀ done done' b c s, R done done' b c →
      Related (R (done ++ l) (done' ++ l')) (forEach l b body s) (forEach l' c body' s) := by
  induction h with
  | nil =>
    intro done done' b c s hR
    rw [List.append_nil, List.append_nil]
    exact .ok s hR
  | @cons x y xs ys hxy _ ih =>
    intro done done' b c s hR
    have hturn := hstep done done' b c x y s hR hxy
    rw [forEach, forEach]
    change Related _ (EStateM.bind (body b x) _ s) (EStateM.bind (body' c y) _ s)
    unfold EStateM.bind
    generalize body b x s = r at hturn ⊢
    generalize body' c y s = r' at hturn ⊢
    cases hturn with
    | error e u => exact .error e u
    | ok u hR' =>
      simpa only [List.append_assoc, List.singleton_append] using ih _ _ _ _ u hR'

/-! ## Items and marks -/

/-- The items at the positions that are marked so. -/
def select (b : Bool) (xs : List α) (marks : List Bool) : List α :=
  ((xs.zip marks).filter fun p => p.2 == b).map Prod.fst

theorem select_snoc {xs : List α} {marks : List Bool} (h : xs.length = marks.length) (b : Bool)
    (x : α) (m : Bool) :
    select b (xs ++ [x]) (marks ++ [m]) = select b xs marks ++ if m = b then [x] else [] := by
  unfold select
  rw [List.zip_append h, List.filter_append, List.map_append]
  cases m <;> cases b <;> rfl

theorem select_replicate (xs : List α) (b m : Bool) :
    select b xs (List.replicate xs.length m) = if m = b then xs else [] := by
  induction xs using List.reverseRecOn with
  | nil => cases m <;> cases b <;> rfl
  | append_singleton xs x ih =>
    rw [List.length_append, List.length_singleton, List.replicate_succ',
      select_snoc List.length_replicate.symm, ih]
    split_ifs <;> rfl

theorem select_sublist {xs : List α} {marks : List Bool} (h : xs.length = marks.length)
    (b : Bool) : (select b xs marks).Sublist xs := by
  have hsub := (List.filter_sublist (p := fun p : α × Bool => p.2 == b)
    (l := xs.zip marks)).map Prod.fst
  rwa [List.map_fst_zip (le_of_eq h)] at hsub

/-- The two selections together are all the items. -/
theorem select_perm {xs : List α} {marks : List Bool} (h : xs.length = marks.length) :
    (select false xs marks ++ select true xs marks).Perm xs := by
  have hnot : (fun p : α × Bool => p.2 == true) = fun p => ! (p.2 == false) := by
    funext p
    cases p.2 <;> rfl
  have hp := (List.filter_append_perm (fun p : α × Bool => p.2 == false) (xs.zip marks)).map Prod.fst
  rw [List.map_append, List.map_fst_zip (le_of_eq h)] at hp
  rwa [select, select, hnot]

end

end Effect
