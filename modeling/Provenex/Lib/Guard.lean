import Mathlib.Tactic

/-! Validators in `Except`: sequences of checks that either raise or fall
through. What a success establishes is read off step by step, and which errors
can come out is a property that sequencing preserves. -/

namespace Guard

section

variable {ε : Type*} {α β : Type}

/-- `if c: raise e`. -/
def raiseIf (c : Prop) [Decidable c] (e : ε) : Except ε Unit :=
  if c then .error e else .ok ()

/-- What is raised where making the exception may itself raise one. -/
def raised : Except ε ε → ε
  | .ok e => e
  | .error e => e

/-- A loop whose body only checks. -/
def checkAll (l : List α) (f : α → Except ε Unit) : Except ε Unit :=
  match l with
  | [] => .ok ()
  | x :: xs => f x >>= fun _ => checkAll xs f

/-- A loop that builds one result for each item, in order. -/
def buildAll (l : List α) (f : α → Except ε β) : Except ε (List β) :=
  match l with
  | [] => .ok []
  | x :: xs => f x >>= fun y => buildAll xs f >>= fun ys => .ok (y :: ys)

/-- A loop that asks each item a question and ends at the first that answers no. -/
def allHold (l : List α) (f : α → Except ε Bool) : Except ε Bool :=
  match l with
  | [] => .ok true
  | x :: xs => f x >>= fun b => if b then allHold xs f else .ok false

@[simp] theorem raiseIf_ok (c : Prop) [Decidable c] (e : ε) (u : Unit) :
    raiseIf c e = .ok u ↔ ¬ c := by
  unfold raiseIf
  split_ifs with h <;> simp [h]

theorem bind_ok {x : Except ε α} {f : α → Except ε β} {b : β} :
    (x >>= f) = .ok b ↔ ∃ a, x = .ok a ∧ f a = .ok b := by
  cases x with
  | error e => simp [bind, Except.bind]
  | ok a => simp [bind, Except.bind]

theorem map_ok {x : Except ε α} {f : α → β} {b : β} : x.map f = .ok b ↔ ∃ a, x = .ok a ∧ f a = b := by
  cases x with
  | ok a => simp [Except.map]
  | error e => simp [Except.map]

theorem mapError_ok {γ : Type*} {x : Except ε α} {f : ε → γ} {a : α} :
    x.mapError f = .ok a ↔ x = .ok a := by
  cases x with
  | error e => simp [Except.mapError]
  | ok b => simp [Except.mapError]

theorem bind_error {x : Except ε α} {f : α → Except ε β} {e : ε} :
    (x >>= f) = .error e ↔ x = .error e ∨ ∃ a, x = .ok a ∧ f a = .error e := by
  cases x with
  | error e' => simp [bind, Except.bind]
  | ok a => simp [bind, Except.bind]

theorem seq_ok {x : Except ε Unit} {y : Except ε β} {b : β} :
    (x >>= fun _ => y) = .ok b ↔ x = .ok () ∧ y = .ok b := by
  rw [bind_ok]
  exact ⟨fun ⟨_, h⟩ => h, fun h => ⟨(), h⟩⟩

theorem checkAll_ok {l : List α} {f : α → Except ε Unit} :
    checkAll l f = .ok () ↔ ∀ x ∈ l, f x = .ok () := by
  induction l with
  | nil => simp [checkAll]
  | cons x xs ih => rw [checkAll, seq_ok, ih, List.forall_mem_cons]

theorem buildAll_ok {l : List α} {f : α → Except ε β} {ys : List β} :
    buildAll l f = .ok ys ↔ List.Forall₂ (fun x y => f x = .ok y) l ys := by
  induction l generalizing ys with
  | nil => simp [buildAll, eq_comm]
  | cons x xs ih =>
    rw [buildAll, bind_ok]
    simp only [bind_ok, ih, Except.ok.injEq]
    constructor
    · rintro ⟨y, hy, zs, hz, rfl⟩
      exact .cons hy hz
    · rintro (_ | ⟨hy, hz⟩)
      exact ⟨_, hy, _, hz, rfl⟩

theorem buildAll_map {γ : Type} {l : List γ} {g : γ → α} {f : α → Except ε β} :
    buildAll (l.map g) f = buildAll l fun x => f (g x) := by
  induction l with
  | nil => rfl
  | cons x xs ih => rw [List.map_cons, buildAll, buildAll, ih]

theorem buildAll_total {l : List α} {f : α → Except ε β} {R : α → β → Prop}
    (h : ∀ x ∈ l, ∃ y, f x = .ok y ∧ R x y) : ∃ ys, buildAll l f = .ok ys ∧ List.Forall₂ R l ys := by
  induction l with
  | nil => exact ⟨[], rfl, .nil⟩
  | cons x xs ih =>
    obtain ⟨y, hy, hr⟩ := h x List.mem_cons_self
    obtain ⟨ys, hys, hrs⟩ := ih fun x hx => h x (List.mem_cons_of_mem _ hx)
    exact ⟨y :: ys, bind_ok.mpr ⟨y, hy, bind_ok.mpr ⟨ys, hys, rfl⟩⟩, .cons hr hrs⟩

/-- Loops over items that pairwise come to the same are the same. -/
theorem buildAll_related {γ : Type} {l : List α} {l' : List γ} {f : α → Except ε β}
    {g : γ → Except ε β} (h : List.Forall₂ (fun x y => f x = g y) l l') :
    buildAll l f = buildAll l' g := by
  induction h with
  | nil => rfl
  | cons hxy _ ih => rw [buildAll, buildAll, hxy, ih]

theorem allHold_true {l : List α} {f : α → Except ε Bool} :
    allHold l f = .ok true ↔ ∀ x ∈ l, f x = .ok true := by
  induction l with
  | nil => simp [allHold]
  | cons x xs ih =>
    rw [allHold, bind_ok, List.forall_mem_cons, ← ih]
    constructor
    · rintro ⟨b, hx, hb⟩
      cases b with
      | false => simp at hb
      | true => exact ⟨hx, hb⟩
    · rintro ⟨hx, hxs⟩
      exact ⟨true, hx, hxs⟩

theorem allHold_congr {l : List α} {f g : α → Except ε Bool} (h : ∀ x ∈ l, f x = g x) :
    allHold l f = allHold l g := by
  induction l with
  | nil => rfl
  | cons x xs ih =>
    rw [allHold, allHold, h x List.mem_cons_self, ih fun y hy => h y (List.mem_cons_of_mem _ hy)]

/-- Where no item raises, the order of the items does not matter. -/
theorem allHold_total {l : List α} {f : α → Except ε Bool} {p : α → Bool}
    (h : ∀ x ∈ l, f x = .ok (p x)) : allHold l f = .ok (l.all p) := by
  induction l with
  | nil => rfl
  | cons x xs ih =>
    rw [allHold, h x List.mem_cons_self, ih fun y hy => h y (List.mem_cons_of_mem _ hy)]
    cases hp : p x <;> simp [bind, Except.bind, hp]

theorem allHold_map {γ : Type} {l : List γ} {g : γ → α} {f : α → Except ε Bool} :
    allHold (l.map g) f = allHold l fun x => f (g x) := by
  induction l with
  | nil => rfl
  | cons x xs ih => rw [List.map_cons, allHold, allHold, ih]

theorem pointwise_total {l : List α} {f : α → Except ε Bool} (h : ∀ x ∈ l, ∃ b, f x = .ok b) :
    ∃ p : α → Bool, ∀ x ∈ l, f x = .ok (p x) := by
  refine ⟨fun x => (f x).toOption.getD false, fun x hx => ?_⟩
  obtain ⟨b, hb⟩ := h x hx
  simp only [hb]
  rfl

theorem allHold_ok {l : List α} {f : α → Except ε Bool} (h : ∀ x ∈ l, ∃ b, f x = .ok b) :
    ∃ b, allHold l f = .ok b := by
  obtain ⟨p, hf⟩ := pointwise_total h
  exact ⟨l.all p, allHold_total hf⟩

theorem allHold_perm {l l' : List α} {f : α → Except ε Bool} (hp : l.Perm l')
    (h : ∀ x ∈ l, ∃ b, f x = .ok b) : allHold l f = allHold l' f := by
  obtain ⟨p, hf⟩ := pointwise_total h
  rw [allHold_total hf, allHold_total fun x hx => hf x (hp.mem_iff.mpr hx), hp.all_eq]

/-- `P` holds of every item that the loop comes to: one is come to where those before it answer
yes. -/
def AllReached (P Yes : α → Prop) : List α → Prop
  | [] => True
  | x :: xs => P x ∧ (Yes x → AllReached P Yes xs)

theorem AllReached.of_forall {P Yes : α → Prop} {l : List α} (h : ∀ x ∈ l, P x) :
    AllReached P Yes l := by
  induction l with
  | nil => trivial
  | cons x xs ih =>
    exact ⟨h x List.mem_cons_self, fun _ => ih fun y hy => h y (List.mem_cons_of_mem _ hy)⟩

theorem AllReached.congr {P Q Yes No : α → Prop} {l : List α} (hp : ∀ x ∈ l, P x ↔ Q x)
    (hy : ∀ x ∈ l, Yes x ↔ No x) : AllReached P Yes l ↔ AllReached Q No l := by
  induction l with
  | nil => exact Iff.rfl
  | cons x xs ih =>
    have ih := ih (fun y hy => hp y (List.mem_cons_of_mem _ hy))
      fun y h => hy y (List.mem_cons_of_mem _ h)
    rw [AllReached, AllReached, hp x List.mem_cons_self, hy x List.mem_cons_self, ih]

theorem AllReached.map {γ : Type} {P Yes : α → Prop} {g : γ → α} {l : List γ} :
    AllReached P Yes (l.map g) ↔ AllReached (fun x => P (g x)) (fun x => Yes (g x)) l := by
  induction l with
  | nil => exact Iff.rfl
  | cons x xs ih => rw [List.map_cons, AllReached, AllReached, ih]

theorem allHold_returns {P Yes : α → Prop} {l : List α} {f : α → Except ε Bool}
    (hret : ∀ x ∈ l, (∃ b, f x = .ok b) ↔ P x) (hyes : ∀ x ∈ l, f x = .ok true ↔ Yes x) :
    (∃ b, allHold l f = .ok b) ↔ AllReached P Yes l := by
  induction l with
  | nil => exact ⟨fun _ => trivial, fun _ => ⟨true, rfl⟩⟩
  | cons x xs ih =>
    have ih := ih (fun y hy => hret y (List.mem_cons_of_mem _ hy))
      fun y hy => hyes y (List.mem_cons_of_mem _ hy)
    rw [AllReached, ← hret x List.mem_cons_self, ← hyes x List.mem_cons_self, ← ih, allHold]
    cases hx : f x with
    | error e => simp [bind, Except.bind]
    | ok b => cases b <;> simp [bind, Except.bind]

/-- The computation ends in an error with the property `P`. -/
def Raises (P : ε → Prop) (x : Except ε α) : Prop := ∃ e, x = .error e ∧ P e

/-- Every error the computation can end in has the property `P`. -/
def OnlyRaises (P : ε → Prop) (x : Except ε α) : Prop := ∀ e, x = .error e → P e

variable {P : ε → Prop}

theorem OnlyRaises.ok (a : α) : OnlyRaises P (.ok a) := by
  intro e h
  cases h

theorem OnlyRaises.error {e : ε} (h : P e) : OnlyRaises P (.error e : Except ε α) := by
  intro e' h'
  cases h'
  exact h

theorem OnlyRaises.bind {x : Except ε α} {f : α → Except ε β} (hx : OnlyRaises P x)
    (hf : ∀ a, x = .ok a → OnlyRaises P (f a)) : OnlyRaises P (x >>= f) := by
  intro e h
  rcases bind_error.mp h with h | ⟨a, ha, h⟩
  · exact hx e h
  · exact hf a ha e h

theorem OnlyRaises.map {x : Except ε α} (hx : OnlyRaises P x) (f : α → β) :
    OnlyRaises P (x.map f) := by
  cases x with
  | error e => exact .error (hx e rfl)
  | ok a => exact .ok (f a)

theorem OnlyRaises.seq {x : Except ε Unit} {y : Except ε β} (hx : OnlyRaises P x)
    (hy : x = .ok () → OnlyRaises P y) : OnlyRaises P (x >>= fun _ => y) :=
  hx.bind fun _ h => hy h

theorem OnlyRaises.raiseIf (c : Prop) [Decidable c] {e : ε} (h : P e) :
    OnlyRaises P (raiseIf c e) := by
  unfold Guard.raiseIf
  split_ifs
  · exact .error h
  · exact .ok ()

theorem OnlyRaises.checkAll {l : List α} {f : α → Except ε Unit}
    (h : ∀ x ∈ l, OnlyRaises P (f x)) : OnlyRaises P (checkAll l f) := by
  induction l with
  | nil => exact .ok ()
  | cons x xs ih =>
    exact .seq (h x List.mem_cons_self) fun _ => ih fun y hy => h y (List.mem_cons_of_mem _ hy)

theorem OnlyRaises.allHold {l : List α} {f : α → Except ε Bool}
    (h : ∀ x ∈ l, OnlyRaises P (f x)) : OnlyRaises P (allHold l f) := by
  induction l with
  | nil => exact .ok true
  | cons x xs ih =>
    refine .bind (h x List.mem_cons_self) fun b _ => ?_
    cases b with
    | false => exact .ok false
    | true => exact ih fun y hy => h y (List.mem_cons_of_mem _ hy)

theorem OnlyRaises.buildAll {l : List α} {f : α → Except ε β}
    (h : ∀ x ∈ l, OnlyRaises P (f x)) : OnlyRaises P (buildAll l f) := by
  induction l with
  | nil => exact .ok []
  | cons x xs ih =>
    exact .bind (h x List.mem_cons_self) fun _ _ =>
      .bind (ih fun y hy => h y (List.mem_cons_of_mem _ hy)) fun _ _ => .ok _

/-! ### The same, step by step -/

theorem onlyRaises_bind {x : Except ε α} {f : α → Except ε β} : OnlyRaises P (x >>= f) ↔
    OnlyRaises P x ∧ ∀ a, x = .ok a → OnlyRaises P (f a) := by
  constructor
  · intro h
    exact ⟨fun e he => h e (bind_error.mpr (.inl he)),
      fun a ha e he => h e (bind_error.mpr (.inr ⟨a, ha, he⟩))⟩
  · rintro ⟨hx, hf⟩
    exact hx.bind hf

/-- The first step may be left out where it raises nothing else. -/
theorem onlyRaises_after {x : Except ε α} {f : α → Except ε β} (hx : OnlyRaises P x) :
    OnlyRaises P (x >>= f) ↔ ∀ a, x = .ok a → OnlyRaises P (f a) := by
  rw [onlyRaises_bind, and_iff_right hx]

theorem onlyRaises_seq {x : Except ε Unit} {y : Except ε β} : OnlyRaises P (x >>= fun _ => y) ↔
    OnlyRaises P x ∧ (x = .ok () → OnlyRaises P y) := by
  rw [onlyRaises_bind]
  exact and_congr_right fun _ => ⟨fun h => h (), fun h _ => h⟩

theorem onlyRaises_afterCheck {x : Except ε Unit} {y : Except ε β} (hx : OnlyRaises P x) :
    OnlyRaises P (x >>= fun _ => y) ↔ (x = .ok () → OnlyRaises P y) := by
  rw [onlyRaises_seq, and_iff_right hx]

theorem onlyRaises_map {x : Except ε α} {f : α → β} :
    OnlyRaises P (x.map f) ↔ OnlyRaises P x := by
  refine ⟨fun h e he => h e ?_, fun h => h.map f⟩
  rw [he]
  rfl

/-- Where the exception that is made is of the right kind, only the making matters. -/
theorem raised_iff {x : Except ε α} {f : α → ε} (hf : ∀ a, P (f a)) :
    P (raised (x.map f)) ↔ OnlyRaises P x := by
  cases x with
  | error e => exact ⟨fun h => .error h, fun h => h e rfl⟩
  | ok a => exact iff_of_true (hf a) (.ok a)

/-- Of what raises only other errors. -/
theorem onlyRaises_returns {x : Except ε α} (h : ∀ e, x = .error e → ¬ P e) :
    OnlyRaises P x ↔ ∃ a, x = .ok a := by
  cases x with
  | error e => exact iff_of_false (fun hx => h e rfl (hx e rfl)) nofun
  | ok a => exact iff_of_true (.ok a) ⟨a, rfl⟩

theorem onlyRaises_passes {x : Except ε Unit} (h : OnlyRaises (¬ P ·) x) :
    OnlyRaises P x ↔ x = .ok () := by
  rw [onlyRaises_returns h]
  exact ⟨fun ⟨_, h⟩ => h, fun h => ⟨(), h⟩⟩

theorem onlyRaises_raiseIf {c : Prop} [Decidable c] {e : ε} :
    OnlyRaises P (raiseIf c e) ↔ (c → P e) := by
  unfold raiseIf
  split_ifs with h
  · exact ⟨fun hx _ => hx e rfl, fun hx => .error (hx h)⟩
  · exact iff_of_true (.ok ()) fun hc => absurd hc h

/-- What does not return ends in an error of the kind where it raises nothing else. -/
theorem raises_iff {x : Except ε α} : Raises P x ↔ OnlyRaises P x ∧ ¬ ∃ a, x = .ok a := by
  cases x with
  | error e => simp [Raises, OnlyRaises]
  | ok a => simp [Raises]

/-- A loop of checks raises in the body of the first item that is refused. -/
theorem onlyRaises_checkAll {l : List α} {f : α → Except ε Unit} : OnlyRaises P (checkAll l f) ↔
    AllReached (fun x => OnlyRaises P (f x)) (fun x => f x = .ok ()) l := by
  induction l with
  | nil => exact iff_of_true (.ok ()) trivial
  | cons x xs ih => rw [checkAll, onlyRaises_seq, ih, AllReached]

theorem onlyRaises_buildAll {l : List α} {f : α → Except ε β} : OnlyRaises P (buildAll l f) ↔
    AllReached (fun x => OnlyRaises P (f x)) (fun x => ∃ y, f x = .ok y) l := by
  induction l with
  | nil => exact iff_of_true (.ok []) trivial
  | cons x xs ih =>
    rw [buildAll, onlyRaises_bind, AllReached, ← ih]
    refine and_congr_right fun _ => ?_
    rw [forall_exists_index]
    exact forall_congr' fun y => imp_congr_right fun _ => by
      rw [onlyRaises_bind]
      exact and_iff_left fun ys _ => .ok (y :: ys)

/-- The computation returns under the condition, and ends in the one error otherwise. -/
def ReturnsIf (p : Prop) (e : ε) (x : Except ε α) : Prop :=
  (p ∧ ∃ a, x = .ok a) ∨ ¬ p ∧ x = .error e

theorem ReturnsIf.of_ok {p : Prop} {e : ε} {x : Except ε α} {a : α} (hp : p) (h : x = .ok a) :
    ReturnsIf p e x :=
  .inl ⟨hp, a, h⟩

theorem ReturnsIf.of_error {p : Prop} {e : ε} {x : Except ε α} (hp : ¬ p) (h : x = .error e) :
    ReturnsIf p e x :=
  .inr ⟨hp, h⟩

theorem ReturnsIf.congr {p q : Prop} {e : ε} {x : Except ε α} (h : ReturnsIf p e x)
    (hpq : p ↔ q) : ReturnsIf q e x := by
  rwa [ReturnsIf, ← hpq]

theorem ReturnsIf.map {p : Prop} {e : ε} {x : Except ε α} (h : ReturnsIf p e x) (f : α → β) :
    ReturnsIf p e (x.map f) := by
  rcases h with ⟨hp, a, rfl⟩ | ⟨hp, rfl⟩
  · exact .of_ok hp rfl
  · exact .of_error hp rfl

theorem ReturnsIf.returns {p : Prop} {e : ε} {x : Except ε α} (h : ReturnsIf p e x) :
    (∃ a, x = .ok a) ↔ p := by
  rcases h with ⟨hp, hx⟩ | ⟨hp, rfl⟩
  · exact iff_of_true hx hp
  · exact iff_of_false (by simp) hp

theorem ReturnsIf.onlyRaises {p : Prop} {e : ε} {x : Except ε α} (h : ReturnsIf p e x) :
    OnlyRaises (· = e) x := by
  rcases h with ⟨-, a, rfl⟩ | ⟨-, rfl⟩
  · exact .ok a
  · exact .error rfl

/-! ## Two computations side by side -/

/-- Two results that are related, or one error. -/
inductive SameOutcome (R : α → β → Prop) : Except ε α → Except ε β → Prop
  | ok {a : α} {b : β} (h : R a b) : SameOutcome R (.ok a) (.ok b)
  | error (e : ε) : SameOutcome R (.error e) (.error e)

theorem SameOutcome.left {R : α → β → Prop} {a : α} {y : Except ε β}
    (h : SameOutcome R (.ok a) y) : ∃ b, y = .ok b ∧ R a b := by
  cases h with
  | ok h => exact ⟨_, rfl, h⟩

theorem SameOutcome.eq {x y : Except ε α} (h : SameOutcome Eq x y) : x = y := by
  cases h with
  | ok h => rw [h]
  | error e => rfl

theorem SameOutcome.bind {γ δ : Type} {Q : α → β → Prop} {R : γ → δ → Prop} {x : Except ε α}
    {y : Except ε β} {f : α → Except ε γ} {g : β → Except ε δ} (hx : SameOutcome Q x y)
    (h : ∀ a b, Q a b → SameOutcome R (f a) (g b)) : SameOutcome R (x >>= f) (y >>= g) := by
  cases hx with
  | ok hQ => exact h _ _ hQ
  | error e => exact .error e

theorem SameOutcome.map {γ δ : Type} {Q : α → β → Prop} {R : γ → δ → Prop} {x : Except ε α}
    {y : Except ε β} {f : α → γ} {g : β → δ} (hx : SameOutcome Q x y)
    (h : ∀ a b, Q a b → R (f a) (g b)) : SameOutcome R (x.map f) (y.map g) := by
  cases hx with
  | ok hQ => exact .ok (h _ _ hQ)
  | error e => exact .error e

theorem SameOutcome.bind_same {γ δ : Type} {R : γ → δ → Prop} (x : Except ε α)
    {f : α → Except ε γ} {g : α → Except ε δ} (h : ∀ a, x = .ok a → SameOutcome R (f a) (g a)) :
    SameOutcome R (x >>= f) (x >>= g) := by
  cases x with
  | ok a => exact h a rfl
  | error e => exact .error e

end

end Guard
