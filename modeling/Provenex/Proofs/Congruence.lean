import Provenex.Proofs.Loading

/-! Two evaluations side by side: over two contexts, or over two ways to write
one bundle. They agree where the operators cannot tell the values apart. -/

namespace Provenex

open Guard

section

variable {Ω : Type} {rt : Runtime Ω}

/-- The operators cannot tell the two operands apart, each beside its object. -/
def OperandAlike (rt : Runtime Ω) (a a' : PyObj Ω) : PyVal → PyVal → Prop
  | .list xs, .list ys => a.inList rt xs = a'.inList rt ys ∧
      printable (.list xs) = printable (.list ys)
  | x, y => x = y

/-- The same of two constraints: mappings hold the same operators. -/
def ConstraintAlike (rt : Runtime Ω) (a a' : PyObj Ω) : PyVal → PyVal → Prop
  | .dict d, .dict d' =>
    ∀ op : Operator, hasKey d op.key = hasKey d' op.key ∧
      OperandAlike rt a a' (getOrNone d op.key) (getOrNone d' op.key)
  | .dict _, _ => False
  | _, .dict _ => False
  | x, y => a.eq rt x = a'.eq rt y

/-- The objects are alike under the constraints, or both are missing, or neither resolves. -/
inductive ResolvedAlike (rt : Runtime Ω) (x y : PyVal) :
    Except PyErr (Option (PyObj Ω)) → Except PyErr (Option (PyObj Ω)) → Prop
  | found {a a' : PyObj Ω} (str : a.str? = a'.str?) (constraint : ConstraintAlike rt a a' x y) :
      ResolvedAlike rt x y (.ok (some a)) (.ok (some a'))
  | missing : ResolvedAlike rt x y (.ok none) (.ok none)
  | error (e : PyErr) : ResolvedAlike rt x y (.error e) (.error e)

theorem OperandAlike.elim {a a' : PyObj Ω} {x y : PyVal} (h : OperandAlike rt a a' x y) :
    (∃ xs ys, x = .list xs ∧ y = .list ys ∧ a.inList rt xs = a'.inList rt ys ∧
        printable x = printable y) ∨ (∀ xs, x ≠ .list xs) ∧ x = y := by
  cases x with
  | atom b => exact .inr ⟨by simp, h⟩
  | dict d => exact .inr ⟨by simp, h⟩
  | list xs =>
    cases y with
    | list ys => exact .inl ⟨xs, ys, rfl, rfl, h.1, h.2⟩
    | atom b => cases h
    | dict d => cases h

theorem checkPattern_congr {positive : Bool} {word place : String} {x y : PyVal} {a a' : PyObj Ω}
    (hstr : a.str? = a'.str?) (h : OperandAlike rt a a' x y) :
    (checkPattern rt positive word place x a).map Prod.fst =
      (checkPattern rt positive word place y a').map Prod.fst := by
  unfold checkPattern
  rw [← hstr]
  cases a.str? with
  | none => rfl
  | some s =>
    simp only
    split_ifs
    · rfl
    · rcases h.elim with ⟨xs, ys, rfl, rfl, -⟩ | ⟨-, rfl⟩ <;> rfl

theorem parseDuration_congr {x y : PyVal} {place : String} {a a' : PyObj Ω}
    (h : OperandAlike rt a a' x y) :
    parseDuration rt.toStdlib x place = parseDuration rt.toStdlib y place := by
  rcases h.elim with ⟨xs, ys, rfl, rfl, -⟩ | ⟨-, rfl⟩ <;> rfl

theorem checkNotOlderThan_congr {place : String} {x y timestamp : PyVal} {a a' : PyObj Ω}
    (hstr : a.str? = a'.str?) (h : OperandAlike rt a a' x y) :
    (checkNotOlderThan rt place x timestamp a).map Prod.fst =
      (checkNotOlderThan rt place y timestamp a').map Prod.fst := by
  unfold checkNotOlderThan
  rw [← hstr, parseDuration_congr h]
  cases a.str? with
  | none => rfl
  | some s => rfl

/-- A result beside the text of an operand hangs on whether that text can be written. -/
theorem formatOf_fst {py : Stdlib} {v : PyVal} {b : Bool} {f : String → String} :
    ((py.formatOf v).map fun shown => (b, f shown)).map Prod.fst =
      if printable v then .ok b else .error (.valueError none) := by
  unfold Stdlib.formatOf
  split_ifs <;> rfl

theorem Operator.check_congr (op : Operator) {place : String} {x y timestamp : PyVal}
    {a a' : PyObj Ω} (hstr : a.str? = a'.str?) (h : OperandAlike rt a a' x y) :
    (op.check rt place x timestamp a).map Prod.fst =
      (op.check rt place y timestamp a').map Prod.fst := by
  cases op with
  | isIn =>
    rcases h.elim with ⟨xs, ys, rfl, rfl, hin, hprint⟩ | ⟨hx, rfl⟩
    · simp only [Operator.check]
      rw [formatOf_fst, formatOf_fst, hin, hprint]
    · cases x with
      | list xs => exact absurd rfl (hx xs)
      | atom b => rfl
      | dict d => rfl
  | notIn =>
    rcases h.elim with ⟨xs, ys, rfl, rfl, hin, hprint⟩ | ⟨hx, rfl⟩
    · simp only [Operator.check]
      rw [formatOf_fst, formatOf_fst, hin, hprint]
    · cases x with
      | list xs => exact absurd rfl (hx xs)
      | atom b => rfl
      | dict d => rfl
  | notOlderThan => exact checkNotOlderThan_congr hstr h
  | matchesPattern => exact checkPattern_congr hstr h
  | notMatchesPattern => exact checkPattern_congr hstr h
  | lengthAtMost =>
    simp only [Operator.check]
    rw [← hstr]
    cases a.str? with
    | none => rfl
    | some s =>
      rcases h.elim with ⟨xs, ys, rfl, rfl, -⟩ | ⟨-, rfl⟩ <;> rfl

/-! ## Constraints, entries and rules -/

theorem ConstraintAlike.cases {a a' : PyObj Ω} {x y : PyVal} (h : ConstraintAlike rt a a' x y) :
    (∃ d d', x = .dict d ∧ y = .dict d') ∨
      (∀ d, x ≠ .dict d) ∧ (∀ d, y ≠ .dict d) ∧ a.eq rt x = a'.eq rt y := by
  cases x with
  | dict d =>
    cases y with
    | dict d' => exact .inl ⟨d, d', rfl, rfl⟩
    | atom b => exact False.elim h
    | list ys => exact False.elim h
  | atom b =>
    cases y with
    | dict d' => exact False.elim h
    | atom c => exact .inr ⟨by simp, by simp, h⟩
    | list ys => exact .inr ⟨by simp, by simp, h⟩
  | list xs =>
    cases y with
    | dict d' => exact False.elim h
    | atom c => exact .inr ⟨by simp, by simp, h⟩
    | list ys => exact .inr ⟨by simp, by simp, h⟩

theorem checkConstraint_scalar {place : String} {x timestamp : PyVal} {unknownMetadata : String}
    {a : PyObj Ω} (hx : ∀ d, x ≠ .dict d) :
    checkConstraint rt place x (some a) timestamp unknownMetadata =
      .ok (a.eq rt x, place ++ ": equality") := by
  cases x with
  | dict d => exact absurd rfl (hx d)
  | atom b => rfl
  | list xs => rfl

theorem checkConstraint_congr {place : String} {x y timestamp : PyVal} {unknownMetadata : String}
    {a a' : PyObj Ω} (hstr : a.str? = a'.str?) (h : ConstraintAlike rt a a' x y) :
    (checkConstraint rt place x (some a) timestamp unknownMetadata).map Prod.fst =
      (checkConstraint rt place y (some a') timestamp unknownMetadata).map Prod.fst := by
  rcases h.cases with ⟨d, d', rfl, rfl⟩ | ⟨hx, hy, heq⟩
  · have hfirst : firstOperator d = firstOperator d' := by
      unfold firstOperator
      rw [funext fun op : Operator => (h op).1]
    simp only [checkConstraint]
    rw [← hfirst]
    cases firstOperator d with
    | none => rfl
    | some op => exact op.check_congr hstr (h op).2
  · rw [checkConstraint_scalar hx, checkConstraint_scalar hy]
    exact congrArg Except.ok heq

/-- What an entry of `when` asks of a value that is there. -/
def whenValue (rt : Runtime Ω) (expected : PyVal) (actual : PyObj Ω) : Except PyErr Bool :=
  match expected with
  | .dict expected =>
    match getKey expected "in" with
    | some (.list xs) => .ok (actual.inList rt xs)
    | some _ => .error (.typeError none)
    | none => .ok false
  | expected => .ok (actual.eq rt expected)

theorem whenValue_congr {x y : PyVal} {a a' : PyObj Ω} (h : ConstraintAlike rt a a' x y) :
    whenValue rt x a = whenValue rt y a' := by
  rcases h.cases with ⟨d, d', rfl, rfl⟩ | ⟨hx, hy, heq⟩
  · obtain ⟨hkey, halike⟩ := h .isIn
    simp only [hasKey, getOrNone, Operator.key] at hkey halike
    simp only [whenValue]
    cases hd : getKey d "in" with
    | none =>
      cases hd' : getKey d' "in" with
      | none => rfl
      | some v' => simp [hd, hd'] at hkey
    | some v =>
      cases hd' : getKey d' "in" with
      | none => simp [hd, hd'] at hkey
      | some v' =>
        rw [hd, hd'] at halike
        rcases halike.elim with ⟨xs, ys, hxs, hys, hin, -⟩ | ⟨hx, heq⟩
        · simp only [Option.getD_some] at hxs hys
          rw [hxs, hys]
          exact congrArg Except.ok hin
        · simp only [Option.getD_some] at hx heq
          subst heq
          cases v with
          | list xs => exact absurd rfl (hx xs)
          | atom b => rfl
          | dict e => rfl
  · cases x with
    | dict d => exact absurd rfl (hx d)
    | atom b =>
      cases y with
      | dict d => exact absurd rfl (hy d)
      | atom c => exact congrArg Except.ok heq
      | list ys => exact congrArg Except.ok heq
    | list xs =>
      cases y with
      | dict d => exact absurd rfl (hy d)
      | atom c => exact congrArg Except.ok heq
      | list ys => exact congrArg Except.ok heq

theorem whenEntryMatches_congr {view view' : View} {k : PyAtom} {x y : PyVal}
    (h : ResolvedAlike rt x y (resolvePath rt k view) (resolvePath rt k view')) :
    whenEntryMatches rt view (k, x) = whenEntryMatches rt view' (k, y) := by
  unfold whenEntryMatches
  generalize resolvePath rt k view = r at h ⊢
  generalize resolvePath rt k view' = r' at h ⊢
  cases h with
  | error e => rfl
  | missing => rfl
  | found _ hc => exact whenValue_congr hc

theorem PyVal.str?_some {v : PyVal} {s : String} (h : v.str? = some s) : v = .str s := by
  unfold PyVal.str? at h
  split at h
  · rw [Option.some.inj h]
  · cases h

/-- Of the time of the request only the text is read; a value that is no text raises. -/
theorem checkNotOlderThan_time {place : String} {x t t' : PyVal} {a : PyObj Ω}
    (h : t.str? = t'.str?) : checkNotOlderThan rt place x t a = checkNotOlderThan rt place x t' a := by
  have hnone {v : PyVal} (hv : v.str? = none) :
      checkNotOlderThan rt place x v a = checkNotOlderThan rt place x .none a := by
    cases v with
    | atom b => cases b <;> first | rfl | cases hv
    | list xs => rfl
    | dict d => rfl
  cases ht : t.str? with
  | none => exact (hnone ht).trans (hnone (h.symm.trans ht)).symm
  | some s =>
    obtain rfl := PyVal.str?_some ht
    obtain rfl := PyVal.str?_some (h.symm.trans ht)
    rfl

theorem checkConstraint_time {place : String} {x t t' : PyVal} {o : Option (PyObj Ω)}
    {unknownMetadata : String} (h : t.str? = t'.str?) :
    checkConstraint rt place x o t unknownMetadata = checkConstraint rt place x o t' unknownMetadata := by
  cases o with
  | none => rfl
  | some a =>
    cases x with
    | atom b => rfl
    | list xs => rfl
    | dict d =>
      simp only [checkConstraint]
      cases firstOperator d with
      | none => rfl
      | some op =>
        cases op with
        | notOlderThan => exact checkNotOlderThan_time h
        | _ => rfl

theorem requireEntryHolds_congr {unknownMetadata : String} {view view' : View} {k : PyAtom}
    {x y : PyVal} (htime : view.request.timestamp.str? = view'.request.timestamp.str?)
    (h : ResolvedAlike rt x y (resolvePath rt k view) (resolvePath rt k view')) :
    requireEntryHolds rt unknownMetadata view (k, x) =
      requireEntryHolds rt unknownMetadata view' (k, y) := by
  unfold requireEntryHolds
  generalize resolvePath rt k view = r at h ⊢
  generalize resolvePath rt k view' = r' at h ⊢
  simp only [checkConstraint_time htime]
  cases h with
  | error e => rfl
  | missing => rfl
  | found hstr hc => exact checkConstraint_congr hstr hc

/-- Two rules, one in each evaluation, with one outcome. -/
structure RuleAlike (rt : Runtime Ω) (unknownMetadata : String) (view view' : View)
    (r r' : Rule) : Prop where
  name : r.name = r'.name
  when : whenMatches rt view r.when = whenMatches rt view' r'.when
  require : requireHolds rt unknownMetadata view r.require =
    requireHolds rt unknownMetadata view' r'.require

theorem evaluateRules_congr {unknownMetadata : String} {view view' : View}
    {rules rules' : List Rule}
    (h : List.Forall₂ (RuleAlike rt unknownMetadata view view') rules rules') :
    ∀ fired, evaluateRules rt unknownMetadata view rules fired =
      evaluateRules rt unknownMetadata view' rules' fired := by
  induction h with
  | nil => exact fun _ => rfl
  | cons hr _ ih =>
    intro fired
    rw [evaluateRules, evaluateRules, hr.when, hr.require, hr.name]
    simp only [ih]

/-- Two rules with one condition, whose constraints hold together; where they do not, one of them
may be violated and the other raise. -/
structure RuleAgrees (rt : Runtime Ω) (unknownMetadata : String) (view : View) (r r' : Rule) :
    Prop where
  name : r.name = r'.name
  when : whenMatches rt view r.when = whenMatches rt view r'.when
  require : requireHolds rt unknownMetadata view r.require = .ok true ↔
    requireHolds rt unknownMetadata view r'.require = .ok true
  raises : OnlyRaises (· = .valueError none) (requireHolds rt unknownMetadata view r.require)
  raises' : OnlyRaises (· = .valueError none) (requireHolds rt unknownMetadata view r'.require)

/-- Two lists of such rules come to the same unless one of them raises alone. -/
theorem evaluateRules_agree {unknownMetadata : String} {view : View} {rules rules' : List Rule}
    (h : List.Forall₂ (RuleAgrees rt unknownMetadata view) rules rules') :
    ∀ fired, evaluateRules rt unknownMetadata view rules fired =
        evaluateRules rt unknownMetadata view rules' fired ↔
      ((∃ r, evaluateRules rt unknownMetadata view rules fired = .ok r) ↔
        ∃ r, evaluateRules rt unknownMetadata view rules' fired = .ok r) := by
  induction h with
  | nil => exact fun _ => iff_of_true rfl Iff.rfl
  | @cons rule rule' rules rules' hr _ ih =>
    intro fired
    rw [evaluateRules, evaluateRules, hr.when, hr.name]
    cases whenMatches rt view rule'.when with
    | error e => simp [bind, Except.bind]
    | ok applies =>
      cases applies with
      | false => exact ih fired
      | true =>
        have hiff := hr.require
        have hraises := hr.raises
        have hraises' := hr.raises'
        -- held by both, or else each is violated or raises the one error
        cases hq : requireHolds rt unknownMetadata view rule.require with
        | error e =>
          obtain rfl := hraises e hq
          cases hq' : requireHolds rt unknownMetadata view rule'.require with
          | error e' =>
            obtain rfl := hraises' e' hq'
            simp [bind, Except.bind]
          | ok b' => cases b' <;> simp [hq, hq', bind, Except.bind] at hiff ⊢
        | ok b =>
          cases hq' : requireHolds rt unknownMetadata view rule'.require with
          | error e' => cases b <;> simp [hq, hq', bind, Except.bind] at hiff ⊢
          | ok b' =>
            cases b <;> cases b' <;> simp only [hq, hq', bind, Except.bind] at hiff ⊢
            · simp
            · simp at hiff
            · simp at hiff
            · exact ih _

end

end Provenex
