import Provenex.Proofs.Loading

/-! What an allow means. The walk over a constraint mapping looks at one
operator only, the first in a fixed order that the mapping holds. -/

namespace Provenex

open Guard

section

variable {Ω : Type} (rt : Runtime Ω)

/-! ## What each operator says of a value -/

/-- The operator holds of the value. -/
def Operator.Holds (op : Operator) (operand timestamp : PyVal) (actual : PyObj Ω) : Prop :=
  match op with
  | .isIn => ∃ xs, operand = .list xs ∧ actual.inList rt xs = true
  | .notIn => ∃ xs, operand = .list xs ∧ actual.inList rt xs = false
  | .notOlderThan => ∃ s now maxAge actualEpoch nowEpoch, actual.str? = some s ∧
      timestamp = .str now ∧ parseDuration rt.toStdlib operand "" = .ok maxAge ∧
      parseIso8601 rt.toStdlib s "" = .ok actualEpoch ∧
      parseIso8601 rt.toStdlib now "" = .ok nowEpoch ∧ nowEpoch - actualEpoch ≤ maxAge
  | .matchesPattern => ∃ s pattern, actual.str? = some s ∧ operand = .str pattern ∧
      s.length ≤ maxPatternInputLen ∧ rt.fnmatchcase s pattern = true
  | .notMatchesPattern => ∃ s pattern, actual.str? = some s ∧ operand = .str pattern ∧
      s.length ≤ maxPatternInputLen ∧ rt.fnmatchcase s pattern = false
  | .lengthAtMost => ∃ s, actual.str? = some s ∧ leCap s.length operand = .ok true

/-- What the operator would say of the value can be written. -/
def Operator.Written (op : Operator) (operand timestamp : PyVal) (actual : PyObj Ω) : Prop :=
  match op with
  | .isIn => printable operand = true
  | .notIn => printable operand = true
  | .notOlderThan => ∀ s now maxAge actualEpoch nowEpoch, actual.str? = some s →
      timestamp = .str now → parseDuration rt.toStdlib operand "" = .ok maxAge →
      parseIso8601 rt.toStdlib s "" = .ok actualEpoch →
      parseIso8601 rt.toStdlib now "" = .ok nowEpoch →
      writableInt (nowEpoch - actualEpoch) = true ∧ writableInt maxAge = true
  | .matchesPattern => True
  | .notMatchesPattern => True
  | .lengthAtMost => printable operand = true

theorem formatOf_ok {py : Stdlib} {v : PyVal} {s : String} :
    py.formatOf v = .ok s ↔ printable v = true ∧ py.format v = s := by
  unfold Stdlib.formatOf
  split_ifs with h <;> simp [h]

theorem parseIso8601_ok (py : Stdlib) (v p q : String) {n : ℤ} :
    parseIso8601 py v p = .ok n ↔ parseIso8601 py v q = .ok n := by
  unfold parseIso8601
  simp only
  split <;> simp

theorem checkPattern_true (positive : Bool) (word place : String) (operand : PyVal)
    (actual : PyObj Ω) :
    (∃ why, checkPattern rt positive word place operand actual = .ok (true, why)) ↔
      ∃ s pattern, actual.str? = some s ∧ operand = .str pattern ∧
        s.length ≤ maxPatternInputLen ∧ rt.fnmatchcase s pattern = positive := by
  unfold checkPattern
  cases hs : actual.str? with
  | none => simp
  | some s =>
    simp only
    by_cases hl : s.length > maxPatternInputLen
    · simp [hl, Nat.not_le.mpr hl]
    · rw [if_neg hl]
      split
      · simp [Nat.not_lt.mp hl]
      · next hns =>
        simp only [reduceCtorEq, exists_false, false_iff]
        rintro ⟨_, pattern, -, rfl, -⟩
        exact hns pattern rfl

/-- The age is in bounds, and can be reported. -/
theorem checkNotOlderThan_true (place : String) (operand timestamp : PyVal) (actual : PyObj Ω) :
    (∃ why, checkNotOlderThan rt place operand timestamp actual = .ok (true, why)) ↔
      Operator.notOlderThan.Holds rt operand timestamp actual ∧
        Operator.notOlderThan.Written rt operand timestamp actual := by
  simp only [Operator.Holds, Operator.Written, checkNotOlderThan]
  cases hs : actual.str? with
  | none => simp
  | some s =>
    simp only [bind_ok, parseDuration_ok operand _ "", Option.some.injEq]
    constructor
    · rintro ⟨why, maxAge, hm, h⟩
      split at h
      · simp at h
      · next epoch he =>
        split at h
        · next now =>
          split at h
          · simp at h
          · next nowEpoch hn =>
            have he := (parseIso8601_ok rt.toStdlib s _ "").mp he
            have hn := (parseIso8601_ok rt.toStdlib now _ "").mp hn
            obtain ⟨age, hage, h⟩ := bind_ok.mp h
            obtain ⟨limit, hlimit, h⟩ := bind_ok.mp h
            refine ⟨⟨s, now, maxAge, epoch, nowEpoch, rfl, rfl, hm, he, hn, ?_⟩, ?_⟩
            · exact of_decide_eq_true (Prod.ext_iff.mp (Except.ok.inj h)).1
            · rintro _ _ _ _ _ rfl hnow hm' he' hn'
              obtain rfl := PyAtom.str.inj (PyVal.atom.inj hnow)
              obtain rfl := Except.ok.inj (hm.symm.trans hm')
              obtain rfl := Except.ok.inj (he.symm.trans he')
              obtain rfl := Except.ok.inj (hn.symm.trans hn')
              exact ⟨(intText_ok.mp hage).1, (intText_ok.mp hlimit).1⟩
        · simp at h
    · rintro ⟨⟨s', now, maxAge, epoch, nowEpoch, rfl, rfl, hm, he, hn, hle⟩, hwritten⟩
      have he' := (parseIso8601_ok rt.toStdlib s "" ("chunk value at '" ++ place ++ "'")).mp he
      have hn' := (parseIso8601_ok rt.toStdlib now "" "request.timestamp").mp hn
      obtain ⟨hage, hlimit⟩ := hwritten s now maxAge epoch nowEpoch rfl rfl hm he hn
      have hage' : intText (nowEpoch - epoch) = .ok _ := intText_ok.mpr ⟨hage, rfl⟩
      have hlimit' : intText maxAge = .ok _ := intText_ok.mpr ⟨hlimit, rfl⟩
      simp only [he', hn', hage', bind, Except.bind]
      exact ⟨_, maxAge, hm, by rw [hlimit', decide_eq_true hle]⟩

/-- Each branch of `_check_constraint` decides its operator. -/
theorem Operator.check_true (op : Operator) (place : String) (operand timestamp : PyVal)
    (actual : PyObj Ω) :
    (∃ why, op.check rt place operand timestamp actual = .ok (true, why)) ↔
      op.Holds rt operand timestamp actual ∧ op.Written rt operand timestamp actual := by
  cases op with
  | isIn =>
    cases operand <;> simp [Operator.check, Operator.Holds, Operator.Written, map_ok, formatOf_ok, and_comm]
  | notIn =>
    cases operand <;> simp [Operator.check, Operator.Holds, Operator.Written, map_ok, formatOf_ok, and_comm]
  | notOlderThan => exact checkNotOlderThan_true rt place operand timestamp actual
  | matchesPattern =>
    rw [Operator.Written, and_true]
    exact checkPattern_true rt true _ place operand actual
  | notMatchesPattern =>
    rw [Operator.Written, and_true]
    exact checkPattern_true rt false _ place operand actual
  | lengthAtMost =>
    simp only [Operator.check, Operator.Holds, Operator.Written]
    cases hs : actual.str? with
    | none => simp
    | some s => simp [bind_ok, formatOf_ok, and_comm]

/-! ## Entries and rules -/

/-- What the evaluator asks of a value: of a mapping, its first operator only. -/
def ValuePasses (constraint timestamp : PyVal) (actual : PyObj Ω) : Prop :=
  match constraint with
  | .dict d => ∃ op : Operator, firstOperator d = some op ∧
      op.Holds rt (getOrNone d op.key) timestamp actual ∧
      op.Written rt (getOrNone d op.key) timestamp actual
  | constraint => actual.eq rt constraint = true

/-- What the policy's author wrote of a value: every operator of a mapping. -/
def ValueEnforced (constraint timestamp : PyVal) (actual : PyObj Ω) : Prop :=
  match constraint with
  | .dict d => ∀ (op : Operator) (operand : PyVal), getKey d op.key = some operand →
      op.Holds rt operand timestamp actual
  | constraint => actual.eq rt constraint = true

/-- A condition on the value an entry's path resolves to; a missing one is left to the default. -/
def EntrySatisfies (value : PyVal → PyVal → PyObj Ω → Prop) (unknownMetadata : String)
    (view : View) (entry : PyAtom × PyVal) : Prop :=
  ∃ resolved, resolvePath rt entry.1 view = .ok resolved ∧
    match resolved with
    | none => unknownMetadata = "allow"
    | some actual => value entry.2 view.request.timestamp actual

def EntryPasses : String → View → PyAtom × PyVal → Prop := EntrySatisfies rt (ValuePasses rt)

def EntryEnforced : String → View → PyAtom × PyVal → Prop := EntrySatisfies rt (ValueEnforced rt)

theorem checkConstraint_true (place : String) (constraint timestamp : PyVal) (actual : PyObj Ω)
    (unknownMetadata : String) :
    (∃ why, checkConstraint rt place constraint (some actual) timestamp unknownMetadata =
      .ok (true, why)) ↔ ValuePasses rt constraint timestamp actual := by
  cases constraint with
  | dict d =>
    simp only [checkConstraint, ValuePasses]
    cases firstOperator d with
    | none => simp
    | some op => simp only [Operator.check_true, Option.some.injEq, exists_eq_left']
  | atom a => simp [checkConstraint, ValuePasses]
  | list xs => simp [checkConstraint, ValuePasses]

theorem requireEntryHolds_true (unknownMetadata : String) (view : View) (entry : PyAtom × PyVal) :
    requireEntryHolds rt unknownMetadata view entry = .ok true ↔
      EntryPasses rt unknownMetadata view entry := by
  have hfst (x : Except PyErr (Bool × String)) :
      (x >>= fun r => Except.ok r.1) = (.ok true : Except PyErr Bool) ↔
        ∃ why, x = .ok (true, why) := by
    rw [bind_ok]
    constructor
    · rintro ⟨⟨b, why⟩, hx, hb⟩
      obtain rfl : b = true := Except.ok.inj hb
      exact ⟨why, hx⟩
    · rintro ⟨why, hx⟩
      exact ⟨_, hx, rfl⟩
  unfold requireEntryHolds EntryPasses EntrySatisfies
  rw [bind_ok]
  refine exists_congr fun resolved => and_congr_right fun _ => ?_
  rw [hfst]
  cases resolved with
  | none => by_cases h : unknownMetadata = "allow" <;> simp [checkConstraint, h]
  | some actual => exact checkConstraint_true ..

/-- The rule does not apply, or all its entries pass. -/
def RulePasses (unknownMetadata : String) (view : View) (rule : Rule) : Prop :=
  whenMatches rt view rule.when = .ok false ∨
    whenMatches rt view rule.when = .ok true ∧
      ∀ entry ∈ rule.require, EntryPasses rt unknownMetadata view entry

theorem requireHolds_true (unknownMetadata : String) (view : View) (require : PyDict) :
    requireHolds rt unknownMetadata view require = .ok true ↔
      ∀ entry ∈ require, EntryPasses rt unknownMetadata view entry := by
  rw [requireHolds, allHold_true]
  simp only [requireEntryHolds_true]

theorem evaluateRules_allow (unknownMetadata : String) (view : View) (rules : List Rule) :
    ∀ fired, (∃ fired', evaluateRules rt unknownMetadata view rules fired = .ok (.allow, fired')) ↔
      ∀ rule ∈ rules, RulePasses rt unknownMetadata view rule := by
  induction rules with
  | nil => simp [evaluateRules]
  | cons rule rest ih =>
    intro fired
    rw [List.forall_mem_cons, RulePasses, ← requireHolds_true, evaluateRules]
    cases hw : whenMatches rt view rule.when with
    | error e => simp [bind, Except.bind]
    | ok applies =>
      cases applies with
      | false => simp [bind, Except.bind, ih]
      | true =>
        cases hr : requireHolds rt unknownMetadata view rule.require with
        | error e => simp [bind, Except.bind]
        | ok holds => cases holds <;> simp [bind, Except.bind, ih]

/-! ## The whole evaluation -/

/-- The evaluation returns allow. -/
def Allows (ev : NativeYaml) (inputs : PyDict) (view : View) : Prop :=
  ∃ d, ev.evaluateView rt inputs view = .ok d ∧ d.decision = .allow

/-- Where the inputs can be recorded, only the rules may raise. -/
theorem evaluateView_recorded {inputs : PyDict} (h : jsonable (.dict inputs) = true) :
    ∃ hash, ∀ (ev : NativeYaml) (view : View), ev.evaluateView rt inputs view =
      (evaluateRules rt ev.defaults.unknownMetadata view ev.rules []).map
        fun r => ⟨r.1, r.2, hash, some inputs, none⟩ := by
  obtain ⟨b, hb⟩ := (canonicalBytes_ok rt.toStdlib).mpr h
  refine ⟨sha256Hex rt.toStdlib b, fun ev view => ?_⟩
  unfold NativeYaml.evaluateView computeInputsHash
  rw [hb]
  cases evaluateRules rt ev.defaults.unknownMetadata view ev.rules [] <;> rfl

/-- Where they cannot, nothing is decided. -/
theorem evaluateView_unrecorded {ev : NativeYaml} {inputs : PyDict} {view : View}
    (h : ¬ jsonable (.dict inputs) = true) : ev.evaluateView rt inputs view =
      .error ((jsonFault true (.dict inputs)).getD (.typeError none)) := by
  simp [NativeYaml.evaluateView, computeInputsHash, canonicalBytes, dumps, h, Except.map, bind,
    Except.bind]

/-- Every constraint of every rule that applies is enforced. -/
def Enforced (ev : NativeYaml) (view : View) : Prop :=
  ∀ rule ∈ ev.rules, whenMatches rt view rule.when = .ok true →
    ∀ entry ∈ rule.require, EntryEnforced rt ev.defaults.unknownMetadata view entry

theorem allows_iff (ev : NativeYaml) (inputs : PyDict) (view : View) :
    Allows rt ev inputs view ↔ jsonable (.dict inputs) = true ∧
      ∀ rule ∈ ev.rules, RulePasses rt ev.defaults.unknownMetadata view rule := by
  rw [← evaluateRules_allow rt _ view ev.rules []]
  unfold Allows
  by_cases hj : jsonable (.dict inputs) = true
  · obtain ⟨hash, hrun⟩ := evaluateView_recorded rt hj
    rw [hrun, and_iff_right hj]
    cases evaluateRules rt ev.defaults.unknownMetadata view ev.rules [] with
    | error e => simp [Except.map]
    | ok r =>
      obtain ⟨decision, fired⟩ := r
      simp [Except.map]
  · rw [evaluateView_unrecorded rt hj]
    simp [hj]

/-- An operator of the mapping that is not the one looked at, and that fails of the value. -/
def SkippedFails (constraint timestamp : PyVal) (actual : PyObj Ω) : Prop :=
  ∃ d, constraint = .dict d ∧ ∃ (op : Operator) (operand : PyVal), getKey d op.key = some operand ∧
    firstOperator d ≠ some op ∧ ¬ op.Holds rt operand timestamp actual

/-- The way past a constraint: every rule passes on the operators that are looked at, and in a
rule that applies one that is not looked at fails. -/
structure Bypassed (ev : NativeYaml) (inputs : PyDict) (view : View) : Prop where
  recorded : jsonable (.dict inputs) = true
  passes : ∀ rule ∈ ev.rules, RulePasses rt ev.defaults.unknownMetadata view rule
  skipped : ∃ rule ∈ ev.rules, whenMatches rt view rule.when = .ok true ∧
    ∃ entry ∈ rule.require, ∃ actual, resolvePath rt entry.1 view = .ok (some actual) ∧
      SkippedFails rt entry.2 view.request.timestamp actual

theorem valueEnforced_iff {constraint timestamp : PyVal} {actual : PyObj Ω}
    (hp : ValuePasses rt constraint timestamp actual) :
    ValueEnforced rt constraint timestamp actual ↔ ¬ SkippedFails rt constraint timestamp actual := by
  constructor
  · rintro he ⟨d, rfl, op, operand, hop, -, hnot⟩
    exact hnot (he op operand hop)
  · intro hnone
    unfold ValuePasses at hp
    unfold ValueEnforced
    split at hp
    · next d =>
      obtain ⟨first, hfirst, hholds, -⟩ := hp
      intro op operand hop
      by_cases heq : firstOperator d = some op
      · obtain rfl : first = op := Option.some.inj (hfirst.symm.trans heq)
        rwa [getOrNone, hop] at hholds
      · by_contra hnot
        exact hnone ⟨d, rfl, op, operand, hop, heq, hnot⟩
    · exact hp

/-- An allow enforces every written constraint, except where one is bypassed. -/
theorem allows_enforced_iff (ev : NativeYaml) (inputs : PyDict) (view : View) :
    (Allows rt ev inputs view → Enforced rt ev view) ↔ ¬ Bypassed rt ev inputs view := by
  rw [allows_iff]
  constructor
  · rintro h ⟨hj, hp, rule, hr, hw, entry, he, actual, ha, hs⟩
    obtain ⟨resolved, hres, hen⟩ := h ⟨hj, hp⟩ rule hr hw entry he
    obtain rfl : resolved = some actual := Except.ok.inj (hres.symm.trans ha)
    obtain ⟨d, hd, op, operand, hop, -, hnot⟩ := hs
    rw [hd] at hen
    exact hnot (hen op operand hop)
  · rintro hnot ⟨hj, hp⟩ rule hr hw entry he
    have hpass : EntryPasses rt ev.defaults.unknownMetadata view entry := by
      rcases hp rule hr with hf | ⟨-, hall⟩
      · simp [hw] at hf
      · exact hall entry he
    obtain ⟨resolved, hres, hval⟩ := hpass
    refine ⟨resolved, hres, ?_⟩
    cases resolved with
    | none => exact hval
    | some actual =>
      refine (valueEnforced_iff rt hval).mpr fun hs => hnot ⟨hj, hp, rule, hr, hw, entry, he, ?_⟩
      exact ⟨actual, hres, hs⟩

/-- Both evaluators, on every accepted bundle and in every context. -/
theorem constraints_enforced_iff (bundle : PyVal) (source : String) (ev : NativeYaml) :
    (NativeYamlEvaluator.init rt bundle source = .ok ev →
      ∀ chunk request,
        ((∃ d, NativeYamlEvaluator.evaluate rt ev chunk request = .ok d ∧ d.decision = .allow) →
            Enforced rt ev ⟨some chunk, none, request⟩) ↔
          ¬ Bypassed rt ev (buildInputs chunk request) ⟨some chunk, none, request⟩) ∧
    (NativeYamlToolCallEvaluator.init rt bundle source = .ok ev →
      ∀ tool request,
        ((∃ d, NativeYamlToolCallEvaluator.evaluate rt ev tool request = .ok d ∧
              d.decision = .allow) →
            Enforced rt ev ⟨none, some tool, request⟩) ↔
          ¬ Bypassed rt ev (buildToolCallInputs tool request) ⟨none, some tool, request⟩) :=
  ⟨fun _ _ _ => allows_enforced_iff rt ev _ _, fun _ _ _ => allows_enforced_iff rt ev _ _⟩

end

namespace Sample

def request : RequestContext := ⟨[], .none, .none, .str "2026-01-01T00:00:00Z", none⟩

/-- Residency must be in one list and not in another. -/
def bypassBundle : PyVal :=
  .dict [(.str "version", .int 1), (.str "policy_id", .str "residency"),
    (.str "rules", .list [.dict [(.str "name", .str "residency"),
      (.str "require", .dict [(.str "chunk.metadata.residency",
        .dict [(.str "in", .list [.str "EU", .str "US"]), (.str "not_in", .list [.str "US"])])])]])]

/-- A chunk with this residency. -/
def residentChunk (residency : String) : ChunkContext :=
  ⟨.str "sha256:aa", .none, .none, .none, [(.str "residency", .str residency)], .none⟩

end Sample

/-- A value in the first list only. -/
theorem constraints_enforced_sample :
    ∃ ev, NativeYamlEvaluator.init Runtime.blank Sample.bypassBundle "policy.yaml" = .ok ev ∧
      (∃ d, NativeYamlEvaluator.evaluate Runtime.blank ev (Sample.residentChunk "EU") Sample.request =
        .ok d ∧ d.decision = .allow) ∧
      Enforced Runtime.blank ev ⟨some (Sample.residentChunk "EU"), none, Sample.request⟩ := by
  have hinit : NativeYamlEvaluator.init Runtime.blank Sample.bypassBundle "policy.yaml" = .ok _ := rfl
  refine ⟨_, hinit, ⟨_, rfl, rfl⟩, ?_⟩
  refine ((constraints_enforced_iff Runtime.blank Sample.bypassBundle "policy.yaml" _).1 hinit
    (Sample.residentChunk "EU") Sample.request).mpr ?_ ⟨_, rfl, rfl⟩
  rintro ⟨-, -, rule, hr, -, entry, he, actual, hactual, d, hd, op, operand, hop, hne, hnot⟩
  obtain rfl := List.mem_singleton.mp hr
  obtain rfl := List.mem_singleton.mp he
  obtain rfl : .val (.str "EU") = actual := Option.some.inj (Except.ok.inj hactual)
  obtain rfl := PyVal.dict.inj hd
  cases op with
  | isIn => exact hne rfl
  | notIn =>
    obtain rfl := Option.some.inj hop
    exact hnot ⟨_, rfl, by decide⟩
  | notOlderThan => cases hop
  | matchesPattern => cases hop
  | notMatchesPattern => cases hop
  | lengthAtMost => cases hop

/-- A value in the first list and in the second is allowed. -/
theorem in_hides_not_in :
    ∃ ev, NativeYamlEvaluator.init Runtime.blank Sample.bypassBundle "policy.yaml" = .ok ev ∧
      (∃ d, NativeYamlEvaluator.evaluate Runtime.blank ev (Sample.residentChunk "US") Sample.request =
        .ok d ∧ d.decision = .allow) ∧
      ¬ Enforced Runtime.blank ev ⟨some (Sample.residentChunk "US"), none, Sample.request⟩ := by
  refine ⟨_, rfl, ⟨_, rfl, rfl⟩, fun h => ?_⟩
  obtain ⟨resolved, hres, hval⟩ := h _ List.mem_cons_self rfl _ List.mem_cons_self
  obtain rfl : some (.val (.str "US")) = resolved := Except.ok.inj hres
  obtain ⟨xs, hxs, hnot⟩ := hval .notIn _ rfl
  obtain rfl := PyVal.list.inj hxs
  exact absurd hnot (by decide)

end Provenex
