import Provenex.Proofs.Congruence
import Provenex.Proofs.Evaluate

/-! Where the walk over validated rules raises. The operators were validated; what
is left are the paths, of which the validator passes over those without a dot, and
the ages that `not_older_than` reports, which may take too many digits. -/

namespace Provenex

open Guard

/-! ## The values of a bundle that has a hash -/

theorem jsonable_getOrNone {d : PyDict} (h : jsonable (.dict d) = true) (k : String) :
    jsonable (getOrNone d k) = true := by
  unfold getOrNone
  cases hk : getKey d k with
  | none => rfl
  | some v => exact jsonable_entry h _ (getKey_mem hk)

theorem jsonable_pyOr {d m : PyDict} (h : jsonable (.dict d) = true) {k : String}
    (hm : pyOr (getOrNone d k) (.dict []) = .dict m) : jsonable (.dict m) = true := by
  rcases pyOr_dict.mp hm with heq | ⟨-, rfl⟩
  · exact heq ▸ jsonable_getOrNone h k
  · rfl

section

variable {roots : List String}

/-- The evaluator of some bundle that its constructor accepts. -/
def Accepted (py : Stdlib) (roots : List String) (ev : NativeYaml) : Prop :=
  ∃ bundle source, NativeYaml.init py roots bundle source = .ok ev

theorem rulesChecked_mem {py : Stdlib} {written : List PyVal} {rules : List Rule}
    (h : RulesChecked py roots written rules) :
    ∀ r ∈ rules, ∃ m, .dict m ∈ written ∧ RuleChecked py roots m r := by
  unfold RulesChecked at h
  induction h with
  | nil => simp
  | cons hv _ ih =>
    intro r hr
    rcases List.mem_cons.mp hr with rfl | hr
    · obtain ⟨m, rfl, hm⟩ := hv
      exact ⟨m, List.mem_cons_self, hm⟩
    · obtain ⟨m, hmem, hm⟩ := ih r hr
      exact ⟨m, List.mem_cons_of_mem _ hmem, hm⟩

/-- What a policy compares with can be written as JSON, since its hash was taken. -/
theorem Accepted.entries_jsonable {py : Stdlib} {ev : NativeYaml} (h : Accepted py roots ev) :
    ∀ r ∈ ev.rules, ∀ e ∈ r.when ++ r.require, jsonable e.2 = true := by
  obtain ⟨bundle, source, hinit⟩ := h
  obtain ⟨d, rfl, h⟩ := NativeYaml.init_ok.mp hinit
  have hd : jsonable (.dict d) = true := (computePolicyVersionHash_ok py).mp ⟨_, h.hash⟩
  obtain ⟨written, hw, hrules⟩ := h.rules
  have hlist : jsonable (.list written) = true := jsonable_entry hd _ (getKey_mem hw)
  intro r hr e he
  obtain ⟨m, hmem, hm⟩ := rulesChecked_mem hrules r hr
  have hm' : jsonable (.dict m) = true := jsonable_item hlist _ hmem
  rcases List.mem_append.mp he with he | he
  · exact jsonable_entry (jsonable_pyOr hm' hm.when) e he
  · exact jsonable_entry (jsonable_pyOr hm' hm.require) e he

/-- What was checked of the operators of a rule, and that JSON can write their operands. -/
structure RuleOperators (py : Stdlib) (rule : Rule) : Prop where
  when : ∀ e ∈ rule.when, WhenMapping e.2
  require : ∀ e ∈ rule.require, RequireMapping py e.2
  written : ∀ e ∈ rule.require, jsonable e.2 = true

theorem Accepted.operators {py : Stdlib} {ev : NativeYaml} (h : Accepted py roots ev) :
    ∀ rule ∈ ev.rules, RuleOperators py rule := by
  have hwritten := h.entries_jsonable
  obtain ⟨bundle, source, hinit⟩ := h
  obtain ⟨d, rfl, h⟩ := NativeYaml.init_ok.mp hinit
  obtain ⟨written, -, hrules⟩ := h.rules
  intro rule hrule
  obtain ⟨m, -, hr⟩ := rulesChecked_mem hrules rule hrule
  exact ⟨fun e he => (hr.when_entries e he).2, fun e he => (hr.require_entries e he).2,
    fun e he => hwritten rule hrule e (List.mem_append_right _ he)⟩

end

/-! ## Paths -/

theorem splitDotsAux_head (cs : List Char) :
    ∃ rest, splitDotsAux cs = (cs.takeWhile fun c => c ≠ '.') :: rest := by
  induction cs with
  | nil => exact ⟨[], rfl⟩
  | cons c cs ih =>
    obtain ⟨rest, hrest⟩ := ih
    unfold splitDotsAux
    by_cases h : c = '.'
    · subst h
      exact ⟨splitDotsAux cs, rfl⟩
    · rw [if_neg h, hrest, List.takeWhile_cons_of_pos (by simpa using h)]
      exact ⟨rest, rfl⟩

theorem splitDots_head (s : String) : ∃ segs, splitDots s = beforeDot s :: segs := by
  obtain ⟨rest, hrest⟩ := splitDotsAux_head s.toList
  exact ⟨rest.map String.ofList, by rw [splitDots, hrest, List.map_cons, beforeDot]⟩

/-- The roots a path may start from. -/
def knownRoots : List String := ["chunk", "tool", "request"]

section

variable {Ω : Type} {rt : Runtime Ω} {roots : List String}

variable (Ω) in
theorem root_known (view : View) {root : String} (h : root ∈ knownRoots) :
    ∃ start : Option (PyObj Ω), view.root root = some start := by
  simp only [knownRoots, List.mem_cons, List.not_mem_nil, or_false] at h
  rcases h with rfl | rfl | rfl <;> exact ⟨_, rfl⟩

/-- A string that starts from a root a path may have; without a dot it is the root. -/
def KnownPath (k : PyAtom) : Prop := ∃ s, k = .str s ∧ beforeDot s ∈ knownRoots

theorem PathKey.known {k : PyAtom} (h : PathKey roots k) (hroots : roots ⊆ knownRoots) :
    KnownPath k := by
  obtain ⟨s, rfl, -, hroot⟩ := h
  exact ⟨s, rfl, hroots hroot⟩

variable (rt) in
theorem resolvePath_returns (k : PyAtom) (view : View) :
    (∃ o, resolvePath rt k view = .ok o) ↔ KnownPath k := by
  constructor
  · rintro ⟨o, ho⟩
    cases k with
    | str s =>
      refine ⟨s, rfl, ?_⟩
      obtain ⟨segs, hs⟩ := splitDots_head s
      by_contra hroot
      have hnone : (view.root (beforeDot s) : Option (Option (PyObj Ω))) = none := by
        simp only [knownRoots, List.mem_cons, List.not_mem_nil, or_false, not_or] at hroot
        obtain ⟨h1, h2, h3⟩ := hroot
        unfold View.root
        split <;> first | contradiction | rfl
      simp only [resolvePath, hs, hnone, reduceCtorEq] at ho
    | none => cases ho
    | bool b => cases ho
    | int i => cases ho
    | float f => cases ho
    | date d => cases ho
  · rintro ⟨s, rfl, hroot⟩
    obtain ⟨segs, hs⟩ := splitDots_head s
    obtain ⟨start, hstart⟩ := root_known Ω view hroot
    exact ⟨start.bind fun o => o.walk rt segs, by simp only [resolvePath, hs, hstart]⟩

/-! ## Entries of `when` -/

/-- The value is in the list, or equal to the one expected. -/
def ValueMatches (rt : Runtime Ω) (expected : PyVal) (actual : PyObj Ω) : Prop :=
  match expected with
  | .dict d => ∃ xs, getKey d "in" = some (.list xs) ∧ actual.inList rt xs = true
  | expected => actual.eq rt expected = true

def EntryMatches (rt : Runtime Ω) (view : View) (entry : PyAtom × PyVal) : Prop :=
  ∃ actual, resolvePath rt entry.1 view = .ok (some actual) ∧ ValueMatches rt entry.2 actual

theorem whenValue_true {expected : PyVal} {actual : PyObj Ω} :
    whenValue rt expected actual = .ok true ↔ ValueMatches rt expected actual := by
  cases expected with
  | atom a => simp [whenValue, ValueMatches]
  | list xs => simp [whenValue, ValueMatches]
  | dict d =>
    simp only [whenValue, ValueMatches]
    cases getKey d "in" with
    | none => simp
    | some v => cases v <;> simp

theorem whenEntryMatches_true {view : View} {entry : PyAtom × PyVal} :
    whenEntryMatches rt view entry = .ok true ↔ EntryMatches rt view entry := by
  unfold whenEntryMatches EntryMatches
  rw [bind_ok]
  constructor
  · rintro ⟨o, ho, h⟩
    cases o with
    | none => simp at h
    | some actual => exact ⟨actual, ho, whenValue_true.mp h⟩
  · rintro ⟨actual, ho, h⟩
    exact ⟨some actual, ho, whenValue_true.mpr h⟩

theorem whenValue_total {x : PyVal} (hx : WhenMapping x) (a : PyObj Ω) :
    ∃ b, whenValue rt x a = .ok b := by
  cases x with
  | atom c => exact ⟨_, rfl⟩
  | list xs => exact ⟨_, rfl⟩
  | dict d =>
    obtain ⟨-, hlist⟩ := hx d rfl
    simp only [whenValue]
    cases hin : getKey d "in" with
    | none => exact ⟨_, rfl⟩
    | some v =>
      cases v with
      | list xs => exact ⟨_, rfl⟩
      | atom c => exact absurd (hlist _ hin) Bool.false_ne_true
      | dict e => exact absurd (hlist _ hin) Bool.false_ne_true

theorem whenEntryMatches_returns {entry : PyAtom × PyVal} (h : WhenMapping entry.2) (view : View) :
    (∃ b, whenEntryMatches rt view entry = .ok b) ↔ KnownPath entry.1 := by
  rw [← resolvePath_returns rt entry.1 view]
  constructor
  · rintro ⟨b, hb⟩
    obtain ⟨o, ho, -⟩ := bind_ok.mp hb
    exact ⟨o, ho⟩
  · rintro ⟨o, ho⟩
    rw [whenEntryMatches, ho]
    cases o with
    | none => exact ⟨false, rfl⟩
    | some a => exact whenValue_total h a

/-! ## Entries of `require` -/

theorem checkPattern_total {positive : Bool} {word place : String} {v : PyVal}
    (h : v.isStr = true) (a : PyObj Ω) : ∃ r, checkPattern rt positive word place v a = .ok r := by
  unfold checkPattern
  cases a.str? with
  | none => exact ⟨_, rfl⟩
  | some s =>
    simp only
    split_ifs
    · exact ⟨_, rfl⟩
    · cases v with
      | atom c => cases c <;> first | exact ⟨_, rfl⟩ | exact absurd h Bool.false_ne_true
      | list xs => exact absurd h Bool.false_ne_true
      | dict d => exact absurd h Bool.false_ne_true

/-- With a duration that parses and a time that is a text, only the report may fail. -/
theorem checkNotOlderThan_outcome {place now : String} {v : PyVal}
    (h : ∃ n, parseDuration rt.toStdlib v "" = .ok n) (a : PyObj Ω) :
    ReturnsIf (Operator.notOlderThan.Written rt v (.str now) a) (.valueError none)
      (checkNotOlderThan rt place v (.str now) a) := by
  obtain ⟨n, hn⟩ := h
  have hn' := (parseDuration_ok v "" ("require['" ++ place ++ "'].not_older_than")).mp hn
  simp only [Operator.Written, checkNotOlderThan]
  cases hs : a.str? with
  | none => exact .of_ok (by simp) rfl
  | some s =>
    simp only [hn', bind, Except.bind]
    cases he : parseIso8601 rt.toStdlib s ("chunk value at '" ++ place ++ "'") with
    | error e =>
      refine .of_ok ?_ rfl
      rintro _ _ _ _ _ ⟨⟩ - - he' -
      cases he.symm.trans ((parseIso8601_ok rt.toStdlib s "" _).mp he')
    | ok epoch =>
      cases ht : parseIso8601 rt.toStdlib now "request.timestamp" with
      | error e =>
        refine .of_ok ?_ rfl
        rintro _ _ _ _ _ - ⟨⟩ - - ht'
        cases ht.symm.trans ((parseIso8601_ok rt.toStdlib now "" _).mp ht')
      | ok nowEpoch =>
        have he := (parseIso8601_ok rt.toStdlib s _ "").mp he
        have ht := (parseIso8601_ok rt.toStdlib now _ "").mp ht
        have hall := fun hw : ∀ s' now' maxAge actualEpoch nowEpoch', some s = some s' →
            PyVal.str now = .str now' → parseDuration rt.toStdlib v "" = .ok maxAge →
            parseIso8601 rt.toStdlib s' "" = .ok actualEpoch →
            parseIso8601 rt.toStdlib now' "" = .ok nowEpoch' →
            writableInt (nowEpoch' - actualEpoch) = true ∧ writableInt maxAge = true =>
          hw s now n epoch nowEpoch rfl rfl hn he ht
        by_cases hage : writableInt (nowEpoch - epoch) = true
        · by_cases hmax : writableInt n = true
          · refine .of_ok ?_ (by simp only [intText, hage, hmax, if_true]; rfl)
            rintro _ _ _ _ _ ⟨⟩ ⟨⟩ hn'' he' ht'
            rw [← Except.ok.inj (he.symm.trans he'), ← Except.ok.inj (ht.symm.trans ht'),
              ← Except.ok.inj (hn.symm.trans hn'')]
            exact ⟨hage, hmax⟩
          · refine .of_error (fun hw => hmax (hall hw).2) ?_
            simp only [intText, hage, hmax, if_true]
            rfl
        · refine .of_error (fun hw => hage (hall hw).1) ?_
          simp only [intText, hage]
          rfl

/-- The operator is another, or what it would report can be written. -/
def ReportWritten (rt : Runtime Ω) (op : Operator) (operand timestamp : PyVal) (a : PyObj Ω) :
    Prop :=
  op = .notOlderThan → Operator.notOlderThan.Written rt operand timestamp a

theorem reportWritten_of_ne {op : Operator} {operand timestamp : PyVal} {a : PyObj Ω}
    (h : op ≠ .notOlderThan) : ReportWritten rt op operand timestamp a :=
  fun heq => absurd heq h

/-- An operator returns, but for an age that cannot be reported. -/
theorem Operator.check_outcome (op : Operator) {place now : String} {v : PyVal}
    (h : op.Accepts rt.toStdlib v) (hv : printable v = true) (a : PyObj Ω) :
    ReturnsIf (ReportWritten rt op v (.str now) a) (.valueError none)
      (op.check rt place v (.str now) a) := by
  have hformat : rt.formatOf v = .ok (rt.format v) := formatOf_ok.mpr ⟨hv, rfl⟩
  cases op with
  | isIn =>
    cases v with
    | list xs => exact .of_ok (reportWritten_of_ne (by decide)) (by simp only [Operator.check, hformat]; rfl)
    | atom c => exact .of_ok (reportWritten_of_ne (by decide)) rfl
    | dict d => exact .of_ok (reportWritten_of_ne (by decide)) rfl
  | notIn =>
    cases v with
    | list xs => exact .of_ok (reportWritten_of_ne (by decide)) (by simp only [Operator.check, hformat]; rfl)
    | atom c => exact .of_ok (reportWritten_of_ne (by decide)) rfl
    | dict d => exact .of_ok (reportWritten_of_ne (by decide)) rfl
  | notOlderThan =>
    exact (checkNotOlderThan_outcome h a).congr ⟨fun hw _ => hw, fun hw => hw rfl⟩
  | matchesPattern =>
    obtain ⟨r, hr⟩ := checkPattern_total h a
    exact .of_ok (reportWritten_of_ne (by decide)) hr
  | notMatchesPattern =>
    obtain ⟨r, hr⟩ := checkPattern_total h a
    exact .of_ok (reportWritten_of_ne (by decide)) hr
  | lengthAtMost =>
    simp only [Operator.check]
    cases a.str? with
    | none => exact .of_ok (reportWritten_of_ne (by decide)) rfl
    | some s =>
      cases v with
      | atom c =>
        cases c with
        | int i => exact .of_ok (reportWritten_of_ne (by decide)) (by simp only [hformat]; rfl)
        | none | bool b | float f | str t | date d => exact absurd h Bool.false_ne_true
      | list xs => exact absurd h Bool.false_ne_true
      | dict d => exact absurd h Bool.false_ne_true

theorem firstOperator_key {d : PyDict} {op : Operator} (h : firstOperator d = some op) :
    ∃ v, getKey d op.key = some v :=
  Option.isSome_iff_exists.mp (List.find?_some (p := fun op : Operator => hasKey d op.key) h)

/-- The age that the entry would report, and the limit beside it, do not take too many digits. -/
def AgeWritten (rt : Runtime Ω) (view : View) (entry : PyAtom × PyVal) : Prop :=
  ∀ d actual, entry.2 = .dict d → firstOperator d = some .notOlderThan →
    resolvePath rt entry.1 view = .ok (some actual) →
      Operator.notOlderThan.Written rt (getOrNone d "not_older_than") view.request.timestamp actual

/-- `not_older_than` is the operator that is looked at. -/
def tellsAge (entry : PyAtom × PyVal) : Bool :=
  match entry.2 with
  | .dict d => firstOperator d = some .notOlderThan
  | _ => false

theorem ageWritten_of_other {entry : PyAtom × PyVal} (h : tellsAge entry = false) (view : View) :
    AgeWritten rt view entry := by
  intro d _ hd hop _
  simp [tellsAge, hd, hop] at h

/-- What a checked entry of a policy that has a hash comes to. -/
theorem requireEntryHolds_outcome {entry : PyAtom × PyVal} {now : String}
    (unknownMetadata : String) (h : RequireMapping rt.toStdlib entry.2)
    (hj : jsonable entry.2 = true) {view : View} (htime : view.request.timestamp = .str now)
    (hk : KnownPath entry.1) :
    ReturnsIf (AgeWritten rt view entry) (.valueError none)
      (requireEntryHolds rt unknownMetadata view entry) := by
  obtain ⟨k, x⟩ := entry
  obtain ⟨o, ho⟩ := (resolvePath_returns rt k view).mpr hk
  have hrun : requireEntryHolds rt unknownMetadata view (k, x) =
      (checkConstraint rt (rt.format (.atom k)) x o (.str now) unknownMetadata).map Prod.fst := by
    simp only [requireEntryHolds, ho, htime, bind, Except.bind]
    cases checkConstraint rt (rt.format (.atom k)) x o (.str now) unknownMetadata <;> rfl
  rw [hrun]
  refine ReturnsIf.map ?_ _
  simp only [AgeWritten, ho, htime, Except.ok.injEq]
  cases o with
  | none =>
    unfold checkConstraint
    split_ifs <;> exact .of_ok nofun rfl
  | some a =>
    cases x with
    | atom c => exact .of_ok nofun rfl
    | list xs => exact .of_ok nofun rfl
    | dict d =>
      simp only [checkConstraint]
      cases hop : firstOperator d with
      | none => exact .of_ok (by rintro _ _ ⟨⟩ hd; cases hop.symm.trans hd) rfl
      | some op =>
        obtain ⟨v, hv⟩ := firstOperator_key hop
        have hget : getOrNone d op.key = v := by rw [getOrNone, hv, Option.getD_some]
        have hprint : printable v = true :=
          printable_of_jsonable v (hget ▸ jsonable_getOrNone hj op.key)
        simp only [hget]
        refine (op.check_outcome ((h d rfl).2 op v hv) hprint a).congr ⟨?_, ?_⟩
        · rintro hw _ _ ⟨⟩ hd ⟨⟩
          obtain rfl := Option.some.inj (hop.symm.trans hd)
          rw [show getOrNone d "not_older_than" = v from hget]
          exact hw rfl
        · rintro hw rfl
          rw [← hget]
          exact hw d a rfl hop rfl

theorem requireEntryHolds_returns {entry : PyAtom × PyVal} {now : String}
    (unknownMetadata : String) (h : RequireMapping rt.toStdlib entry.2)
    (hj : jsonable entry.2 = true) {view : View} (htime : view.request.timestamp = .str now) :
    (∃ b, requireEntryHolds rt unknownMetadata view entry = .ok b) ↔
      KnownPath entry.1 ∧ AgeWritten rt view entry := by
  constructor
  · rintro ⟨b, hb⟩
    obtain ⟨o, ho, -⟩ := bind_ok.mp hb
    have hk := (resolvePath_returns rt entry.1 view).mp ⟨o, ho⟩
    exact ⟨hk, (requireEntryHolds_outcome unknownMetadata h hj htime hk).returns.mp ⟨b, hb⟩⟩
  · rintro ⟨hk, hw⟩
    exact (requireEntryHolds_outcome unknownMetadata h hj htime hk).returns.mpr hw

/-! ## The walk over the rules -/

/-- Nothing that the walk comes to makes it raise: every path is known, and every age can be
reported, entry by entry while they match, then while they pass, and on to the next rule unless
one failed. -/
def WalkSound (rt : Runtime Ω) (unknownMetadata : String) (view : View) : List Rule → Prop
  | [] => True
  | rule :: rest =>
    AllReached (fun e => KnownPath e.1) (EntryMatches rt view) rule.when ∧
      ((∀ e ∈ rule.when, EntryMatches rt view e) →
        AllReached (fun e => KnownPath e.1 ∧ AgeWritten rt view e)
          (EntryPasses rt unknownMetadata view) rule.require) ∧
      (((∀ e ∈ rule.when, EntryMatches rt view e) →
          ∀ e ∈ rule.require, EntryPasses rt unknownMetadata view e) →
        WalkSound rt unknownMetadata view rest)

/-- A policy all of whose paths are known, and whose ages can all be reported, does not raise. -/
theorem walkSound_of_known {rules : List Rule} (unknownMetadata : String) (view : View)
    (h : ∀ rule ∈ rules, (∀ e ∈ rule.when, KnownPath e.1) ∧
      ∀ e ∈ rule.require, KnownPath e.1 ∧ AgeWritten rt view e) :
    WalkSound rt unknownMetadata view rules := by
  induction rules with
  | nil => trivial
  | cons rule rest ih =>
    obtain ⟨hwhen, hrequire⟩ := h rule List.mem_cons_self
    exact ⟨.of_forall hwhen, fun _ => .of_forall hrequire,
      fun _ => ih fun r hr => h r (List.mem_cons_of_mem _ hr)⟩

theorem whenMatches_true {view : View} {rule : Rule} :
    whenMatches rt view rule.when = .ok true ↔ ∀ e ∈ rule.when, EntryMatches rt view e := by
  simp only [whenMatches, allHold_true, whenEntryMatches_true]

theorem evaluateRules_returns {rules : List Rule} {now : String} (unknownMetadata : String)
    {view : View} (h : ∀ rule ∈ rules, RuleOperators rt.toStdlib rule)
    (htime : view.request.timestamp = .str now) :
    ∀ fired, (∃ r, evaluateRules rt unknownMetadata view rules fired = .ok r) ↔
      WalkSound rt unknownMetadata view rules := by
  induction rules with
  | nil => exact fun fired => ⟨fun _ => trivial, fun _ => ⟨_, rfl⟩⟩
  | cons rule rest ih =>
    intro fired
    have hop := h rule List.mem_cons_self
    have ih := ih fun r hr => h r (List.mem_cons_of_mem _ hr)
    have hwhen : (∃ b, whenMatches rt view rule.when = .ok b) ↔
        AllReached (fun e => KnownPath e.1) (EntryMatches rt view) rule.when :=
      allHold_returns (fun e he => whenEntryMatches_returns (hop.when e he) view)
        fun e _ => whenEntryMatches_true
    have hrequire : (∃ b, requireHolds rt unknownMetadata view rule.require = .ok b) ↔
        AllReached (fun e => KnownPath e.1 ∧ AgeWritten rt view e)
          (EntryPasses rt unknownMetadata view) rule.require :=
      allHold_returns (fun e he =>
          requireEntryHolds_returns unknownMetadata (hop.require e he) (hop.written e he) htime)
        fun e _ => requireEntryHolds_true rt unknownMetadata view e
    rw [WalkSound, ← hwhen, ← whenMatches_true, ← hrequire, ← requireHolds_true, evaluateRules]
    cases whenMatches rt view rule.when with
    | error e => simp [bind, Except.bind]
    | ok applies =>
      cases applies with
      | false => simp [bind, Except.bind, ih]
      | true =>
        cases requireHolds rt unknownMetadata view rule.require with
        | error e => simp [bind, Except.bind]
        | ok holds => cases holds <;> simp [bind, Except.bind, ih]

/-- Checked rules decide where the inputs can be recorded and the walk meets nothing it raises on. -/
theorem evaluateView_returns {ev : NativeYaml} {inputs : PyDict} {view : View} {now : String}
    (h : ∀ r ∈ ev.rules, RuleOperators rt.toStdlib r) (htime : view.request.timestamp = .str now) :
    (∃ d, ev.evaluateView rt inputs view = .ok d) ↔ jsonable (.dict inputs) = true ∧
      WalkSound rt ev.defaults.unknownMetadata view ev.rules := by
  by_cases hj : jsonable (.dict inputs) = true
  · obtain ⟨hash, hrun⟩ := evaluateView_recorded rt hj
    rw [hrun, and_iff_right hj, ← evaluateRules_returns ev.defaults.unknownMetadata h htime []]
    cases evaluateRules rt ev.defaults.unknownMetadata view ev.rules [] <;> simp [Except.map]
  · rw [evaluateView_unrecorded rt hj]
    simp [hj]

end

end Provenex
