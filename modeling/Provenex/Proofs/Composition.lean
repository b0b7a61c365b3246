import Provenex.Proofs.Observation
import Provenex.Proofs.VersionHash

/-! How rules compose. The walk over the rules stops at the first violation, but what it decides is
whether any rule that applies is violated: the order does not matter unless a rule raises, and
more rules or a stricter default only take decisions away. -/

namespace Provenex

open Guard

section

variable {Ω : Type} {rt : Runtime Ω} {roots : List String}

/-! ## The rules of a bundle -/

theorem RuleChecked.unique {m : PyDict} {r r' : Rule} (h : RuleChecked rt.toStdlib roots m r)
    (h' : RuleChecked rt.toStdlib roots m r') : r = r' := by
  have hname : r.name = r'.name :=
    PyAtom.str.inj (PyVal.atom.inj (Option.some.inj (h.name.symm.trans h'.name)))
  have hwhen : r.when = r'.when := PyVal.dict.inj (h.when.symm.trans h'.when)
  have hrequire : r.require = r'.require := PyVal.dict.inj (h.require.symm.trans h'.require)
  have hviolation : r.onViolation = r'.onViolation := h.onViolation.trans h'.onViolation.symm
  cases r
  cases r'
  simp_all only

theorem RulesChecked.rule_of {written : List PyVal} {rules : List Rule}
    (h : RulesChecked rt.toStdlib roots written rules) :
    ∀ m, .dict m ∈ written → ∃ r ∈ rules, RuleChecked rt.toStdlib roots m r := by
  unfold RulesChecked at h
  induction h with
  | nil => simp
  | cons hv _ ih =>
    obtain ⟨d, rfl, hd⟩ := hv
    intro m hm
    rcases List.mem_cons.mp hm with heq | hm
    · obtain rfl := PyVal.dict.inj heq
      exact ⟨_, List.mem_cons_self, hd⟩
    · obtain ⟨r, hr, hrm⟩ := ih m hm
      exact ⟨r, List.mem_cons_of_mem _ hr, hrm⟩

/-- The rules of a list are among those of any list that holds what is written in it. -/
theorem RulesChecked.subset {written written' : List PyVal} {rules rules' : List Rule}
    (h : RulesChecked rt.toStdlib roots written rules)
    (h' : RulesChecked rt.toStdlib roots written' rules') (hsub : written ⊆ written') :
    rules ⊆ rules' := by
  intro r hr
  obtain ⟨m, hmem, hm⟩ := rulesChecked_mem h r hr
  obtain ⟨r', hr', hm'⟩ := h'.rule_of m (hsub hmem)
  rwa [hm.unique hm']

/-! ## Allowing -/

theorem EntryPasses.mono {unknown unknown' : String} {view : View} {entry : PyAtom × PyVal}
    (hdefault : unknown = "allow" → unknown' = "allow") (h : EntryPasses rt unknown view entry) :
    EntryPasses rt unknown' view entry := by
  obtain ⟨resolved, hres, hval⟩ := h
  refine ⟨resolved, hres, ?_⟩
  cases resolved with
  | none => exact hdefault hval
  | some actual => exact hval

theorem RulePasses.mono {unknown unknown' : String} {view : View} {rule : Rule}
    (hdefault : unknown = "allow" → unknown' = "allow") (h : RulePasses rt unknown view rule) :
    RulePasses rt unknown' view rule :=
  h.imp_right fun ⟨hw, hall⟩ => ⟨hw, fun entry he => (hall entry he).mono hdefault⟩

/-- Fewer rules and a laxer default allow all that was allowed. -/
theorem Allows.mono {ev ev' : NativeYaml} {inputs : PyDict} {view : View}
    (hrules : ev'.rules ⊆ ev.rules)
    (hdefault : ev.defaults.unknownMetadata = "allow" → ev'.defaults.unknownMetadata = "allow")
    (h : Allows rt ev inputs view) : Allows rt ev' inputs view := by
  rw [allows_iff] at h ⊢
  exact ⟨h.1, fun rule hr => (h.2 rule (hrules hr)).mono hdefault⟩

/-! ## Returning -/

/-- Dotted rules raise nothing but what an age of too many digits raises. -/
theorem evaluateRules_raises (hroots : roots ⊆ knownRoots) {rules : List Rule}
    (h : ∀ r ∈ rules, RuleSound rt.toStdlib roots r) {unknownMetadata now : String} {view : View}
    (htime : view.request.timestamp = .str now) :
    ∀ fired, OnlyRaises (· = .valueError none) (evaluateRules rt unknownMetadata view rules fired) := by
  induction rules with
  | nil => exact fun fired => .ok _
  | cons rule rules ih =>
    intro fired
    have ih := ih fun r hr => h r (List.mem_cons_of_mem _ hr)
    have hr := h rule List.mem_cons_self
    obtain ⟨b, hw⟩ : ∃ b, whenMatches rt view rule.when = .ok b := allHold_ok fun e he =>
      (whenEntryMatches_returns (hr.when e he) view).mpr ((hr.when_paths e he).known hroots)
    rw [evaluateRules, hw]
    cases b with
    | false => exact ih fired
    | true =>
      have hrequire : OnlyRaises (· = .valueError none)
          (requireHolds rt unknownMetadata view rule.require) :=
        requireHolds_raises hroots hr.toRuleOperators hr.require_paths htime
      exact hrequire.bind fun q _ => by
        cases q with
        | false => exact .ok _
        | true => exact ih _

/-! ## The names -/

/-- The `when` of the rule matches. -/
def applies (rt : Runtime Ω) (view : View) (rule : Rule) : Bool :=
  whenMatches rt view rule.when = .ok true

/-- The names of the rules that match, in order. -/
def matching (rt : Runtime Ω) (view : View) (rules : List Rule) : List String :=
  (rules.filter (applies rt view)).map (·.name)

theorem matching_cons {view : View} {rule : Rule} {rules : List Rule} (b : Bool)
    (hw : whenMatches rt view rule.when = .ok b) : matching rt view (rule :: rules) =
      (if b then [rule.name] else []) ++ matching rt view rules := by
  unfold matching
  cases b with
  | false => rw [List.filter_cons_of_neg (by simp [applies, hw])]; rfl
  | true => rw [List.filter_cons_of_pos (by simp [applies, hw])]; rfl

/-- `rule` is the first that applies and has a violated constraint; `before` are those before it. -/
structure FirstViolation (rt : Runtime Ω) (unknownMetadata : String) (view : View)
    (rules before : List Rule) (rule : Rule) : Prop where
  among : ∃ after, rules = before ++ rule :: after
  held : ∀ r ∈ before, applies rt view r = true →
    requireHolds rt unknownMetadata view r.require = .ok true
  applies : applies rt view rule = true
  violated : requireHolds rt unknownMetadata view rule.require = .ok false

/-- What a walk that decides has found, by its decision. -/
def Fired (rt : Runtime Ω) (unknownMetadata : String) (view : View) (rules : List Rule) :
    Decision → List String → Prop
  | .allow, names => names = matching rt view rules
  | .deny, names => ∃ before rule, FirstViolation rt unknownMetadata view rules before rule ∧
      names = matching rt view (before ++ [rule])

theorem Fired.cons {unknownMetadata : String} {view : View} {rule : Rule} {rules : List Rule}
    {decision : Decision} {names : List String} {b : Bool}
    (hw : whenMatches rt view rule.when = .ok b)
    (hr : b = true → requireHolds rt unknownMetadata view rule.require = .ok true)
    (h : Fired rt unknownMetadata view rules decision names) :
    Fired rt unknownMetadata view (rule :: rules) decision
      ((if b then [rule.name] else []) ++ names) := by
  cases decision with
  | allow => rw [Fired, matching_cons b hw, h]
  | deny =>
    obtain ⟨before, first, hfirst, rfl⟩ := h
    obtain ⟨after, rfl⟩ := hfirst.among
    refine ⟨rule :: before, first, ⟨⟨after, rfl⟩, ?_, hfirst.applies, hfirst.violated⟩, ?_⟩
    · rw [List.forall_mem_cons]
      refine ⟨fun happlies => hr ?_, hfirst.held⟩
      simpa [Provenex.applies, hw] using happlies
    · rw [List.cons_append, matching_cons b hw]

theorem evaluateRules_fired {unknownMetadata : String} {view : View} {rules : List Rule} :
    ∀ {fired : List String} {decision : Decision} {names : List String},
      evaluateRules rt unknownMetadata view rules fired = .ok (decision, names) →
        ∃ found, names = fired ++ found ∧ Fired rt unknownMetadata view rules decision found := by
  induction rules with
  | nil =>
    intro fired decision names h
    obtain ⟨rfl, rfl⟩ := Prod.mk.inj (Except.ok.inj h)
    exact ⟨[], by simp, rfl⟩
  | cons rule rules ih =>
    intro fired decision names h
    rw [evaluateRules] at h
    obtain ⟨b, hw, h⟩ := bind_ok.mp h
    cases b with
    | false =>
      obtain ⟨found, hnames, hfound⟩ := ih h
      exact ⟨found, hnames, hfound.cons hw fun hb => absurd hb Bool.false_ne_true⟩
    | true =>
      obtain ⟨q, hq, h⟩ := bind_ok.mp h
      cases q with
      | false =>
        -- the violation that ends the walk
        obtain ⟨rfl, rfl⟩ := Prod.mk.inj (Except.ok.inj h)
        refine ⟨[rule.name], rfl, [], rule, ⟨⟨rules, rfl⟩, by simp, ?_, hq⟩, ?_⟩
        · simp [applies, hw]
        · rw [List.nil_append, matching_cons true hw]
          rfl
      | true =>
        obtain ⟨found, rfl, hfound⟩ := ih h
        exact ⟨rule.name :: found, by simp, hfound.cons hw fun _ => hq⟩

/-! ## Two bundles -/

/-- The constructor accepts the bundle, and every path in it is dotted. -/
def DottedInit (accepts : PyVal → String → Except PyErr NativeYaml) (roots : List String)
    (bundle : PyVal) (ev : NativeYaml) : Prop :=
  (∃ source, accepts bundle source = .ok ev) ∧ Dotted roots ev

/-- The rules as they are written in the bundle. -/
def Lists (bundle : PyVal) (written : List PyVal) : Prop :=
  ∃ d, bundle = .dict d ∧ getKey d "rules" = some (.list written)

def Decides (outcome : Except PyErr PolicyDecision) (decision : Decision) : Prop :=
  ∃ d, outcome = .ok d ∧ d.decision = decision

/-- How the rules of one evaluator compose in one context. `accepts` is its constructor, and
`evaluate` its evaluation of the context. -/
structure Composes (rt : Runtime Ω) (roots : List String)
    (accepts : PyVal → String → Except PyErr NativeYaml)
    (evaluate : NativeYaml → Except PyErr PolicyDecision) (inputs : PyDict) (view : View) : Prop where
  /-- Where the time is a text, only inputs that cannot be recorded, and an age that cannot be
  reported, keep it from deciding. -/
  returns : ∀ {bundle ev}, DottedInit accepts roots bundle ev →
    (∃ now, view.request.timestamp = .str now) →
      ((∃ d, evaluate ev = .ok d) ↔
        jsonable (.dict inputs) = true ∧ WalkSound rt ev.defaults.unknownMetadata view ev.rules)
  /-- There, two orders of the rules come to the same unless one of them alone meets such an age. -/
  permuted : ∀ {bundle bundle' ev ev' written written'}, DottedInit accepts roots bundle ev →
    DottedInit accepts roots bundle' ev' → Lists bundle written → Lists bundle' written' →
    written.Perm written' → ev.defaults.unknownMetadata = ev'.defaults.unknownMetadata →
      (∃ now, view.request.timestamp = .str now) →
        ((evaluate ev).map (·.decision) = (evaluate ev').map (·.decision) ↔
          (jsonable (.dict inputs) = true →
            (WalkSound rt ev.defaults.unknownMetadata view ev.rules ↔
              WalkSound rt ev'.defaults.unknownMetadata view ev'.rules)))
  /-- Where both orders decide, they decide alike. -/
  agreed : ∀ {bundle bundle' ev ev' written written'}, DottedInit accepts roots bundle ev →
    DottedInit accepts roots bundle' ev' → Lists bundle written → Lists bundle' written' →
    written.Perm written' → ev.defaults.unknownMetadata = ev'.defaults.unknownMetadata →
      ∀ {decision decision'}, Decides (evaluate ev) decision → Decides (evaluate ev') decision' →
        decision = decision'
  inserted : ∀ {bundle bundle' ev ev' before rule after}, DottedInit accepts roots bundle ev →
    DottedInit accepts roots bundle' ev' → Lists bundle (before ++ after) →
    Lists bundle' (before ++ rule :: after) →
    ev.defaults.unknownMetadata = ev'.defaults.unknownMetadata →
      Decides (evaluate ev) .deny → ¬ Decides (evaluate ev') .allow
  tightened : ∀ {bundle bundle' ev ev' written}, DottedInit accepts roots bundle ev →
    DottedInit accepts roots bundle' ev' → Lists bundle written → Lists bundle' written →
    ev.defaults.unknownMetadata = "allow" → ev'.defaults.unknownMetadata = "deny" →
      Decides (evaluate ev) .deny → ¬ Decides (evaluate ev') .allow
  fired : ∀ {bundle ev d}, DottedInit accepts roots bundle ev → evaluate ev = .ok d →
    (∃ written, Lists bundle written ∧ RulesChecked rt.toStdlib roots written ev.rules) ∧
      Fired rt ev.defaults.unknownMetadata view ev.rules d.decision d.rulesFired

variable {inputs : PyDict} {view : View}

theorem DottedInit.lists {bundle : PyVal} {ev : NativeYaml}
    (h : DottedInit (NativeYaml.init rt.toStdlib roots) roots bundle ev) :
    ∃ written, Lists bundle written ∧ RulesChecked rt.toStdlib roots written ev.rules := by
  obtain ⟨⟨source, hinit⟩, -⟩ := h
  obtain ⟨d, rfl, hd⟩ := NativeYaml.init_ok.mp hinit
  obtain ⟨written, hw, hrules⟩ := hd.rules
  exact ⟨written, ⟨d, rfl, hw⟩, hrules⟩

theorem DottedInit.checked {bundle : PyVal} {ev : NativeYaml} {written : List PyVal}
    (h : DottedInit (NativeYaml.init rt.toStdlib roots) roots bundle ev) (hw : Lists bundle written) :
    RulesChecked rt.toStdlib roots written ev.rules := by
  obtain ⟨written', ⟨d, rfl, hd⟩, hrules⟩ := h.lists
  obtain ⟨d', hd', hw⟩ := hw
  obtain rfl := PyVal.dict.inj hd'
  obtain rfl := PyVal.list.inj (Option.some.inj (hd.symm.trans hw))
  exact hrules

/-- What one bundle allows another with fewer rules and a laxer default allows. -/
theorem DottedInit.allows {bundle bundle' : PyVal} {ev ev' : NativeYaml} {written written' : List PyVal}
    (h : DottedInit (NativeYaml.init rt.toStdlib roots) roots bundle ev)
    (h' : DottedInit (NativeYaml.init rt.toStdlib roots) roots bundle' ev') (hw : Lists bundle written)
    (hw' : Lists bundle' written') (hsub : written' ⊆ written)
    (hdefault : ev.defaults.unknownMetadata = "allow" → ev'.defaults.unknownMetadata = "allow")
    (hallow : Allows rt ev inputs view) : Allows rt ev' inputs view :=
  hallow.mono ((h'.checked hw').subset (h.checked hw) hsub) hdefault

theorem Decides.unique {outcome : Except PyErr PolicyDecision} {decision decision' : Decision}
    (h : Decides outcome decision) (h' : Decides outcome decision') : decision = decision' := by
  obtain ⟨d, hd, rfl⟩ := h
  obtain ⟨d', hd', rfl⟩ := h'
  rw [Except.ok.inj (hd.symm.trans hd')]

/-- What any order of the rules allows. -/
theorem DottedInit.agreed {bundle bundle' : PyVal} {ev ev' : NativeYaml}
    {written written' : List PyVal}
    (h : DottedInit (NativeYaml.init rt.toStdlib roots) roots bundle ev)
    (h' : DottedInit (NativeYaml.init rt.toStdlib roots) roots bundle' ev') (hw : Lists bundle written)
    (hw' : Lists bundle' written') (hperm : written.Perm written')
    (hdefault : ev.defaults.unknownMetadata = ev'.defaults.unknownMetadata)
    {decision decision' : Decision} (hd : Decides (ev.evaluateView rt inputs view) decision)
    (hd' : Decides (ev'.evaluateView rt inputs view) decision') : decision = decision' := by
  cases decision with
  | allow =>
    have hallow : Allows rt ev' inputs view :=
      h.allows h' hw hw' hperm.symm.subset (fun ha => hdefault ▸ ha) hd
    exact Decides.unique hallow hd'
  | deny =>
    cases decision' with
    | deny => rfl
    | allow =>
      have hallow : Allows rt ev inputs view :=
        h'.allows h hw' hw hperm.subset (fun ha => hdefault.symm ▸ ha) hd'
      exact hd.unique hallow

theorem DottedInit.accepted {bundle : PyVal} {ev : NativeYaml}
    (h : DottedInit (NativeYaml.init rt.toStdlib roots) roots bundle ev) :
    Accepted rt.toStdlib roots ev := by
  obtain ⟨⟨source, hinit⟩, -⟩ := h
  exact ⟨bundle, source, hinit⟩

/-- What an evaluator raises on inputs that can be recorded. -/
theorem DottedInit.raises (hroots : roots ⊆ knownRoots) {bundle : PyVal} {ev : NativeYaml}
    (h : DottedInit (NativeYaml.init rt.toStdlib roots) roots bundle ev)
    (hj : jsonable (.dict inputs) = true) {now : String} (htime : view.request.timestamp = .str now) :
    OnlyRaises (· = .valueError none) (ev.evaluateView rt inputs view) := by
  obtain ⟨hash, hrun⟩ := evaluateView_recorded rt hj
  rw [hrun]
  exact (evaluateRules_raises hroots (h.2.sound h.accepted) htime []).map _

theorem composes (hroots : roots ⊆ knownRoots) :
    Composes rt roots (NativeYaml.init rt.toStdlib roots)
      (fun ev => ev.evaluateView rt inputs view) inputs view where
  returns := by
    rintro bundle ev h ⟨now, htime⟩
    exact evaluateView_returns h.accepted.operators htime
  permuted := by
    rintro bundle bundle' ev ev' written written' h h' hw hw' hperm hdefault ⟨now, htime⟩
    by_cases hj : jsonable (.dict inputs) = true
    · have hreturns : (∃ d, ev.evaluateView rt inputs view = .ok d) ↔ _ :=
        evaluateView_returns h.accepted.operators htime
      have hreturns' : (∃ d, ev'.evaluateView rt inputs view = .ok d) ↔ _ :=
        evaluateView_returns h'.accepted.operators htime
      rw [and_iff_right hj] at hreturns hreturns'
      rw [forall_prop_of_true hj, ← hreturns, ← hreturns']
      cases hd : ev.evaluateView rt inputs view with
      | error e =>
        cases hd' : ev'.evaluateView rt inputs view with
        | error e' =>
          rw [h.raises hroots hj htime e hd, h'.raises hroots hj htime e' hd']
          exact iff_of_true rfl (by simp)
        | ok d' => simp [Except.map]
      | ok d =>
        cases hd' : ev'.evaluateView rt inputs view with
        | error e' => simp [Except.map]
        | ok d' =>
          have hsame := h.agreed h' hw hw' hperm hdefault ⟨d, hd, rfl⟩ ⟨d', hd', rfl⟩
          exact iff_of_true (congrArg Except.ok hsame) (by simp)
    · rw [evaluateView_unrecorded rt hj, evaluateView_unrecorded rt hj]
      exact iff_of_true rfl fun h => absurd h hj
  agreed := fun h h' hw hw' hperm hdefault _ _ hd hd' => h.agreed h' hw hw' hperm hdefault hd hd'
  inserted := by
    intro bundle bundle' ev ev' before rule after h h' hw hw' hdefault hdeny hd'
    have hsub : before ++ after ⊆ before ++ rule :: after :=
      ((List.sublist_cons_self rule after).append_left before).subset
    have hallow : Allows rt ev inputs view :=
      h'.allows h hw' hw hsub (fun ha => hdefault.symm ▸ ha) hd'
    cases hdeny.unique hallow
  tightened := by
    intro bundle bundle' ev ev' written h h' hw hw' hlax _ hdeny hd'
    have hallow : Allows rt ev inputs view :=
      h'.allows h hw' hw (List.Subset.refl _) (fun _ => hlax) hd'
    cases hdeny.unique hallow
  fired := by
    intro bundle ev d h hd
    refine ⟨h.lists, ?_⟩
    obtain ⟨hash, -, hd⟩ := bind_ok.mp hd
    obtain ⟨⟨decision, names⟩, hrun, hd⟩ := bind_ok.mp hd
    obtain ⟨found, rfl, hfound⟩ := evaluateRules_fired hrun
    obtain rfl := Except.ok.inj hd
    exact hfound

/-- The rules of both evaluators compose, in every context. -/
theorem rules_compose (rt : Runtime Ω) (request : RequestContext) :
    (∀ chunk, Composes rt chunkDomainRoots (NativeYamlEvaluator.init rt)
      (fun ev => NativeYamlEvaluator.evaluate rt ev chunk request) (buildInputs chunk request)
      ⟨some chunk, none, request⟩) ∧
    (∀ tool, Composes rt toolCallDomainRoots (NativeYamlToolCallEvaluator.init rt)
      (fun ev => NativeYamlToolCallEvaluator.evaluate rt ev tool request)
      (buildToolCallInputs tool request) ⟨none, some tool, request⟩) :=
  ⟨fun _ => composes (by decide), fun _ => composes (by decide)⟩

end

namespace Sample

theorem agedEvaluator_init {rules : List PyDict}
    (h : ∀ require ∈ rules, ∀ e ∈ require, e = tierEntry ∨ e = ageEntry)
    (hj : jsonable (.dict (agedBundle rules)) = true) :
    DottedInit (NativeYamlEvaluator.init epochClock) chunkDomainRoots (.dict (agedBundle rules))
      (agedEvaluator rules) :=
  ⟨⟨"policy.yaml", NativeYaml.init_ok.mpr ⟨_, rfl, agedBundle_checked h hj⟩⟩, agedEvaluator_dotted h⟩

theorem agedBundle_lists (rules : List PyDict) : Lists (.dict (agedBundle rules))
    (rules.map fun require => .dict (writtenRule require)) :=
  ⟨_, rfl, rfl⟩

end Sample

/-- A rule that is violated, before and after one that asks for nothing. -/
theorem rules_compose_sample : ∃ ev ev', DottedInit (NativeYamlEvaluator.init Sample.epochClock)
      chunkDomainRoots (.dict (Sample.agedBundle [[Sample.tierEntry], []])) ev ∧
    DottedInit (NativeYamlEvaluator.init Sample.epochClock) chunkDomainRoots
      (.dict (Sample.agedBundle [[], [Sample.tierEntry]])) ev' ∧
    (NativeYamlEvaluator.evaluate Sample.epochClock ev Sample.seenChunk Sample.request).map
        (·.decision) =
      (NativeYamlEvaluator.evaluate Sample.epochClock ev' Sample.seenChunk Sample.request).map
        (·.decision) := by
  have hinit : DottedInit (NativeYamlEvaluator.init Sample.epochClock) chunkDomainRoots
      (.dict (Sample.agedBundle [[Sample.tierEntry], []])) _ := Sample.agedEvaluator_init (by
    simp only [List.forall_mem_cons, List.not_mem_nil, false_imp_iff, implies_true, and_true,
      true_or]) rfl
  have hinit' : DottedInit (NativeYamlEvaluator.init Sample.epochClock) chunkDomainRoots
      (.dict (Sample.agedBundle [[], [Sample.tierEntry]])) _ := Sample.agedEvaluator_init (by
    simp only [List.forall_mem_cons, List.not_mem_nil, false_imp_iff, implies_true, and_true,
      true_or]) rfl
  refine ⟨_, _, hinit, hinit', ?_⟩
  refine (((rules_compose Sample.epochClock Sample.request).1 Sample.seenChunk).permuted hinit hinit'
    (Sample.agedBundle_lists _) (Sample.agedBundle_lists _) (.swap _ _ []) rfl ⟨_, rfl⟩).mpr ?_
  refine fun _ => iff_of_true ?_ ?_
  · exact hinit.2.walkSound (by decide) (by decide) _
  · exact hinit'.2.walkSound (by decide) (by decide) _

/-- A rule that is violated, and one that cannot report an age: in one order the two deny, in the
other they raise. -/
theorem permuted_limit_raises :
    ∃ ev ev' written written' d, DottedInit (NativeYamlEvaluator.init Sample.epochClock)
        chunkDomainRoots (.dict (Sample.agedBundle [[Sample.tierEntry], [Sample.ageEntry]])) ev ∧
      DottedInit (NativeYamlEvaluator.init Sample.epochClock) chunkDomainRoots
        (.dict (Sample.agedBundle [[Sample.ageEntry], [Sample.tierEntry]])) ev' ∧
      Lists (.dict (Sample.agedBundle [[Sample.tierEntry], [Sample.ageEntry]])) written ∧
      Lists (.dict (Sample.agedBundle [[Sample.ageEntry], [Sample.tierEntry]])) written' ∧
      written.Perm written' ∧ ev.defaults = ev'.defaults ∧
      NativeYamlEvaluator.evaluate Sample.epochClock ev Sample.seenChunk Sample.request = .ok d ∧
      d.decision = .deny ∧
      NativeYamlEvaluator.evaluate Sample.epochClock ev' Sample.seenChunk Sample.request =
        .error (.valueError none) := by
  have hinit : DottedInit (NativeYamlEvaluator.init Sample.epochClock) chunkDomainRoots
      (.dict (Sample.agedBundle [[Sample.tierEntry], [Sample.ageEntry]])) _ := Sample.agedEvaluator_init (by
    simp only [List.forall_mem_cons, List.not_mem_nil, false_imp_iff, implies_true, and_true,
      true_or, or_true]) rfl
  have hinit' : DottedInit (NativeYamlEvaluator.init Sample.epochClock) chunkDomainRoots
      (.dict (Sample.agedBundle [[Sample.ageEntry], [Sample.tierEntry]])) _ := Sample.agedEvaluator_init (by
    simp only [List.forall_mem_cons, List.not_mem_nil, false_imp_iff, implies_true, and_true,
      true_or, or_true]) rfl
  obtain ⟨hash, hrun⟩ := Sample.agedEvaluator_run [[Sample.tierEntry], [Sample.ageEntry]]
  obtain ⟨hash', hrun'⟩ := Sample.agedEvaluator_run [[Sample.ageEntry], [Sample.tierEntry]]
  rw [List.map_cons, Sample.readRule_denies] at hrun
  rw [List.map_cons, Sample.readRule_raises] at hrun'
  exact ⟨_, _, _, _, _, hinit, hinit', Sample.agedBundle_lists _, Sample.agedBundle_lists _,
    .swap _ _ [], rfl, hrun, rfl, hrun'⟩

end Provenex
