import Provenex.Proofs.KeyOrder
import Provenex.Proofs.LongLimits

/-! The version hash of an evaluator: it determines the decisions, and each half
of a unified file has its own. -/

namespace Provenex

open Guard

section

variable {Ω : Type} {rt : Runtime Ω} {roots : List String}

/-! ## From bundles that differ in the order of keys -/

/-- Every path of the evaluator's rules is dotted, with a root of the domain. -/
def Dotted (roots : List String) (ev : NativeYaml) : Prop :=
  ∀ r ∈ ev.rules, ∀ e ∈ r.when ++ r.require, PathKey roots e.1

instance (roots : List String) (ev : NativeYaml) : Decidable (Dotted roots ev) :=
  inferInstanceAs (Decidable (∀ r ∈ ev.rules, ∀ e ∈ r.when ++ r.require, PathKey roots e.1))

theorem requireHolds_raises (hroots : roots ⊆ knownRoots) {rule : Rule}
    (h : RuleOperators rt.toStdlib rule) (hk : ∀ e ∈ rule.require, PathKey roots e.1)
    {unknownMetadata now : String} {view : View} (htime : view.request.timestamp = .str now) :
    OnlyRaises (· = .valueError none) (requireHolds rt unknownMetadata view rule.require) :=
  .allHold fun e he => (requireEntryHolds_outcome unknownMetadata (h.require e he) (h.written e he)
    htime ((hk e he).known hroots)).onlyRaises

/-- A rule of the bundle, checked, of which JSON can write the operands and all paths are dotted. -/
structure RuleSound (py : Stdlib) (roots : List String) (r : Rule) : Prop
    extends RuleOperators py r where
  when_paths : ∀ e ∈ r.when, PathKey roots e.1
  require_paths : ∀ e ∈ r.require, PathKey roots e.1

theorem Dotted.sound {py : Stdlib} {ev : NativeYaml} (h : Accepted py roots ev)
    (hdot : Dotted roots ev) : ∀ r ∈ ev.rules, RuleSound py roots r := fun r hr =>
  { h.operators r hr with
    when_paths := fun e he => hdot r hr e (List.mem_append_left _ he)
    require_paths := fun e he => hdot r hr e (List.mem_append_right _ he) }

/-- Dotted rules that ask for no age do not raise. -/
theorem Dotted.walkSound (hroots : roots ⊆ knownRoots) {ev : NativeYaml} (hdot : Dotted roots ev)
    {view : View} (h : ∀ r ∈ ev.rules, ∀ e ∈ r.require, tellsAge e = false)
    (unknownMetadata : String) : WalkSound rt unknownMetadata view ev.rules := by
  refine walkSound_of_known unknownMetadata view fun r hr => ⟨fun e he => ?_, fun e he => ⟨?_, ?_⟩⟩
  · exact (hdot r hr e (List.mem_append_left _ he)).known hroots
  · exact (hdot r hr e (List.mem_append_right _ he)).known hroots
  · exact ageWritten_of_other (h r hr e he) view

theorem RuleChecked.agrees (hb : OrderBlind rt) (hroots : roots ⊆ knownRoots) {m m' : PyDict}
    {r r' : Rule} (hm : SameDict m m') (h : RuleChecked rt.toStdlib roots m r)
    (h' : RuleChecked rt.toStdlib roots m' r') (hs : RuleSound rt.toStdlib roots r)
    (hs' : RuleSound rt.toStdlib roots r') {unknownMetadata now : String} {view : View}
    (htime : view.request.timestamp = .str now) : RuleAgrees rt unknownMetadata view r r' where
  name := by
    have hn := hm.getKey "name"
    rw [h.name, h'.name] at hn
    exact PyAtom.str.inj (PyVal.atom.inj (Option.some.inj hn))
  when := by
    refine (hm.read h.when h'.when).whenMatches hb hroots (fun e he => ?_) view
    rcases List.mem_append.mp he with he | he
    · exact ⟨hs.when_paths e he, hs.when e he⟩
    · exact ⟨hs'.when_paths e he, hs'.when e he⟩
  require := by
    refine (hm.read h.require h'.require).requireHolds_true hb (fun e he => ?_) _ view
    rcases List.mem_append.mp he with he | he
    · exact hs.require e he
    · exact hs'.require e he
  raises := requireHolds_raises hroots hs.toRuleOperators hs.require_paths htime
  raises' := requireHolds_raises hroots hs'.toRuleOperators hs'.require_paths htime

theorem RulesChecked.agree (hb : OrderBlind rt) (hroots : roots ⊆ knownRoots)
    {written written' : List PyVal} {rules rules' : List Rule}
    (hw : written.map norm = written'.map norm) (hj : ∀ v ∈ written, JsonShaped v)
    (hj' : ∀ v ∈ written', JsonShaped v) (h : RulesChecked rt.toStdlib roots written rules)
    (h' : RulesChecked rt.toStdlib roots written' rules')
    (hs : ∀ r ∈ rules, RuleSound rt.toStdlib roots r)
    (hs' : ∀ r ∈ rules', RuleSound rt.toStdlib roots r)
    {unknownMetadata now : String} {view : View} (htime : view.request.timestamp = .str now) :
    List.Forall₂ (RuleAgrees rt unknownMetadata view) rules rules' := by
  unfold RulesChecked at h h'
  induction h generalizing written' rules' with
  | nil =>
    obtain rfl := List.map_eq_nil_iff.mp hw.symm
    cases h'
    exact .nil
  | cons hv _ ih =>
    cases h' with
    | nil => cases hw
    | cons hv' hrest =>
      obtain ⟨m, rfl, hm⟩ := hv
      obtain ⟨m', rfl, hm'⟩ := hv'
      obtain ⟨hhead, htail⟩ := List.cons.inj hw
      refine .cons (hm.agrees hb hroots ⟨hj _ List.mem_cons_self, hj' _ List.mem_cons_self, hhead⟩
        hm' (hs _ List.mem_cons_self) (hs' _ List.mem_cons_self) htime) ?_
      exact ih htail (fun v hv => hj v (List.mem_cons_of_mem _ hv))
        (fun v hv => hj' v (List.mem_cons_of_mem _ hv)) hrest
        (fun r hr => hs r (List.mem_cons_of_mem _ hr))
        (fun r hr => hs' r (List.mem_cons_of_mem _ hr))

/-- The default for unknown metadata, from the value under `defaults`. -/
theorem unknownMetadata_read {v : PyVal} {source : String} {dflt : Defaults}
    (h : validateDefaults rt.toStdlib v source = .ok dflt) :
    (v = .none ∧ dflt.unknownMetadata = "deny") ∨ ∃ d, v = .dict d ∧
      (getKey d "unknown_metadata").getD (.str "deny") = .str dflt.unknownMetadata := by
  unfold validateDefaults at h
  split at h
  · obtain rfl := Except.ok.inj h
    exact .inl ⟨rfl, rfl⟩
  · obtain ⟨d, hd, h⟩ := bind_ok.mp h
    obtain ⟨-, h⟩ := seq_ok.mp h
    obtain ⟨source, hu⟩ : ∃ source, readDefault rt.toStdlib d "unknown_metadata" source =
        .ok dflt.unknownMetadata := by
      split at h
      · obtain ⟨u, hu, h⟩ := bind_ok.mp h
        obtain ⟨m, -, h⟩ := bind_ok.mp h
        obtain rfl := Except.ok.inj h
        exact ⟨_, hu⟩
      · obtain ⟨m, -, h⟩ := bind_ok.mp h
        obtain ⟨u, hu, h⟩ := bind_ok.mp h
        obtain rfl := Except.ok.inj h
        exact ⟨_, hu⟩
    refine .inr ⟨d, asMapping_ok.mp hd, ?_⟩
    unfold readDefault at hu
    simp only at hu
    split at hu
    · next s hs =>
      split_ifs at hu
      rw [hs, Except.ok.inj hu]
    · cases hu

theorem unknownMetadata_same {d d' : PyDict} (hd : SameDict d d') {source source' : String}
    {dflt dflt' : Defaults}
    (h : validateDefaults rt.toStdlib (getOrNone d "defaults") source = .ok dflt)
    (h' : validateDefaults rt.toStdlib (getOrNone d' "defaults") source' = .ok dflt') :
    dflt.unknownMetadata = dflt'.unknownMetadata := by
  have hnorm := hd.getOrNone "defaults"
  rcases unknownMetadata_read h with ⟨hn, hdeny⟩ | ⟨m, hm, hword⟩
  · rcases unknownMetadata_read h' with ⟨-, hdeny'⟩ | ⟨m', hm', -⟩
    · rw [hdeny, hdeny']
    · rw [hn, hm', norm_eq_normDict] at hnorm
      cases hnorm
  · rcases unknownMetadata_read h' with ⟨hn', -⟩ | ⟨m', hm', hword'⟩
    · rw [hm, hn', norm_eq_normDict] at hnorm
      cases hnorm
    · rw [hm, hm'] at hnorm
      have hsame : SameDict m m' :=
        ⟨hm ▸ getOrNone_shaped hd.1 _, hm' ▸ getOrNone_shaped hd.2.1 _, hnorm⟩
      have hk := hsame.getD "unknown_metadata" (.str "deny")
      rw [hword, hword'] at hk
      exact PyAtom.str.inj (PyVal.atom.inj hk)

/-- Evaluators whose walks agree decide alike, unless one of them raises alone. -/
theorem evaluateView_agree {ev ev' : NativeYaml}
    (hop : ∀ r ∈ ev.rules, RuleOperators rt.toStdlib r)
    (hop' : ∀ r ∈ ev'.rules, RuleOperators rt.toStdlib r) {inputs : PyDict} {view : View}
    {now : String} (htime : view.request.timestamp = .str now)
    (h : evaluateRules rt ev.defaults.unknownMetadata view ev.rules [] =
        evaluateRules rt ev'.defaults.unknownMetadata view ev'.rules [] ↔
      ((∃ r, evaluateRules rt ev.defaults.unknownMetadata view ev.rules [] = .ok r) ↔
        ∃ r, evaluateRules rt ev'.defaults.unknownMetadata view ev'.rules [] = .ok r)) :
    ev.evaluateView rt inputs view = ev'.evaluateView rt inputs view ↔
      (jsonable (.dict inputs) = true →
        (WalkSound rt ev.defaults.unknownMetadata view ev.rules ↔
          WalkSound rt ev'.defaults.unknownMetadata view ev'.rules)) := by
  by_cases hj : jsonable (.dict inputs) = true
  · obtain ⟨hash, hrun⟩ := evaluateView_recorded rt hj
    rw [evaluateRules_returns _ hop htime, evaluateRules_returns _ hop' htime] at h
    rw [hrun, hrun, forall_prop_of_true hj, ← h]
    refine ⟨fun heq => ?_, fun heq => by rw [heq]⟩
    cases hx : evaluateRules rt ev.defaults.unknownMetadata view ev.rules [] with
    | error e =>
      cases hy : evaluateRules rt ev'.defaults.unknownMetadata view ev'.rules [] with
      | error e' => rw [hx, hy] at heq; exact congrArg _ (Except.error.inj heq)
      | ok y => rw [hx, hy] at heq; cases heq
    | ok x =>
      cases hy : evaluateRules rt ev'.defaults.unknownMetadata view ev'.rules [] with
      | error e' => rw [hx, hy] at heq; cases heq
      | ok y =>
        rw [hx, hy] at heq
        have hxy := Except.ok.inj heq
        simp only [PolicyDecision.mk.injEq] at hxy
        exact congrArg _ (Prod.ext hxy.1 hxy.2.1)
  · rw [evaluateView_unrecorded rt hj, evaluateView_unrecorded rt hj]
    exact iff_of_true rfl fun h => absurd h hj

theorem evaluateView_same (hb : OrderBlind rt) (hroots : roots ⊆ knownRoots) {d d' : PyDict}
    {source source' : String} {ev ev' : NativeYaml} (hd : SameDict d d')
    (h : InitChecked rt.toStdlib roots d source ev)
    (h' : InitChecked rt.toStdlib roots d' source' ev') (hdot : Dotted roots ev)
    (hdot' : Dotted roots ev') (inputs : PyDict) {view : View} {now : String}
    (htime : view.request.timestamp = .str now) :
    ev.evaluateView rt inputs view = ev'.evaluateView rt inputs view ↔
      (jsonable (.dict inputs) = true →
        (WalkSound rt ev.defaults.unknownMetadata view ev.rules ↔
          WalkSound rt ev'.defaults.unknownMetadata view ev'.rules)) := by
  obtain ⟨written, hw, hr⟩ := h.rules
  obtain ⟨written', hw', hr'⟩ := h'.rules
  have hacc : Accepted rt.toStdlib roots ev := ⟨_, _, NativeYaml.init_ok.mpr ⟨d, rfl, h⟩⟩
  have hacc' : Accepted rt.toStdlib roots ev' := ⟨_, _, NativeYaml.init_ok.mpr ⟨d', rfl, h'⟩⟩
  have hrules := hd.getKey "rules"
  rw [hw, hw', Option.map_some, Option.map_some, norm_list, norm_list] at hrules
  have hitems {e : PyDict} {xs : List PyVal} (he : JsonShaped (.dict e))
      (hk : getKey e "rules" = some (.list xs)) : ∀ x ∈ xs, JsonShaped x := by
    cases getKey_value he hk with
    | list hx => exact hx
  have hagree : List.Forall₂ (RuleAgrees rt ev'.defaults.unknownMetadata view) ev.rules ev'.rules :=
    hr.agree hb hroots (PyVal.list.inj (Option.some.inj hrules)) (hitems hd.1 hw)
      (hitems hd.2.1 hw') hr' (hdot.sound hacc) (hdot'.sound hacc') htime
  refine evaluateView_agree hacc.operators hacc'.operators htime ?_
  rw [unknownMetadata_same hd h.defaults h'.defaults]
  exact evaluateRules_agree hagree []

/-! ## From one hash -/

/-- The digest does not collide on the canonical bytes of the two values. -/
def NoCollision (py : Stdlib) (v w : PyVal) : Prop :=
  ∀ a b, canonicalBytes py v = .ok a → canonicalBytes py w = .ok b → py.sha256 a = py.sha256 b →
    a = b

theorem sha256Hex_inj {py : Stdlib} {a b : Bytes} (h : sha256Hex py a = sha256Hex py b) :
    py.sha256 a = py.sha256 b := by
  have hl := congrArg String.toList h
  simp only [sha256Hex, String.toList_append] at hl
  exact hexdigest_inj (String.toList_inj.mp (List.append_cancel_left hl))

theorem norm_of_hash {py : Stdlib} {v w : PyVal} {h : String} (hv : JsonShaped v)
    (hw : JsonShaped w) (hn : NoCollision py v w) (h1 : computePolicyVersionHash py v = .ok h)
    (h2 : computePolicyVersionHash py w = .ok h) : norm v = norm w := by
  unfold computePolicyVersionHash at h1 h2
  cases ha : canonicalBytes py v with
  | error e => rw [ha] at h1; cases h1
  | ok a =>
    cases hb : canonicalBytes py w with
    | error e => rw [hb] at h2; cases h2
    | ok b =>
      rw [ha] at h1
      rw [hb] at h2
      have hab := hn a b ha hb (sha256Hex_inj ((Except.ok.inj h1).trans (Except.ok.inj h2).symm))
      exact canonicalBytes_inj hv hw ha (hab ▸ hb)

/-! ## In a unified file -/

theorem copied_shaped {d : PyDict} (hd : JsonShaped (.dict d)) {k : String} {e : PyAtom × PyVal}
    (he : e ∈ ((getKey d k).map fun v => ((.str k, v) : PyAtom × PyVal)).toList) :
    JsonShaped e.2 := by
  obtain ⟨v, hv, rfl⟩ := Option.map_eq_some_iff.mp (Option.mem_toList.mp he)
  exact getKey_value hd hv

theorem normalized_shaped {d sec : PyDict} (hd : JsonShaped (.dict d))
    (hsec : JsonShaped (.dict sec)) : JsonShaped (.dict (NativeYaml.normalized d sec)) := by
  have hget {e : PyDict} (he : JsonShaped (.dict e)) (k : String) {v : PyVal} (hv : JsonShaped v) :
      JsonShaped ((getKey e k).getD v) := by
    cases hk : getKey e k with
    | none => exact hv
    | some w => exact getKey_value he hk
  refine .dict ?_ ?_ ?_
  · intro e he
    unfold NativeYaml.normalized at he
    cases h1 : getKey sec "defaults" <;> cases h2 : getKey d "description" <;>
      simp only [h1, h2, Option.map, Option.toList, List.append_nil, List.cons_append,
        List.nil_append, List.mem_cons, List.not_mem_nil, or_false] at he <;>
      rcases he with rfl | rfl | rfl | rfl | rfl <;> exact ⟨_, rfl⟩
  · unfold NativeYaml.normalized keysOf
    cases getKey sec "defaults" <;> cases getKey d "description" <;> simp
  · intro e he
    rcases List.mem_append.mp he with he | he
    · rcases List.mem_append.mp he with he | he
      · simp only [List.mem_cons, List.not_mem_nil, or_false] at he
        rcases he with rfl | rfl | rfl
        · exact hget hd _ (.int 1)
        · exact pyOr_shaped (getOrNone_shaped hd _) (getOrNone_shaped hsec _)
        · exact hget hsec _ (.list (by simp))
      · exact copied_shaped hsec he
    · exact copied_shaped hd he

/-- One half of two files: evaluators with one hash decide alike where their walks raise alike. -/
theorem half_determined (hb : OrderBlind rt) (hroots : roots ⊆ knownRoots)
    {sectionKey source source' : String} {d d' : PyDict} {ev ev' : NativeYaml}
    (hd : JsonShaped (.dict d)) (hd' : JsonShaped (.dict d'))
    (h : loadSection (NativeYaml.constructFromBundle rt.toStdlib sectionKey roots) d sectionKey
      source = .ok (some ev))
    (h' : loadSection (NativeYaml.constructFromBundle rt.toStdlib sectionKey roots) d' sectionKey
      source' = .ok (some ev'))
    (hdot : Dotted roots ev) (hdot' : Dotted roots ev')
    (hn : NoCollision rt.toStdlib (.dict ev.bundle) (.dict ev'.bundle))
    (heq : ev.policyVersionHash = ev'.policyVersionHash) (inputs : PyDict) {view : View}
    {now : String} (htime : view.request.timestamp = .str now) :
    ev.evaluateView rt inputs view = ev'.evaluateView rt inputs view ↔
      (jsonable (.dict inputs) = true →
        (WalkSound rt ev.defaults.unknownMetadata view ev.rules ↔
          WalkSound rt ev'.defaults.unknownMetadata view ev'.rules)) := by
  obtain ⟨sec, hsec, hi⟩ := loaded_section h
  obtain ⟨sec', hsec', hi'⟩ := loaded_section h'
  have hs := normalized_shaped hd (getKey_value hd hsec)
  have hs' := normalized_shaped hd' (getKey_value hd' hsec')
  rw [hi.bundle, hi'.bundle] at hn
  have hnorm := norm_of_hash hs hs' hn hi.hash (heq ▸ hi'.hash)
  exact evaluateView_same hb hroots ⟨hs, hs', hnorm⟩ hi hi' hdot hdot' inputs htime

/-- One half of two files that agree on all keys but some it does not read. -/
theorem half_independent {sectionKey source source' : String} {d d' : PyDict} {ev : NativeYaml}
    {o : Option NativeYaml}
    (hk : ∀ k ∈ ["version", "policy_id", "description", sectionKey], getKey d k = getKey d' k)
    (h : loadSection (NativeYaml.constructFromBundle rt.toStdlib sectionKey roots) d sectionKey
      source = .ok (some ev))
    (h' : loadSection (NativeYaml.constructFromBundle rt.toStdlib sectionKey roots) d' sectionKey
      source' = .ok o) :
    ∃ ev', o = some ev' ∧ ev'.policyVersionHash = ev.policyVersionHash := by
  obtain ⟨sec, hsec, hi⟩ := loaded_section h
  have hsec' : getKey d' sectionKey = some (.dict sec) := by
    rw [← hk sectionKey (by simp), hsec]
  cases o with
  | none =>
    rcases loadSection_ok.mp h' with ⟨hnone, -⟩ | ⟨-, ev', -, heq⟩
    · rw [getOrNone, hsec'] at hnone
      cases hnone
    · cases heq
  | some ev' =>
    obtain ⟨sec', hs, hi'⟩ := loaded_section h'
    obtain rfl : sec' = sec := PyVal.dict.inj (Option.some.inj (hs.symm.trans hsec'))
    have hsame : NativeYaml.normalized d' sec' = NativeYaml.normalized d sec' := by
      unfold NativeYaml.normalized getOrNone
      rw [hk "version" (by simp), hk "policy_id" (by simp), hk "description" (by simp)]
    have hhash := hi'.hash
    rw [hsame] at hhash
    exact ⟨ev', rfl, Except.ok.inj (hhash.symm.trans hi.hash)⟩

/-- All rule paths of the file are dotted, with a root of their domain. -/
structure PathsDotted (p : LoadedPolicy) : Prop where
  accessControl : ∀ ev, p.accessControl = some ev → Dotted chunkDomainRoots ev
  toolCallControl : ∀ ev, p.toolCallControl = some ev → Dotted toolCallDomainRoots ev

/-- The two files have the same value under every key but these. -/
def AgreeExcept (ks : List String) (bundle bundle' : PyVal) : Prop :=
  ∀ d d', bundle = .dict d → bundle' = .dict d' → ∀ k, k ∉ ks → getKey d k = getKey d' k

end

section

variable {Ω : Type} (rt : Runtime Ω)

/-- Evaluators of two files with one hash decide alike in a context if and only if, on inputs that
can be recorded, the rules of one raise where those of the other do; and the hash of a half does not
move with the verification section or with the other half. -/
theorem version_hash_determines (hb : OrderBlind rt) (bundle bundle' : PyVal)
    (source source' : String) (p p' : LoadedPolicy) (hs : JsonShaped bundle)
    (hs' : JsonShaped bundle') (hp : Policy.fromBundle rt bundle source = .ok p)
    (hp' : Policy.fromBundle rt bundle' source' = .ok p') (hdot : PathsDotted p)
    (hdot' : PathsDotted p') :
    (∀ ev ev', p.accessControl = some ev → p'.accessControl = some ev' →
      NoCollision rt.toStdlib (.dict ev.bundle) (.dict ev'.bundle) →
      ev.policyVersionHash = ev'.policyVersionHash →
      ∀ chunk request now, request.timestamp = .str now →
        (NativeYamlEvaluator.evaluate rt ev chunk request =
            NativeYamlEvaluator.evaluate rt ev' chunk request ↔
          (jsonable (.dict (buildInputs chunk request)) = true →
            (WalkSound rt ev.defaults.unknownMetadata ⟨some chunk, none, request⟩ ev.rules ↔
              WalkSound rt ev'.defaults.unknownMetadata ⟨some chunk, none, request⟩ ev'.rules)))) ∧
    (∀ ev ev', p.toolCallControl = some ev → p'.toolCallControl = some ev' →
      NoCollision rt.toStdlib (.dict ev.bundle) (.dict ev'.bundle) →
      ev.policyVersionHash = ev'.policyVersionHash →
      ∀ tool request now, request.timestamp = .str now →
        (NativeYamlToolCallEvaluator.evaluate rt ev tool request =
            NativeYamlToolCallEvaluator.evaluate rt ev' tool request ↔
          (jsonable (.dict (buildToolCallInputs tool request)) = true →
            (WalkSound rt ev.defaults.unknownMetadata ⟨none, some tool, request⟩ ev.rules ↔
              WalkSound rt ev'.defaults.unknownMetadata ⟨none, some tool, request⟩ ev'.rules)))) ∧
    (∀ ev, p.accessControl = some ev →
      AgreeExcept ["verification", "tool_call_control"] bundle bundle' →
      ∃ ev', p'.accessControl = some ev' ∧ ev'.policyVersionHash = ev.policyVersionHash) ∧
    (∀ ev, p.toolCallControl = some ev →
      AgreeExcept ["verification", "access_control"] bundle bundle' →
      ∃ ev', p'.toolCallControl = some ev' ∧ ev'.policyVersionHash = ev.policyVersionHash) := by
  obtain ⟨d, rfl, hl⟩ := Policy.fromBundle_ok.mp hp
  obtain ⟨d', rfl, hl'⟩ := Policy.fromBundle_ok.mp hp'
  refine ⟨?_, ?_, ?_, ?_⟩
  · intro ev ev' he he' hn hh chunk request now htime
    exact half_determined hb (by decide) hs hs' (he ▸ hl.accessControl) (he' ▸ hl'.accessControl)
      (hdot.accessControl ev he) (hdot'.accessControl ev' he') hn hh _ htime
  · intro ev ev' he he' hn hh tool request now htime
    exact half_determined hb (by decide) hs hs' (he ▸ hl.toolCallControl)
      (he' ▸ hl'.toolCallControl) (hdot.toolCallControl ev he) (hdot'.toolCallControl ev' he') hn hh
      _ htime
  · intro ev he hagree
    refine half_independent (fun k hk => hagree d d' rfl rfl k ?_) (he ▸ hl.accessControl)
      hl'.accessControl
    revert k
    decide
  · intro ev he hagree
    refine half_independent (fun k hk => hagree d d' rfl rfl k ?_) (he ▸ hl.toolCallControl)
      hl'.toolCallControl
    revert k
    decide

end

namespace Sample

def orderedBundle : PyVal :=
  .dict [(.str "version", .int 1), (.str "policy_id", .str "hr"),
    (.str "access_control", .dict [(.str "rules", .list [.dict [(.str "name", .str "eu"),
      (.str "require", .dict [(.str "chunk.metadata.residency", .str "EU"),
        (.str "chunk.metadata.tier", .dict [(.str "in", .list [.int 1, .int 2])])])]])])]

/-- The same file with the keys in another order. -/
def reorderedBundle : PyVal :=
  .dict [(.str "access_control", .dict [(.str "rules", .list [.dict [
      (.str "require", .dict [(.str "chunk.metadata.tier", .dict [(.str "in", .list [.int 1, .int 2])]),
        (.str "chunk.metadata.residency", .str "EU")]), (.str "name", .str "eu")]])]),
    (.str "policy_id", .str "hr"), (.str "version", .int 1)]

/-- The digest of the canonical bytes of both. -/
def hashRuntime : Runtime Empty :=
  { Runtime.blank with
    sha256 := fun _ => [129, 172, 43, 178, 119, 195, 226, 103, 204, 220, 218, 80, 175, 102, 227, 19,
      105, 73, 36, 169, 60, 39, 139, 162, 125, 110, 204, 131, 57, 220, 87, 125] }

end Sample

theorem version_hash_determines_sample :
    ∃ p p' ev ev', Policy.fromBundle Sample.hashRuntime Sample.orderedBundle "a.yaml" = .ok p ∧
      Policy.fromBundle Sample.hashRuntime Sample.reorderedBundle "b.yaml" = .ok p' ∧
      p.accessControl = some ev ∧ p'.accessControl = some ev' ∧
      ∀ chunk, NativeYamlEvaluator.evaluate Sample.hashRuntime ev chunk Sample.request =
        NativeYamlEvaluator.evaluate Sample.hashRuntime ev' chunk Sample.request := by
  refine ⟨_, _, _, _, rfl, rfl, rfl, rfl, fun chunk => ?_⟩
  refine ((version_hash_determines Sample.hashRuntime (fun o => o.elim) Sample.orderedBundle
    Sample.reorderedBundle "a.yaml" "b.yaml" _ _ ?_ ?_ rfl rfl ?_ ?_).1 _ _ rfl rfl ?_ rfl chunk
    Sample.request _ rfl).mpr fun _ => iff_of_true ?_ ?_
  · simp [Sample.orderedBundle, keysOf]
  · simp [Sample.reorderedBundle, keysOf]
  · refine ⟨fun ev h => ?_, fun ev h => ?_⟩
    · obtain rfl := Option.some.inj h
      decide +kernel
    · cases h
  · refine ⟨fun ev h => ?_, fun ev h => ?_⟩
    · obtain rfl := Option.some.inj h
      decide +kernel
    · cases h
  · intro a b ha hb _
    exact Except.ok.inj (ha.symm.trans (Eq.trans (by decide +kernel) hb))
  · exact Dotted.walkSound (by decide : chunkDomainRoots ⊆ knownRoots) (by decide +kernel)
      (by decide +kernel) _
  · exact Dotted.walkSound (by decide : chunkDomainRoots ⊆ knownRoots) (by decide +kernel)
      (by decide +kernel) _

namespace Sample

/-- A file whose access control is one rule with these constraints. -/
def agedFile (require : PyDict) : PyDict :=
  [(.str "version", .int 1), (.str "policy_id", .str "aged"),
    (.str "access_control", .dict [(.str "rules", .list [.dict (writtenRule require)])])]

theorem agedFile_loaded {require : PyDict} (h : ∀ e ∈ require, e = tierEntry ∨ e = ageEntry)
    (hj : jsonable (.dict (agedBundle [require])) = true) :
    Policy.fromBundle epochClock (.dict (agedFile require)) "policy.yaml" =
      .ok ⟨VerificationPolicy.default, some (agedEvaluator [require]), none⟩ := by
  refine Policy.fromBundle_ok.mpr ⟨_, rfl, ?_⟩
  exact {
    keys := by simp [KeysWithin, keysOf, agedFile, unifiedYamlTopKeys]
    version := rfl
    verification := rfl
    accessControl := by
      refine loadSection_ok.mpr (.inr ⟨PyVal.noConfusion, _, ?_, rfl⟩)
      refine (NativeYaml.constructFromBundle_some rfl).trans (NativeYaml.init_ok.mpr ⟨_, rfl, ?_⟩)
      exact agedBundle_checked (by simpa using h) hj
    toolCallControl := rfl }

theorem agedFile_shaped {require : PyDict} (h : ∀ e ∈ require, e = tierEntry ∨ e = ageEntry)
    (hn : (keysOf require).Nodup) : JsonShaped (.dict (agedFile require)) := by
  have hrequire : JsonShaped (.dict require) := by
    refine .dict (fun e he => ?_) hn fun e he => ?_
    · rcases h e he with rfl | rfl <;> exact ⟨_, rfl⟩
    · rcases h e he with rfl | rfl
      · exact .str _
      · simp [ageEntry, keysOf]
  obtain ⟨hstrings, hnodup, hvalues⟩ := jsonShaped_dict.mp hrequire
  simpa [agedFile, writtenRule, keysOf] using
    ⟨fun k v hv => hstrings (k, v) hv, hnodup, fun k v hv => hvalues (k, v) hv⟩

theorem agedBundle_norm {require require' : PyDict}
    (h : norm (.dict require) = norm (.dict require')) :
    norm (.dict (agedBundle [require])) = norm (.dict (agedBundle [require'])) := by
  simp only [agedBundle, writtenRule, norm_dict, norm_list, ← sortEntries_map, List.map_cons,
    List.map_nil] at h ⊢
  rw [h]

theorem constraints_reordered :
    norm (.dict [tierEntry, ageEntry]) = norm (.dict [ageEntry, tierEntry]) := by
  have hle : leKey ageEntry tierEntry := by decide +kernel
  have hnot : ¬ leKey tierEntry ageEntry := by decide +kernel
  rw [norm_dict, norm_dict, sortEntries, sortEntries, List.insertionSort_cons,
    List.insertionSort_cons, List.insertionSort_cons, List.insertionSort_cons]
  simp [hle, hnot]

theorem agedEvaluator_dotted {rules : List PyDict}
    (h : ∀ require ∈ rules, ∀ e ∈ require, e = tierEntry ∨ e = ageEntry) :
    Dotted chunkDomainRoots (agedEvaluator rules) := by
  intro r hr e he
  obtain ⟨require, hmem, rfl⟩ := List.mem_map.mp hr
  rcases h require hmem e (by simpa [readRule] using he) with rfl | rfl
  · decide +kernel
  · exact ⟨_, rfl, by decide +kernel, by decide +kernel⟩

/-- What an evaluator comes to of the chunk, where its inputs can be recorded. -/
theorem agedEvaluator_run (rules : List PyDict) : ∃ hash,
    NativeYamlEvaluator.evaluate epochClock (agedEvaluator rules) seenChunk request =
      (evaluateRules epochClock "deny" ⟨some seenChunk, none, request⟩ (rules.map readRule) []).map
        fun r => ⟨r.1, r.2, hash, some (buildInputs seenChunk request), none⟩ := by
  obtain ⟨hash, hrun⟩ := evaluateView_recorded epochClock
    (rfl : jsonable (.dict (buildInputs seenChunk request)) = true)
  exact ⟨hash, hrun _ _⟩

theorem readRule_denies (rest : PyDict) (rules : List Rule) (fired : List String) :
    evaluateRules epochClock "deny" ⟨some seenChunk, none, request⟩
      (readRule (tierEntry :: rest) :: rules) fired = .ok (.deny, fired ++ ["r"]) := by
  have hreq : requireHolds epochClock "deny" ⟨some seenChunk, none, request⟩
      (readRule (tierEntry :: rest)).require = .ok false := by
    rw [requireHolds, readRule, allHold, tierEntry_fails]
    rfl
  rw [evaluateRules, hreq]
  rfl

theorem readRule_raises (rest : PyDict) (rules : List Rule) (fired : List String) :
    evaluateRules epochClock "deny" ⟨some seenChunk, none, request⟩
      (readRule (ageEntry :: rest) :: rules) fired = .error (.valueError none) := by
  have hreq : requireHolds epochClock "deny" ⟨some seenChunk, none, request⟩
      (readRule (ageEntry :: rest)).require = .error (.valueError none) := by
    rw [requireHolds, readRule, allHold, ageEntry_raises]
    rfl
  rw [evaluateRules, hreq]
  rfl

end Sample

/-- Two orders of the constraints of one rule: one hash, and where the one denies the other raises. -/
theorem reordered_limit_raises :
    JsonShaped (.dict (Sample.agedFile [Sample.tierEntry, Sample.ageEntry])) ∧
    JsonShaped (.dict (Sample.agedFile [Sample.ageEntry, Sample.tierEntry])) ∧
    ∃ p p' ev ev' d,
      Policy.fromBundle Sample.epochClock
        (.dict (Sample.agedFile [Sample.tierEntry, Sample.ageEntry])) "policy.yaml" = .ok p ∧
      Policy.fromBundle Sample.epochClock
        (.dict (Sample.agedFile [Sample.ageEntry, Sample.tierEntry])) "policy.yaml" = .ok p' ∧
      PathsDotted p ∧ PathsDotted p' ∧ p.accessControl = some ev ∧ p'.accessControl = some ev' ∧
      NoCollision Sample.epochClock.toStdlib (.dict ev.bundle) (.dict ev'.bundle) ∧
      ev.policyVersionHash = ev'.policyVersionHash ∧
      NativeYamlEvaluator.evaluate Sample.epochClock ev Sample.seenChunk Sample.request = .ok d ∧
      NativeYamlEvaluator.evaluate Sample.epochClock ev' Sample.seenChunk Sample.request =
        .error (.valueError none) := by
  have hfirst : ∀ e ∈ [Sample.tierEntry, Sample.ageEntry],
      e = Sample.tierEntry ∨ e = Sample.ageEntry := by simp
  have hsecond : ∀ e ∈ [Sample.ageEntry, Sample.tierEntry],
      e = Sample.tierEntry ∨ e = Sample.ageEntry := by simp
  have hdotted {require : PyDict} (h : ∀ e ∈ require, e = Sample.tierEntry ∨ e = Sample.ageEntry) :
      PathsDotted ⟨VerificationPolicy.default, some (Sample.agedEvaluator [require]), none⟩ := by
    refine ⟨fun ev hev => ?_, nofun⟩
    obtain rfl := Option.some.inj hev
    exact Sample.agedEvaluator_dotted (by simpa using h)
  obtain ⟨hash, hrun⟩ := Sample.agedEvaluator_run [[Sample.tierEntry, Sample.ageEntry]]
  obtain ⟨hash', hrun'⟩ := Sample.agedEvaluator_run [[Sample.ageEntry, Sample.tierEntry]]
  rw [List.map_cons, Sample.readRule_denies] at hrun
  rw [List.map_cons, Sample.readRule_raises] at hrun'
  refine ⟨Sample.agedFile_shaped hfirst (by decide +kernel),
    Sample.agedFile_shaped hsecond (by decide +kernel), _, _, _, _, _,
    Sample.agedFile_loaded hfirst rfl, Sample.agedFile_loaded hsecond rfl,
    hdotted hfirst, hdotted hsecond, rfl, rfl, ?_, rfl, hrun, hrun'⟩
  exact fun a b ha hb _ =>
    canonicalBytes_of_norm (Sample.agedBundle_norm Sample.constraints_reordered) ha hb

end Provenex
