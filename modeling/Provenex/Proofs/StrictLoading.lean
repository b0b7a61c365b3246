import Provenex.Proofs.Reporting

/-! What a loaded file may still hide. `Strict` is the discipline the loaders
announce, `Clean` the part of it that no loader checks. -/

namespace Provenex

open Guard

def sectionKeys : List String := ["defaults", "policy_id", "rules"]

/-- The two evaluator sections, with the roots of their domains. -/
def evaluatorSections : List (String × List String) :=
  [("access_control", chunkDomainRoots), ("tool_call_control", toolCallDomainRoots)]

/-! ## The discipline -/

/-- Under this key, if it is there, a mapping of paths. -/
def PathMap (roots : List String) (entry : PyVal → Prop) (d : PyDict) (k : String) : Prop :=
  ∀ v, getKey d k = some v → ∃ m, v = .dict m ∧ ∀ e ∈ m, PathKey roots e.1 ∧ entry e.2

/-- A mapping under `when` is `in`, of a list. -/
def WhenStrict (expected : PyVal) : Prop :=
  ∀ d, expected = .dict d → KeysWithin d ["in"] ∧ ∃ v, getKey d "in" = some v ∧ v.isList = true

structure RuleStrict (py : Stdlib) (roots : List String) (d : PyDict) : Prop where
  name : ∃ s, getKey d "name" = some (.str s) ∧ s ≠ ""
  keys : KeysWithin d ruleKeys
  when : PathMap roots WhenStrict d "when"
  require : PathMap roots (RequireMapping py) d "require"
  onViolation : ∀ v, getKey d "on_violation" = some v → v = .str "deny"

structure SectionStrict (py : Stdlib) (roots : List String) (outer sec : PyDict) : Prop where
  keys : KeysWithin sec sectionKeys
  rules : ∃ written, getKey sec "rules" = some (.list written) ∧
    ∀ v ∈ written, ∃ d, v = .dict d ∧ RuleStrict py roots d
  defaults : DefaultsShape (getOrNone sec "defaults")
  policyId : ∀ v, getKey sec "policy_id" = some v → (getOrNone outer "policy_id").truthy = false

/-- Nothing written in a section is ignored or read as something else. A null section is absent. -/
def Strict (py : Stdlib) (bundle : PyVal) : Prop :=
  ∀ d, bundle = .dict d → VerificationShape (getOrNone d "verification") ∧
    ∀ s ∈ evaluatorSections, ∀ v, getKey d s.1 = some v →
      v = .none ∨ ∃ sec, v = .dict sec ∧ SectionStrict py s.2 d sec

/-! ## What is left to the author -/

/-- Under this key, if it is there, a mapping with dotted keys. -/
def DottedMap (d : PyDict) (k : String) : Prop :=
  ∀ v, getKey d k = some v → ∃ m, v = .dict m ∧ ∀ e ∈ m, ∃ s, e.1 = .str s ∧ '.' ∈ s.toList

structure RuleClean (d : PyDict) : Prop where
  when : DottedMap d "when"
  operators : ∀ m, getKey d "when" = some (.dict m) → ∀ e ∈ m, e.2 ≠ .dict []
  require : DottedMap d "require"

structure SectionClean (outer sec : PyDict) : Prop where
  keys : KeysWithin sec sectionKeys
  rules : hasKey sec "rules" = true
  eachRule : ∀ written, getKey sec "rules" = some (.list written) →
    ∀ d, .dict d ∈ written → RuleClean d
  policyId : ∀ v, getKey sec "policy_id" = some v → (getOrNone outer "policy_id").truthy = false

def Clean (bundle : PyVal) : Prop :=
  ∀ d, bundle = .dict d → ∀ s ∈ evaluatorSections, ∀ sec, getKey d s.1 = some (.dict sec) →
    SectionClean d sec

theorem PathMap.dotted {roots : List String} {entry : PyVal → Prop} {d : PyDict} {k : String}
    (h : PathMap roots entry d k) : DottedMap d k := by
  intro v hv
  obtain ⟨m, hm, he⟩ := h v hv
  refine ⟨m, hm, fun e hmem => ?_⟩
  obtain ⟨⟨s, hs, hdot, -⟩, -⟩ := he e hmem
  exact ⟨s, hs, hdot⟩

theorem WhenStrict.ne_empty {expected : PyVal} (h : WhenStrict expected) : expected ≠ .dict [] := by
  rintro rfl
  obtain ⟨-, v, hv, -⟩ := h [] rfl
  cases hv

/-- A mapping that the loader takes, and that is not empty, has `in`. -/
theorem WhenMapping.strict {expected : PyVal} (h : WhenMapping expected) (hne : expected ≠ .dict []) :
    WhenStrict expected := by
  rintro d rfl
  obtain ⟨hkeys, hlist⟩ := h d rfl
  cases d with
  | nil => exact absurd rfl hne
  | cons e d =>
    obtain ⟨s, hs, he⟩ := hkeys e.1 List.mem_cons_self
    obtain rfl := List.mem_singleton.mp hs
    have hin : getKey (e :: d) "in" = some e.2 := by
      rw [getKey, dictGet_cons, if_pos (PyAtom.eq_str.mpr he)]
    exact ⟨hkeys, e.2, hin, hlist e.2 hin⟩

theorem SectionStrict.clean {py : Stdlib} {roots : List String} {outer sec : PyDict}
    (h : SectionStrict py roots outer sec) : SectionClean outer sec := by
  obtain ⟨written, hw, hrules⟩ := h.rules
  refine ⟨h.keys, by simp [hasKey, hw], fun rules hrs d hd => ?_, h.policyId⟩
  obtain rfl := PyVal.list.inj (Option.some.inj (hw.symm.trans hrs))
  obtain ⟨d', heq, hd'⟩ := hrules _ hd
  obtain rfl := PyVal.dict.inj heq
  refine ⟨hd'.when.dotted, fun m hm e he => ?_, hd'.require.dotted⟩
  obtain ⟨m', heq, hentries⟩ := hd'.when _ hm
  obtain rfl := PyVal.dict.inj heq
  exact (hentries e he).2.ne_empty

theorem Strict.clean {py : Stdlib} {bundle : PyVal} (h : Strict py bundle) : Clean bundle := by
  intro d hd s hs sec hsec
  rcases (h d hd).2 s hs _ hsec with hn | ⟨sec', heq, hstrict⟩
  · cases hn
  · obtain rfl := PyVal.dict.inj heq
    exact hstrict.clean

/-! ## A loaded file is strict where it is clean -/

theorem PyVal.eq_str {v : PyVal} {s : String} : v.eq (.str s) = true ↔ v = .str s := by
  cases v with
  | atom a => simp [PyVal.eq, PyAtom.eq_str]
  | list xs => simp [PyVal.eq]
  | dict d => simp [PyVal.eq]

section

variable {py : Stdlib} {roots : List String}

/-- The mapping the loader reads under a key, where a mapping stands there. -/
theorem pyOr_read {d r m : PyDict} {k : String} (h : pyOr (getOrNone d k) (.dict []) = .dict r)
    (hk : getKey d k = some (.dict m)) : r = m := by
  rw [getOrNone, hk] at h
  rcases pyOr_dict.mp h with hm | ⟨hfalsy, rfl⟩
  · exact (PyVal.dict.inj hm).symm
  · have hnil : m = [] := by simpa [PyVal.truthy] using hfalsy
    exact hnil.symm

theorem DottedMap.pathMap {entry : PyVal → Prop} {d r : PyDict} {k : String}
    (hc : DottedMap d k) (h : pyOr (getOrNone d k) (.dict []) = .dict r)
    (he : getKey d k = some (.dict r) → ∀ e ∈ r, RootAllowed roots e.1 ∧ entry e.2) :
    PathMap roots entry d k := by
  intro v hv
  obtain ⟨m, rfl, hdotted⟩ := hc v hv
  obtain rfl := pyOr_read h hv
  refine ⟨r, rfl, fun e hmem => ?_⟩
  obtain ⟨s, hs, hdot⟩ := hdotted e hmem
  obtain ⟨hroot, hentry⟩ := he hv e hmem
  exact ⟨⟨s, hs, hdot, hroot s hs hdot⟩, hentry⟩

theorem RuleClean.strict {d : PyDict} {r : Rule} (hc : RuleClean d)
    (h : RuleChecked py roots d r) : RuleStrict py roots d where
  name := ⟨r.name, h.name, h.name_ne⟩
  keys := h.keys
  when := by
    refine hc.when.pathMap h.when fun hr e he => ?_
    obtain ⟨hroot, hmapping⟩ := h.when_entries e he
    exact ⟨hroot, hmapping.strict (hc.operators r.when hr e he)⟩
  require := hc.require.pathMap h.require fun _ => h.require_entries
  onViolation := by
    intro v hv
    have hdeny := h.deny
    rw [h.onViolation, hv] at hdeny
    exact PyVal.eq_str.mp hdeny

theorem SectionClean.strict {outer sec : PyDict} (hc : SectionClean outer sec)
    (h : BundleShape py roots (NativeYaml.normalized outer sec)) :
    SectionStrict py roots outer sec := by
  obtain ⟨written, hw, hrules⟩ := h.rules
  obtain ⟨rules, hsome⟩ := Option.isSome_iff_exists.mp hc.rules
  rw [normalized_rules, hsome] at hw
  obtain rfl : rules = .list written := Option.some.inj hw
  have hdefaults := h.defaults
  rw [getOrNone, normalized_defaults, ← getOrNone] at hdefaults
  refine ⟨hc.keys, ⟨written, hsome, fun v hv => ?_⟩, hdefaults, hc.policyId⟩
  obtain ⟨d, r, rfl, hchecked⟩ := hrules v hv
  exact ⟨d, rfl, (hc.eachRule written hsome d hv).strict hchecked⟩

end

section

variable {Ω : Type} {rt : Runtime Ω}

/-- The section of a clean file is strict where it loads. -/
theorem SectionClean.strict_of_shape {py : Stdlib} {k : String} {roots : List String} {tree : YamlTree}
    {d : PyDict} (ht : tree.shown = .dict d) (h : OptionalSection py roots tree d k)
    (hc : ∀ sec, getKey d k = some (.dict sec) → SectionClean d sec) (v : PyVal)
    (hv : getKey d k = some v) : v = .none ∨ ∃ sec, v = .dict sec ∧ SectionStrict py roots d sec := by
  rcases h with hnone | ⟨hmapping, m, hm, hshape, -⟩
  · rw [getOrNone, hv] at hnone
    exact .inl hnone
  · obtain ⟨sec, rfl⟩ := hmapping v hv
    obtain ⟨e, rfl, rfl⟩ := shown_dict ht
    obtain rfl := PyVal.dict.inj ((NativeYaml.sectionTree_some hv).symm.trans hm)
    exact .inr ⟨sec, rfl, (hc sec hv).strict hshape⟩

theorem Clean.strict {py : Stdlib} {tree : YamlTree} {d : PyDict} (ht : tree.shown = .dict d)
    (hc : Clean (.dict d)) (h : FileShape py tree d) : Strict py (.dict d) := by
  intro d' heq
  obtain rfl := PyVal.dict.inj heq
  refine ⟨h.verification, fun s hs v hv => ?_⟩
  have hclean := hc d rfl s hs
  rcases List.mem_cons.mp hs with rfl | hs
  · exact SectionClean.strict_of_shape ht h.accessControl hclean v hv
  · obtain rfl := List.mem_singleton.mp hs
    exact SectionClean.strict_of_shape ht h.toolCallControl hclean v hv

/-- The tree is refused with a policy error. -/
def Refused (rt : Runtime Ω) (tree : YamlTree) (source : String) : Prop :=
  ∃ e, Policy.fromTree rt tree source = .error e ∧ e.isPolicyError = true

/-- A file that loads is clean; of one that does not, and is not strict, the first fault is
reported. -/
structure LoadsStrictly (py : Stdlib) (tree : YamlTree) (d : PyDict) : Prop where
  accepted : FileShape py tree d → Clean (.dict d)
  refused : ¬ FileShape py tree d → ¬ Strict py (.dict d) → FileReports py tree d

theorem refused_iff {tree : YamlTree} {d : PyDict} {source : String} (ht : tree.shown = .dict d) :
    (¬ Strict rt.toStdlib tree.shown → Refused rt tree source) ↔
      LoadsStrictly rt.toStdlib tree d := by
  have hloads : (∃ p, Policy.fromTree rt tree source = .ok p) ↔ FileShape rt.toStdlib tree d := by
    rw [Policy.fromTree_succeeds, ht]
    simp only [PyVal.dict.injEq, exists_eq_left']
  have hreports : OnlyRaises IsPolicyError (Policy.fromTree rt tree source) ↔
      FileReports rt.toStdlib tree d := fromTree_reports ht
  rw [ht]
  cases h : Policy.fromTree rt tree source with
  | ok p =>
    have hshape := hloads.mp ⟨p, h⟩
    constructor
    · intro hstrict
      refine ⟨fun _ => ?_, fun hn => absurd hshape hn⟩
      by_contra hc
      obtain ⟨e, he, -⟩ := hstrict fun hs => hc hs.clean
      rw [h] at he
      cases he
    · intro hcond hns
      exact absurd ((hcond.accepted hshape).strict ht hshape) hns
  | error e =>
    have hshape : ¬ FileShape rt.toStdlib tree d := by
      intro hshape
      obtain ⟨p, hp⟩ := hloads.mpr hshape
      rw [h] at hp
      cases hp
    rw [h] at hreports
    constructor
    · intro hstrict
      refine ⟨fun hs => absurd hs hshape, fun _ hns => hreports.mp ?_⟩
      obtain ⟨e', he', hp⟩ := hstrict hns
      rw [h] at he'
      obtain rfl := Except.error.inj he'
      exact .error hp
    · intro hcond hns
      exact ⟨e, h, hreports.mpr (hcond.refused hshape hns) e rfl⟩

end

/-- Loading is strict exactly on files that are clean where they load and whose first fault is
reported where they do not. -/
theorem strict_loading {Ω : Type} (rt : Runtime Ω) (tree : YamlTree) (source : String) :
    ((¬ Strict rt.toStdlib tree.shown → Refused rt tree source) ↔
      ∀ d, tree.shown = .dict d → LoadsStrictly rt.toStdlib tree d) ∧
    (∀ p, Policy.fromTree rt tree source = .ok p →
      (Strict rt.toStdlib tree.shown ↔ Clean tree.shown)) ∧
    (∀ e, Policy.fromTree rt tree source = .error e →
      (e.isPolicyError = true ↔ Reports rt.toStdlib tree)) := by
  refine ⟨?_, fun p h => ⟨Strict.clean, fun hc => ?_⟩, fun e h => ?_⟩
  · by_cases hmap : ∃ d, tree.shown = .dict d
    · obtain ⟨d, ht⟩ := hmap
      rw [refused_iff ht, ht]
      simp only [PyVal.dict.injEq, forall_eq']
    · rw [not_exists] at hmap
      refine iff_of_true (fun hns => ?_) fun d ht => absurd ht (hmap d)
      exact absurd (fun d ht => absurd ht (hmap d)) hns
  · obtain ⟨d, ht, hshape⟩ := Policy.fromTree_succeeds.mp ⟨p, h⟩
    rw [ht] at hc ⊢
    exact hc.strict ht hshape
  · rw [← @fromTree_onlyRaises _ rt tree source, h]
    exact ⟨fun hp => .error hp, fun hr => hr e rfl⟩

namespace Sample

def residencyRule : PyDict :=
  [(.str "name", .str "residency"),
    (.str "when", .dict [(.str "request.parameters.region", .dict [(.str "in", .list [.str "EU"])])]),
    (.str "require", .dict [(.str "chunk.metadata.residency", .str "EU")])]

def residencySection : PyDict :=
  [(.str "rules", .list [.dict residencyRule]),
    (.str "defaults", .dict [(.str "unknown_metadata", .str "allow")])]

/-- A file with one rule, and a null section. -/
def residencyBundle : PyVal :=
  .dict [(.str "version", .int 1), (.str "policy_id", .str "residency"),
    (.str "access_control", .dict residencySection), (.str "tool_call_control", .none)]

/-- A file whose only rule stands under a misspelled key. -/
def misspelledBundle : PyVal :=
  .dict [(.str "version", .int 1), (.str "policy_id", .str "residency"),
    (.str "access_control", .dict [(.str "rulez", .list [.dict residencyRule])])]

theorem residency_clean : Clean residencyBundle := by
  intro d hd s hs sec hsec
  obtain rfl := PyVal.dict.inj hd
  rcases List.mem_cons.mp hs with rfl | hs
  · obtain rfl := PyVal.dict.inj (Option.some.inj hsec)
    refine ⟨by simp [KeysWithin, keysOf, residencySection, sectionKeys], rfl, fun written hw d hd => ?_,
      fun v hv => by cases hv⟩
    obtain rfl := PyVal.list.inj (Option.some.inj hw)
    obtain rfl := PyVal.dict.inj (List.mem_singleton.mp hd)
    refine ⟨fun v hv => ?_, fun m hm e he => ?_, fun v hv => ?_⟩
    · obtain rfl := Option.some.inj hv
      exact ⟨_, rfl, by simp⟩
    · obtain rfl := PyVal.dict.inj (Option.some.inj hm)
      obtain rfl := List.mem_singleton.mp he
      exact fun h => by cases h
    · obtain rfl := Option.some.inj hv
      exact ⟨_, rfl, by simp⟩
  · obtain rfl := List.mem_singleton.mp hs
    cases hsec

end Sample

/-- The first loads and is strict. -/
theorem strict_loading_sample :
    ∃ p, Policy.fromTree Runtime.blank (.of Sample.residencyBundle) "policy.yaml" = .ok p ∧
      Strict Runtime.blank.toStdlib (YamlTree.of Sample.residencyBundle).shown := by
  refine ⟨_, rfl, ?_⟩
  refine ((strict_loading Runtime.blank (.of Sample.residencyBundle) "policy.yaml").2.1 _ rfl).mpr ?_
  exact Sample.residency_clean

/-- The second loads to an evaluator without rules. -/
theorem misspelled_rules_ignored :
    ∃ p ev, Policy.fromTree Runtime.blank (.of Sample.misspelledBundle) "policy.yaml" = .ok p ∧
      p.accessControl = some ev ∧ ev.rules = [] ∧
      ¬ Strict Runtime.blank.toStdlib (YamlTree.of Sample.misspelledBundle).shown := by
  refine ⟨_, _, rfl, rfl, rfl, fun h => ?_⟩
  rcases (h _ rfl).2 _ List.mem_cons_self _ rfl with hn | ⟨sec, heq, hs⟩
  · cases hn
  · obtain rfl := PyVal.dict.inj heq
    obtain ⟨written, hw, -⟩ := hs.rules
    cases hw

end Provenex
