import Provenex.Proofs.Reporting

/-! The validator run in CI against the loader. They part where the fallback
loader, which reads the access-control section alone, takes a file that the
unified one refuses. -/

namespace Provenex

open Guard

section

variable {Ω : Type} {rt : Runtime Ω}

/-- The section has a fault that is reported as a policy error. -/
def VerificationFault (v : PyVal) : Prop := ¬ VerificationShape v ∧ VerificationReports v

/-- The faults of a file that the fallback loader does not see. -/
def FaultElsewhere (py : Stdlib) (tree : YamlTree) (d : PyDict) : Prop :=
  ¬ KeysWithin d unifiedYamlTopKeys ∧ Listable d unifiedYamlTopKeys ∨
    KeysWithin d unifiedYamlTopKeys ∧ (VerificationFault (getOrNone d "verification") ∨
      VerificationShape (getOrNone d "verification") ∧
        ¬ OptionalSection py toolCallDomainRoots tree d "tool_call_control" ∧
        OptionalReports py toolCallDomainRoots tree d "tool_call_control")

theorem SectionShape.version {py : Stdlib} {roots : List String} {tree : YamlTree} {d : PyDict}
    {k : String} (ht : tree.shown = .dict d) (h : SectionShape py roots tree d k) :
    ((getKey d "version").getD (.int 1)).eq (.int 1) = true := by
  obtain ⟨e, rfl, rfl⟩ := shown_dict ht
  obtain ⟨hmapping, m, hm, hshape, -⟩ := h
  have hv := hshape.version
  cases hk : getKey (shownEntries e) k with
  | none =>
    rw [NativeYaml.sectionTree_none hk, ht] at hm
    obtain rfl := PyVal.dict.inj hm
    unfold getOrNone at hv
    cases hver : getKey (shownEntries e) "version" with
    | none => rfl
    | some v => simpa [hver] using hv
  | some block =>
    obtain ⟨sec, rfl⟩ := hmapping block hk
    rw [NativeYaml.sectionTree_some hk] at hm
    obtain rfl := PyVal.dict.inj hm
    rwa [getOrNone, normalized_version] at hv

/-- Where the access-control section loads, a policy error comes from elsewhere in the file. -/
theorem fromTree_raises_iff {tree : YamlTree} {d : PyDict} {path : String}
    (ht : tree.shown = .dict d)
    (h : SectionShape rt.toStdlib chunkDomainRoots tree d "access_control") :
    Raises IsPolicyError (Policy.fromTree rt tree path) ↔ FaultElsewhere rt.toStdlib tree d := by
  have hversion := h.version ht
  have haccess : OptionalSection rt.toStdlib chunkDomainRoots tree d "access_control" := .inr h
  have hreports : OptionalReports rt.toStdlib chunkDomainRoots tree d "access_control" := by
    obtain ⟨ev, hev⟩ : ∃ ev, NativeYaml.constructFromTree rt.toStdlib "access_control"
        chunkDomainRoots tree path = .ok ev := (NativeYaml.constructFromTree_succeeds ht).mpr h
    intro _
    rw [← @constructFromTree_reports rt.toStdlib chunkDomainRoots path tree d _ ht, hev]
    exact .ok ev
  rw [raises_iff, fromTree_reports ht, Policy.fromTree_succeeds, ht]
  simp only [PyVal.dict.injEq, exists_eq_left']
  constructor
  · rintro ⟨hr, hshape⟩
    by_cases hkeys : KeysWithin d unifiedYamlTopKeys
    · obtain ⟨hverification, hsections⟩ := hr.sections hkeys hversion
      refine .inr ⟨hkeys, ?_⟩
      by_cases hv : VerificationShape (getOrNone d "verification")
      · exact .inr ⟨hv, fun ht => hshape ⟨hkeys, hversion, hv, haccess, ht⟩, (hsections hv).2 haccess⟩
      · exact .inl ⟨hv, hverification⟩
    · exact .inl ⟨hkeys, hr.keys⟩
  · rintro (⟨hkeys, hlist⟩ | ⟨hkeys, ⟨hv, hverification⟩ | ⟨hv, htool, hrtool⟩⟩)
    · exact ⟨⟨hlist, fun hk => absurd hk hkeys, fun hk => absurd hk hkeys⟩, fun hs => hkeys hs.keys⟩
    · exact ⟨⟨.within hkeys, fun _ hn => absurd hversion hn,
        fun _ _ => ⟨hverification, fun hs => absurd hs hv⟩⟩, fun hs => hv hs.verification⟩
    · refine ⟨⟨.within hkeys, fun _ hn => absurd hversion hn, fun _ _ => ⟨?_, fun _ => ?_⟩⟩,
        fun hs => htool hs.toolCallControl⟩
      · obtain ⟨p, hp⟩ := (@parseVerification_ok _ rt _ path).mpr hv
        rw [← @parseVerification_reports _ rt _ path, hp]
        exact .ok p
      · exact ⟨hreports, fun _ => hrtool⟩

/-- The file is refused by the loader for a fault that the fallback loader does not see. -/
def Masked (py : Stdlib) (tree : YamlTree) (d : PyDict) : Prop :=
  SectionShape py chunkDomainRoots tree d "access_control" ∧ FaultElsewhere py tree d

theorem validatePolicyFile_valid {path text : String} :
    validatePolicyFile rt path (some text) = .ok (true, none) ↔
      (∃ p, Policy.fromText rt text path = .ok p) ∨
        Raises IsPolicyError (Policy.fromText rt text path) ∧
          ∃ ev, NativeYamlEvaluator.fromText rt text path = .ok ev := by
  simp only [validatePolicyFile]
  cases Policy.fromText rt text path with
  | ok p => simp
  | error e =>
    cases hm : e.policyMessage with
    | none => simpa [Raises, hm] using fun hp => absurd hp (policyMessage_none.mp hm)
    | some unifiedErr =>
      have hp : IsPolicyError e := not_not.mp fun hn => by simp [policyMessage_none.mpr hn] at hm
      cases NativeYamlEvaluator.fromText rt text path with
      | ok ev => simp [Raises, hm, hp]
      | error e' => cases hm' : e'.policyMessage <;> simp [Raises, hm, hm']

/-- Of a text that parses to a mapping. -/
theorem masked_iff {path text : String} {tree : YamlTree} {d : PyDict}
    (h : loadYaml rt.toStdlib text path = .ok tree) (ht : tree.shown = .dict d) :
    (Raises IsPolicyError (Policy.fromText rt text path) ∧
      ∃ ev, NativeYamlEvaluator.fromText rt text path = .ok ev) ↔ Masked rt.toStdlib tree d := by
  have hunified : Policy.fromText rt text path = Policy.fromTree rt tree path := by
    rw [Policy.fromText, h]
    rfl
  have hlegacy : NativeYamlEvaluator.fromText rt text path =
      NativeYamlEvaluator.constructFromTree rt tree path := by
    rw [NativeYamlEvaluator.fromText, h]
    rfl
  rw [hunified, hlegacy, NativeYamlEvaluator.constructFromTree,
    NativeYaml.constructFromTree_succeeds ht, Masked, and_comm]
  exact and_congr_right fun hs => fromTree_raises_iff ht hs

/-- The validator and the loader agree on a file exactly where its fault, if it has one, is not
masked by an access-control section that loads. -/
theorem validator_agrees_iff (rt : Runtime Ω) (path source text : String) (tree : YamlTree)
    (d : PyDict) (h : loadYaml rt.toStdlib text path = .ok tree) (ht : tree.shown = .dict d) :
    (validatePolicyFile rt path (some text) = .ok (true, none) ↔
      ∃ p, Policy.fromText rt text source = .ok p) ↔ ¬ Masked rt.toStdlib tree d := by
  have hsource : (∃ p, Policy.fromText rt text source = .ok p) ↔
      ∃ p, Policy.fromText rt text path = .ok p :=
    ⟨Policy.fromText_source, Policy.fromText_source⟩
  rw [validatePolicyFile_valid, masked_iff h ht, hsource]
  constructor
  · rintro hiff hm
    obtain ⟨p, hp⟩ := hiff.mp (.inr hm)
    obtain ⟨⟨e, he, -⟩, -⟩ := (masked_iff h ht).mpr hm
    rw [hp] at he
    cases he
  · intro hm
    exact ⟨fun hv => hv.resolve_right hm, .inl⟩

end

namespace Sample

/-- A sound access-control section beside a flag that is no boolean. -/
def halfBroken : PyVal :=
  .dict [(.str "version", .int 1), (.str "policy_id", .str "residency"),
    (.str "verification", .dict [(.str "block_stale", .str "yes")]),
    (.str "access_control", .dict [(.str "rules", .list [.dict [(.str "name", .str "residency"),
      (.str "require", .dict [(.str "chunk.metadata.residency", .str "EU")])]])])]

/-- Every text parses to that file. -/
def halfBrokenRuntime : Runtime Empty := { Runtime.blank with safeLoad := fun _ => .ok (.of halfBroken) }

end Sample

theorem validator_agrees_iff_sample :
    ∃ d, Sample.halfBroken = .dict d ∧
      ((validatePolicyFile Sample.halfBrokenRuntime "policy.yaml" (some "") = .ok (true, none) ↔
        ∃ p, Policy.fromText Sample.halfBrokenRuntime "" "<inline>" = .ok p) ↔
        ¬ Masked Sample.halfBrokenRuntime.toStdlib (.of Sample.halfBroken) d) :=
  ⟨_, rfl, validator_agrees_iff _ _ _ _ _ _ rfl rfl⟩

/-- The validator calls it valid, and the loader refuses it. -/
theorem half_broken_validates :
    loadYaml Sample.halfBrokenRuntime.toStdlib "" "policy.yaml" = .ok (.of Sample.halfBroken) ∧
      validatePolicyFile Sample.halfBrokenRuntime "policy.yaml" (some "") = .ok (true, none) ∧
      ¬ ∃ p, Policy.fromText Sample.halfBrokenRuntime "" "<inline>" = .ok p := by
  refine ⟨rfl, rfl, ?_⟩
  rintro ⟨p, hp⟩
  cases hp

end Provenex
