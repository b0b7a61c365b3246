import Provenex.Proofs.Validator

/-! Where a file that does not load fails with something other than a policy error. -/

namespace Provenex

open Guard

section

variable {Ω : Type} {rt : Runtime Ω}

/-- A tree whose first fault is reported, by the loader and, where a fault sends the validator to
it, by the fallback loader. -/
def FailsCleanly (py : Stdlib) (tree : YamlTree) : Prop :=
  ∀ d, tree.shown = .dict d → FileReports py tree d ∧
    (FileShape py tree d ∨ SectionReports py chunkDomainRoots tree d "access_control")

/-- Loading raises nothing but a policy error, and the validator returns. -/
def CleanOutcomes (rt : Runtime Ω) (path text : String) : Prop :=
  (∀ source, OnlyRaises IsPolicyError (Policy.fromText rt text source)) ∧
    ∃ ok message, validatePolicyFile rt path (some text) = .ok (ok, message)

theorem validatePolicyFile_returns {path text : String} :
    (∃ ok message, validatePolicyFile rt path (some text) = .ok (ok, message)) ↔
      OnlyRaises IsPolicyError (Policy.fromText rt text path) ∧
        ((∃ p, Policy.fromText rt text path = .ok p) ∨
          OnlyRaises IsPolicyError (NativeYamlEvaluator.fromText rt text path)) := by
  simp only [validatePolicyFile]
  cases Policy.fromText rt text path with
  | ok p => exact iff_of_true ⟨true, none, rfl⟩ ⟨.ok p, .inl ⟨p, rfl⟩⟩
  | error e =>
    cases hm : e.policyMessage with
    | none =>
      refine iff_of_false (by simp [hm]) fun h => ?_
      exact policyMessage_none.mp hm (h.1 e rfl)
    | some unifiedErr =>
      have hp : IsPolicyError e := not_not.mp fun hn => by simp [policyMessage_none.mpr hn] at hm
      simp only [hm]
      rw [and_iff_right (.error hp), or_iff_right (by simp)]
      cases NativeYamlEvaluator.fromText rt text path with
      | ok ev => exact iff_of_true ⟨true, none, rfl⟩ (.ok ev)
      | error e' =>
        cases hm' : e'.policyMessage with
        | none =>
          refine iff_of_false (by simp [hm']) fun h => ?_
          exact policyMessage_none.mp hm' (h e' rfl)
        | some m =>
          refine iff_of_true ⟨false, some unifiedErr, by simp [hm']⟩ (.error ?_)
          exact not_not.mp fun hn => by simp [policyMessage_none.mpr hn] at hm'

/-- A tree that is no mapping is refused by both loaders. -/
theorem notMapping_raises {tree : YamlTree} (h : ∀ d, tree.shown ≠ .dict d) (source : String) :
    OnlyRaises IsPolicyError (Policy.fromTree rt tree source) ∧
      OnlyRaises IsPolicyError (NativeYamlEvaluator.constructFromTree rt tree source) := by
  have hmapping {α : Type} {f : PyDict → Except PyErr α} :
      OnlyRaises IsPolicyError (asMapping tree.shown (notMapping tree.shown source) >>= f) :=
    (onlyRaises_after policyMapping).mpr fun d hd => absurd (asMapping_ok.mp hd) (h d)
  exact ⟨hmapping, hmapping⟩

/-- A policy file fails cleanly exactly where none of the faults that cannot be reported is the
first one met. -/
theorem fails_cleanly_iff (rt : Runtime Ω) (path text : String) (tree : YamlTree)
    (h : loadYaml rt.toStdlib text path = .ok tree) :
    CleanOutcomes rt path text ↔ FailsCleanly rt.toStdlib tree := by
  have htext (source : String) :
      Policy.fromText rt text source = Policy.fromTree rt tree source := by
    rw [Policy.fromText, loadYaml_ok h]
    rfl
  have hlegacy : NativeYamlEvaluator.fromText rt text path =
      NativeYamlEvaluator.constructFromTree rt tree path := by
    rw [NativeYamlEvaluator.fromText, h]
    rfl
  simp only [CleanOutcomes, validatePolicyFile_returns, htext, hlegacy]
  by_cases hmap : ∃ d, tree.shown = .dict d
  · obtain ⟨d, ht⟩ := hmap
    have hconstruct : OnlyRaises IsPolicyError
        (NativeYamlEvaluator.constructFromTree rt tree path) ↔
          SectionReports rt.toStdlib chunkDomainRoots tree d "access_control" :=
      constructFromTree_reports ht
    simp only [fromTree_reports ht, hconstruct, Policy.fromTree_succeeds, FailsCleanly, ht,
      PyVal.dict.injEq, exists_eq_left', forall_eq', forall_const, and_self_left]
  · rw [not_exists] at hmap
    have hraises := @notMapping_raises _ rt _ hmap
    exact iff_of_true ⟨fun source => (hraises source).1, (hraises path).1, .inr (hraises path).2⟩
      fun d hd => absurd hd (hmap d)

end

/-- A file with a flag that is no boolean is refused cleanly. -/
theorem fails_cleanly_sample : CleanOutcomes Sample.halfBrokenRuntime "policy.yaml" "" := by
  refine (fails_cleanly_iff Sample.halfBrokenRuntime "policy.yaml" "" (.of Sample.halfBroken)
    rfl).mpr fun d hd => ?_
  have hloads : OnlyRaises IsPolicyError
      (Policy.fromTree Sample.halfBrokenRuntime (.of Sample.halfBroken) "policy.yaml") :=
    .error rfl
  have hfallback : OnlyRaises IsPolicyError (NativeYamlEvaluator.constructFromTree
      Sample.halfBrokenRuntime (.of Sample.halfBroken) "policy.yaml") := .ok _
  exact ⟨(fromTree_reports hd).mp hloads, .inr ((constructFromTree_reports hd).mp hfallback)⟩

namespace Sample

/-- A sound policy, whose description is given. -/
def describedTree (description : YamlTree) : YamlTree :=
  .dict [(.atom (.str "version"), .of (.int 1)), (.atom (.str "policy_id"), .of (.str "described")),
    (.atom (.str "description"), description),
    (.atom (.str "access_control"), .of (.dict [(.str "rules", .list [])]))]

/-- Two unknown keys, a number and a text. -/
def mixedTree : YamlTree := .of (.dict [(.int 1, .none), (.str "extra", .none)])

/-- Every text parses to the tree. -/
def runtimeOf (tree : YamlTree) : Runtime Empty := { Runtime.blank with safeLoad := fun _ => .ok tree }

/-- The tree ends the loader and the validator with the error, which is no policy error. -/
def EndsBoth (tree : YamlTree) (e : PyErr) : Prop :=
  loadYaml (runtimeOf tree).toStdlib "" "policy.yaml" = .ok tree ∧
    Policy.fromText (runtimeOf tree) "" "policy.yaml" = .error e ∧
    validatePolicyFile (runtimeOf tree) "policy.yaml" (some "") = .error e ∧
    e.isPolicyError = false

/-- Half of a surrogate pair. -/
def loneHalf : LoneText where
  text := [.half 0]
  lone := rfl

end Sample

/-- A description that is a date or half of a pair, and unknown keys of two kinds. -/
theorem dated_description_raises :
    Sample.EndsBoth (Sample.describedTree (.of (.atom (.date (.date 19723))))) (.typeError none) ∧
      Sample.EndsBoth (Sample.describedTree (.leaf (.lone Sample.loneHalf))) (.valueError none) ∧
      Sample.EndsBoth Sample.mixedTree (.typeError none) :=
  ⟨⟨rfl, rfl, rfl, rfl⟩, ⟨rfl, rfl, rfl, rfl⟩, ⟨rfl, rfl, rfl, rfl⟩⟩

end Provenex
