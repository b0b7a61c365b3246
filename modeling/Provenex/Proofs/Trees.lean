import Provenex.Proofs.Loading

/-! Loading a tree. The loaders see of a text with half of a surrogate pair that it is none of the
texts they know; such a text ends the load when an evaluator takes the hash of a bundle that holds
it. So a tree loads as what is shown of it does, where the bundles of its evaluators can be
hashed. -/

namespace Provenex

open Guard

/-! ## What is shown -/

theorem treeKey_shown (d : YamlDict) (k : String) :
    (treeKey d k).map YamlTree.shown = getKey (shownEntries d) k := by
  induction d with
  | nil => rfl
  | cons e d ih =>
    rw [shownEntries, getKey, dictGet_cons, ← getKey, ← ih, treeKey, treeKey, List.find?_cons]
    cases e.1.shown.eq (.str k) <;> rfl

theorem treeKey_of (d : PyDict) (k : String) :
    treeKey (treeEntries d) k = (getKey d k).map YamlTree.of := by
  induction d with
  | nil => rfl
  | cons e d ih =>
    rw [treeEntries, getKey, dictGet_cons, ← getKey, apply_ite (Option.map YamlTree.of), ← ih,
      treeKey, treeKey, List.find?_cons]
    simp only [YamlAtom.shown]
    cases e.1.eq (.str k) <;> rfl

theorem shown_dict {tree : YamlTree} {d : PyDict} (h : tree.shown = .dict d) :
    ∃ m, tree = .dict m ∧ shownEntries m = d := by
  cases tree with
  | leaf a =>
    rw [YamlTree.shown] at h
    cases h
  | list xs =>
    rw [YamlTree.shown] at h
    cases h
  | dict m =>
    rw [YamlTree.shown] at h
    exact ⟨m, rfl, PyVal.dict.inj h⟩

theorem treeList_eq (xs : List PyVal) : treeList xs = xs.map YamlTree.of := by
  induction xs with
  | nil => rfl
  | cons x xs ih => rw [treeList, ih, List.map_cons]

theorem treeEntries_eq (d : PyDict) :
    treeEntries d = d.map fun e => (.atom e.1, .of e.2) := by
  induction d with
  | nil => rfl
  | cons e d ih => rw [treeEntries, ih, List.map_cons]

theorem shownList_eq (xs : List YamlTree) : shownList xs = xs.map YamlTree.shown := by
  induction xs with
  | nil => rfl
  | cons x xs ih => rw [shownList, ih, List.map_cons]

theorem shownEntries_eq (d : YamlDict) :
    shownEntries d = d.map fun e => (e.1.shown, e.2.shown) := by
  induction d with
  | nil => rfl
  | cons e d ih => rw [shownEntries, ih, List.map_cons]

@[simp] theorem shown_of (v : PyVal) : (YamlTree.of v).shown = v := by
  induction v using PyVal.induction with
  | atom a => simp only [YamlTree.of, YamlTree.shown, YamlAtom.shown]
  | list xs ih =>
    have hid : xs.map (YamlTree.shown ∘ YamlTree.of) = xs.map id := List.map_congr_left ih
    rw [YamlTree.of, YamlTree.shown, treeList_eq, shownList_eq, List.map_map, hid, List.map_id]
  | dict d ih =>
    have hid : (d.map fun e => ((.atom e.1, .of e.2) : YamlAtom × YamlTree)).map
        (fun e => (e.1.shown, e.2.shown)) = d.map id := by
      rw [List.map_map]
      exact List.map_congr_left fun e he => Prod.ext rfl (ih e he)
    rw [YamlTree.of, YamlTree.shown, treeEntries_eq, shownEntries_eq, hid, List.map_id]

theorem encodableList_iff {xs : List YamlTree} :
    encodableList xs = true ↔ ∀ x ∈ xs, x.encodable = true := by
  induction xs with
  | nil => simp [encodableList]
  | cons x xs ih => rw [encodableList, Bool.and_eq_true, ih, List.forall_mem_cons]

@[simp] theorem encodable_of (v : PyVal) : (YamlTree.of v).encodable = true := by
  induction v using PyVal.induction with
  | atom a => simp only [YamlTree.of, YamlTree.encodable]
  | list xs ih =>
    rw [YamlTree.of, YamlTree.encodable, treeList_eq, encodableList_iff, List.forall_mem_map]
    exact ih
  | dict d ih =>
    rw [YamlTree.of, YamlTree.encodable]
    induction d with
    | nil => rfl
    | cons e d ihd =>
      obtain ⟨he, hd⟩ := List.forall_mem_cons.mp ih
      rw [treeEntries, encodableEntries, he, ihd hd, Bool.and_self]

/-! ## The hash -/

/-- An evaluator can take the hash of the tree. -/
def YamlTree.hashable (tree : YamlTree) : Bool := jsonable tree.shown && tree.encodable

section

variable {py : Stdlib} {roots : List String} {source k : String}

theorem treeVersionHash_eq {tree : YamlTree} {h : String} :
    NativeYaml.treeVersionHash py tree = .ok h ↔
      computePolicyVersionHash py tree.shown = .ok h ∧ tree.encodable = true := by
  rw [NativeYaml.treeVersionHash, bind_ok]
  constructor
  · rintro ⟨h', hh, h⟩
    split_ifs at h with he
    exact ⟨Except.ok.inj h ▸ hh, he⟩
  · rintro ⟨hh, he⟩
    exact ⟨h, hh, if_pos he⟩

theorem treeVersionHash_ok {tree : YamlTree} :
    (∃ h, NativeYaml.treeVersionHash py tree = .ok h) ↔ tree.hashable = true := by
  simp only [treeVersionHash_eq, exists_and_right, computePolicyVersionHash_ok, YamlTree.hashable,
    Bool.and_eq_true]

theorem treeVersionHash_of (v : PyVal) :
    NativeYaml.treeVersionHash py (.of v) = computePolicyVersionHash py v := by
  rw [NativeYaml.treeVersionHash, shown_of, encodable_of]
  cases computePolicyVersionHash py v <;> rfl

/-! ## One section -/

namespace NativeYaml

theorem normalizedTree_shown (d sec : YamlDict) :
    shownEntries (normalizedTree d sec) = normalized (shownEntries d) (shownEntries sec) := by
  have hcopied (o : Option YamlTree) (k : String) :
      shownEntries ((o.map fun v => ((.atom (.str k), v) : YamlAtom × YamlTree)).toList) =
        ((o.map YamlTree.shown).map fun v => ((.str k, v) : PyAtom × PyVal)).toList := by
    cases o <;> rfl
  have happend (d e : YamlDict) : shownEntries (d ++ e) = shownEntries d ++ shownEntries e := by
    induction d with
    | nil => rfl
    | cons x d ih => rw [List.cons_append, shownEntries, shownEntries, ih, List.cons_append]
  have hgetD (o : Option YamlTree) (t : YamlTree) :
      (o.getD t).shown = (o.map YamlTree.shown).getD t.shown := by
    cases o <;> rfl
  have hor (c : Bool) (t u : YamlTree) :
      (if c = true then t else u).shown = if c = true then t.shown else u.shown := by
    cases c <;> rfl
  rw [normalizedTree, normalized, happend, happend, hcopied, hcopied, treeKey_shown, treeKey_shown]
  simp only [shownEntries, YamlAtom.shown, hgetD, hor, treeKey_shown, shown_of, pyOr, getOrNone]
  rfl

theorem sectionTree_none {d : YamlDict} (h : getKey (shownEntries d) k = none) :
    sectionTree k (.dict d) = .dict d := by
  rw [← treeKey_shown] at h
  cases hk : treeKey d k with
  | none => simp only [sectionTree, hk]
  | some block =>
    rw [hk] at h
    cases h

theorem sectionTree_some {d : YamlDict} {sec : PyDict}
    (h : getKey (shownEntries d) k = some (.dict sec)) :
    (sectionTree k (.dict d)).shown = .dict (normalized (shownEntries d) sec) := by
  rw [← treeKey_shown] at h
  obtain ⟨block, hk, hb⟩ := Option.map_eq_some_iff.mp h
  obtain ⟨m, rfl, rfl⟩ := shown_dict hb
  simp only [sectionTree, hk]
  rw [YamlTree.shown, normalizedTree_shown]

theorem sectionTree_dict {tree : YamlTree} {d : PyDict} (ht : tree.shown = .dict d) :
    ∃ m, (sectionTree k tree).shown = .dict m := by
  obtain ⟨m, rfl, -⟩ := shown_dict ht
  rw [sectionTree]
  split
  · exact ⟨_, by rw [YamlTree.shown]⟩
  · exact ⟨_, by rw [YamlTree.shown]⟩

/-- `__init__`, of a tree. -/
def initTree (py : Stdlib) (roots : List String) (tree : YamlTree) (source : String) :
    Except PyErr NativeYaml :=
  initWith py (treeVersionHash py tree) roots tree.shown source

/-- What stands under the key, if it is there, is a mapping. -/
def MappingAt (d : PyDict) (k : String) : Prop := ∀ block, getKey d k = some block → ∃ sec, block = .dict sec

theorem constructFromTree_eq {tree : YamlTree} {d : PyDict} (ht : tree.shown = .dict d)
    (hm : MappingAt d k) :
    constructFromTree py k roots tree source = initTree py roots (sectionTree k tree) source := by
  obtain ⟨m, rfl, rfl⟩ := shown_dict ht
  cases hk : getKey (shownEntries m) k with
  | none =>
    simp only [constructFromTree, constructWith, ht, asMapping, bind, Except.bind, hk]
    rw [initTree, sectionTree_none hk, ht]
  | some block =>
    obtain ⟨sec, rfl⟩ := hm block hk
    simp only [constructFromTree, constructWith, ht, asMapping, bind, Except.bind, hk]
    rw [initTree, sectionTree_some hk]

theorem constructFromTree_refused {tree : YamlTree} {d : PyDict} (ht : tree.shown = .dict d)
    (hm : ¬ MappingAt d k) : ∃ msg, constructFromTree py k roots tree source =
      .error (.policyParseError msg) := by
  simp only [MappingAt, not_forall] at hm
  obtain ⟨block, hk, hblock⟩ := hm
  simp only [constructFromTree, constructWith, ht, asMapping, bind, Except.bind, hk]
  cases block with
  | atom a => exact ⟨_, rfl⟩
  | list xs => exact ⟨_, rfl⟩
  | dict sec => exact absurd ⟨sec, rfl⟩ hblock

/-- A tree makes the evaluator that what is shown of it makes, where the bundle can be hashed. -/
theorem constructFromTree_ok {tree : YamlTree} {d : PyDict} (ht : tree.shown = .dict d)
    {ev : NativeYaml} : constructFromTree py k roots tree source = .ok ev ↔
      constructFromBundle py k roots (.dict d) source = .ok ev ∧
        (sectionTree k tree).encodable = true := by
  obtain ⟨m, rfl, rfl⟩ := shown_dict ht
  by_cases hm : MappingAt (shownEntries m) k
  · have hbundle : constructFromBundle py k roots (.dict (shownEntries m)) source =
        init py roots (sectionTree k (.dict m)).shown source := by
      cases hk : getKey (shownEntries m) k with
      | none => rw [constructFromBundle_none hk, sectionTree_none hk, ht]
      | some block =>
        obtain ⟨sec, rfl⟩ := hm block hk
        rw [constructFromBundle_some hk, sectionTree_some hk]
    rw [constructFromTree_eq ht hm, hbundle, initTree, init, initWith_ok, initWith_ok]
    simp only [treeVersionHash_eq]
    constructor
    · rintro ⟨d, hd, h, hhash, he⟩
      exact ⟨⟨d, hd, h, hhash⟩, he⟩
    · rintro ⟨⟨d, hd, h, hhash⟩, he⟩
      exact ⟨d, hd, h, hhash, he⟩
  · obtain ⟨msg, he⟩ : ∃ msg, constructFromTree py k roots (.dict m) source =
        .error (.policyParseError msg) := constructFromTree_refused ht hm
    rw [he]
    refine iff_of_false (fun h => ?_) fun h => hm fun block hk => ?_
    · cases h
    · exact constructFromBundle_ok hk h.1

theorem normalizedTree_of (d sec : PyDict) :
    normalizedTree (treeEntries d) (treeEntries sec) = treeEntries (normalized d sec) := by
  have hcopied (o : Option PyVal) (k : String) :
      ((o.map YamlTree.of).map fun v => ((.atom (.str k), v) : YamlAtom × YamlTree)).toList =
        treeEntries ((o.map fun v => ((.str k, v) : PyAtom × PyVal)).toList) := by
    cases o <;> rfl
  have happend (d e : PyDict) : treeEntries (d ++ e) = treeEntries d ++ treeEntries e := by
    induction d with
    | nil => rfl
    | cons x d ih => rw [List.cons_append, treeEntries, treeEntries, ih, List.cons_append]
  have hgetD (o : Option PyVal) (v : PyVal) : (o.map YamlTree.of).getD (.of v) = .of (o.getD v) := by
    cases o <;> rfl
  have hor (c : Bool) (v w : PyVal) :
      (if c = true then YamlTree.of v else .of w) = .of (if c = true then v else w) := by
    cases c <;> rfl
  have hnil : YamlTree.list [] = .of (.list []) := rfl
  rw [normalizedTree, normalized, happend, happend, ← hcopied, ← hcopied]
  simp only [treeKey_of, hnil, hgetD, shown_of, hor, treeEntries, pyOr, getOrNone]
  rfl

theorem sectionTree_of_some {d sec : PyDict} (h : getKey d k = some (.dict sec)) :
    sectionTree k (.of (.dict d)) = .of (.dict (normalized d sec)) := by
  rw [YamlTree.of, sectionTree, treeKey_of, h]
  simp only [Option.map_some, YamlTree.of, normalizedTree_of]

theorem sectionTree_of_other {d : PyDict} (h : ∀ sec, getKey d k ≠ some (.dict sec)) :
    sectionTree k (.of (.dict d)) = .of (.dict d) := by
  rw [YamlTree.of, sectionTree, treeKey_of]
  cases hk : getKey d k with
  | none => rfl
  | some block =>
    cases block with
    | atom a => simp only [Option.map_some, YamlTree.of]
    | list xs => simp only [Option.map_some, YamlTree.of]
    | dict sec => exact absurd hk (h sec)

theorem constructFromTree_of {d : PyDict} : constructFromTree py k roots (.of (.dict d)) source =
    constructFromBundle py k roots (.dict d) source := by
  rw [constructFromTree, constructFromBundle, shown_of]
  simp only [constructWith, asMapping, bind, Except.bind]
  cases hk : getKey d k with
  | none =>
    rw [sectionTree_of_other (by simp [hk]), treeVersionHash_of]
    rfl
  | some block =>
    cases block with
    | atom a => rfl
    | list xs => rfl
    | dict sec =>
      rw [sectionTree_of_some hk, treeVersionHash_of]
      rfl

end NativeYaml

/-- The section of that name, or the whole file where it is not written, is made a bundle that an
evaluator takes. -/
def SectionShape (py : Stdlib) (roots : List String) (tree : YamlTree) (d : PyDict) (k : String) : Prop :=
  NativeYaml.MappingAt d k ∧ ∃ m, (NativeYaml.sectionTree k tree).shown = .dict m ∧
    BundleShape py roots m ∧ (NativeYaml.sectionTree k tree).hashable = true

theorem NativeYaml.constructFromTree_succeeds {tree : YamlTree} {d : PyDict}
    (ht : tree.shown = .dict d) :
    (∃ ev, constructFromTree py k roots tree source = .ok ev) ↔ SectionShape py roots tree d k := by
  by_cases hm : MappingAt d k
  · rw [constructFromTree_eq ht hm, initTree, initWith_succeeds, SectionShape, and_iff_right hm,
      treeVersionHash_ok]
  · obtain ⟨msg, he⟩ : ∃ msg, constructFromTree py k roots tree source =
        .error (.policyParseError msg) := constructFromTree_refused ht hm
    rw [he]
    exact iff_of_false nofun fun h => hm h.1

end

/-! ## A unified file -/

section

variable {Ω : Type} {rt : Runtime Ω}

/-- A section that may be null or absent. -/
def OptionalSection (py : Stdlib) (roots : List String) (tree : YamlTree) (d : PyDict) (k : String) :
    Prop :=
  getOrNone d k = .none ∨ SectionShape py roots tree d k

/-- What a unified file has to be, to load; `d` is what is shown of it. -/
structure FileShape (py : Stdlib) (tree : YamlTree) (d : PyDict) : Prop where
  keys : KeysWithin d unifiedYamlTopKeys
  version : ((getKey d "version").getD (.int 1)).eq (.int 1) = true
  verification : VerificationShape (getOrNone d "verification")
  accessControl : OptionalSection py chunkDomainRoots tree d "access_control"
  toolCallControl : OptionalSection py toolCallDomainRoots tree d "tool_call_control"

theorem loadSection_succeeds {construct : PyVal → String → Except PyErr NativeYaml} {d : PyDict}
    {k source : String} :
    (∃ o, loadSection construct d k source = .ok o) ↔
      (getOrNone d k = .none ∨ ∃ ev, construct (.dict d) source = .ok ev) := by
  simp only [loadSection_ok]
  by_cases h : getOrNone d k = .none
  · simp [h]
  · simp [h]

theorem loadSection_constructs {roots : List String} {tree : YamlTree} {d : PyDict}
    {k source : String} (ht : tree.shown = .dict d) :
    (∃ o, loadSection (fun _ => NativeYaml.constructFromTree rt.toStdlib k roots tree) d k
      source = .ok o) ↔ OptionalSection rt.toStdlib roots tree d k := by
  rw [loadSection_succeeds, NativeYaml.constructFromTree_succeeds ht, OptionalSection]

namespace Policy

theorem fromTree_succeeds {tree : YamlTree} {source : String} :
    (∃ p, fromTree rt tree source = .ok p) ↔
      ∃ d, tree.shown = .dict d ∧ FileShape rt.toStdlib tree d := by
  simp only [fromTree, fromBundleWith_ok]
  constructor
  · rintro ⟨p, d, hd, h⟩
    exact ⟨d, hd, h.keys, h.version, parseVerification_ok.mp ⟨_, h.verification⟩,
      (loadSection_constructs hd).mp ⟨_, h.accessControl⟩,
      (loadSection_constructs hd).mp ⟨_, h.toolCallControl⟩⟩
  · rintro ⟨d, hd, h⟩
    obtain ⟨v, hv⟩ := parseVerification_ok.mpr h.verification
    obtain ⟨a, ha⟩ := (loadSection_constructs hd).mpr h.accessControl
    obtain ⟨t, ht⟩ := (loadSection_constructs hd).mpr h.toolCallControl
    exact ⟨⟨v, a, t⟩, d, hd, h.keys, h.version, hv, ha, ht⟩

/-- A policy that a tree loads to is the one that what is shown of the tree loads to. -/
theorem fromTree_shown {tree : YamlTree} {source : String} {p : LoadedPolicy}
    (h : fromTree rt tree source = .ok p) : fromBundle rt tree.shown source = .ok p := by
  obtain ⟨d, hd, h⟩ := fromBundleWith_ok.mp h
  have hsection {k : String} {roots : List String} {o : Option NativeYaml}
      (h : loadSection (fun _ => NativeYaml.constructFromTree rt.toStdlib k roots tree) d k source =
        .ok o) :
      loadSection (NativeYaml.constructFromBundle rt.toStdlib k roots) d k source = .ok o := by
    refine loadSection_ok.mpr ((loadSection_ok.mp h).imp_right ?_)
    rintro ⟨hne, ev, hev, ho⟩
    exact ⟨hne, ev, ((NativeYaml.constructFromTree_ok hd).mp hev).1, ho⟩
  exact fromBundle_ok.mpr ⟨d, hd, h.keys, h.version, h.verification, hsection h.accessControl,
    hsection h.toolCallControl⟩

/-- A tree without texts of other kinds loads as the value it is. -/
theorem fromTree_of (v : PyVal) (source : String) :
    fromTree rt (.of v) source = fromBundle rt v source := by
  rw [fromTree, fromBundle, shown_of]
  cases v with
  | atom a => rfl
  | list xs => rfl
  | dict d =>
    have hsection {k : String} {roots : List String} :
        loadSection (fun _ => NativeYaml.constructFromTree rt.toStdlib k roots (.of (.dict d))) d k
            source =
          loadSection (NativeYaml.constructFromBundle rt.toStdlib k roots) d k source := by
      rw [loadSection, loadSection, NativeYaml.constructFromTree_of]
    have haccess := @hsection "access_control" chunkDomainRoots
    have htool := @hsection "tool_call_control" toolCallDomainRoots
    simp only [fromBundleWith, asMapping, bind, Except.bind]
    unfold NativeYamlEvaluator.constructFromTree NativeYamlToolCallEvaluator.constructFromTree
    rw [haccess, htool]
    rfl

/-- The place named in messages has no part in what loads. -/
theorem fromText_source {text source source' : String}
    (h : ∃ p, fromText rt text source = .ok p) : ∃ p, fromText rt text source' = .ok p := by
  obtain ⟨p, h⟩ := h
  obtain ⟨tree, ht, h⟩ := bind_ok.mp h
  obtain ⟨p', h'⟩ : ∃ p', fromTree rt tree source' = .ok p' :=
    fromTree_succeeds.mpr (fromTree_succeeds.mp ⟨p, h⟩)
  exact ⟨p', bind_ok.mpr ⟨tree, loadYaml_ok ht, h'⟩⟩

end Policy

end

end Provenex
