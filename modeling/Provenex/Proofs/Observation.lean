import Provenex.Proofs.Totality

/-! What rules can learn of a context through their paths. Where no path tells
two contexts apart, no accepted policy does; where one does, a policy of one
rule and one constraint decides them differently. -/

namespace Provenex

open Guard

section

variable {Ω : Type} {rt : Runtime Ω} {roots : List String}

/-- The paths that the rules mention. -/
def NativeYaml.paths (ev : NativeYaml) : List PyAtom :=
  ev.rules.flatMap fun r => keysOf (r.when ++ r.require)

theorem NativeYaml.mem_paths {ev : NativeYaml} {r : Rule} (hr : r ∈ ev.rules)
    {e : PyAtom × PyVal} (he : e ∈ r.when ++ r.require) : e.1 ∈ ev.paths :=
  List.mem_flatMap.mpr ⟨r, hr, List.mem_map_of_mem he⟩

theorem Accepted.paths_allowed {py : Stdlib} {ev : NativeYaml} (h : Accepted py roots ev) :
    ∀ k ∈ ev.paths, RootAllowed roots k := by
  obtain ⟨bundle, source, hinit⟩ := h
  obtain ⟨d, rfl, h⟩ := NativeYaml.init_ok.mp hinit
  obtain ⟨written, -, hrules⟩ := h.rules
  intro k hk
  obtain ⟨r, hr, hk⟩ := List.mem_flatMap.mp hk
  obtain ⟨m, -, hm⟩ := rulesChecked_mem hrules r hr
  obtain ⟨e, he, rfl⟩ := List.mem_map.mp hk
  rcases List.mem_append.mp he with he | he
  · exact (hm.when_entries e he).1
  · exact (hm.require_entries e he).1

/-! ## Paths that tell nothing apart -/

/-- No value that a policy may hold tells the two objects apart. -/
structure Indistinct (rt : Runtime Ω) (a a' : PyObj Ω) : Prop where
  str : a.str? = a'.str?
  eq : ∀ v, jsonable v = true → a.eq rt v = a'.eq rt v

theorem Indistinct.refl (a : PyObj Ω) : Indistinct rt a a := ⟨rfl, fun _ _ => rfl⟩

/-- One path in two contexts: alike, or missing in both, or an error in both. -/
inductive ObservedAlike (rt : Runtime Ω) :
    Except PyErr (Option (PyObj Ω)) → Except PyErr (Option (PyObj Ω)) → Prop
  | found {a a' : PyObj Ω} (h : Indistinct rt a a') : ObservedAlike rt (.ok (some a)) (.ok (some a'))
  | missing : ObservedAlike rt (.ok none) (.ok none)
  | error (e : PyErr) : ObservedAlike rt (.error e) (.error e)

theorem ObservedAlike.refl (r : Except PyErr (Option (PyObj Ω))) : ObservedAlike rt r r := by
  cases r with
  | error e => exact .error e
  | ok o =>
    cases o with
    | none => exact .missing
    | some a => exact .found (.refl a)

theorem Indistinct.inList {a a' : PyObj Ω} (h : Indistinct rt a a') {xs : List PyVal}
    (hxs : ∀ x ∈ xs, jsonable x = true) : a.inList rt xs = a'.inList rt xs := by
  unfold PyObj.inList
  induction xs with
  | nil => rfl
  | cons x xs ih =>
    rw [List.any_cons, List.any_cons, h.eq x (hxs x List.mem_cons_self),
      ih fun y hy => hxs y (List.mem_cons_of_mem _ hy)]

theorem Indistinct.operand {a a' : PyObj Ω} (h : Indistinct rt a a') {v : PyVal}
    (hv : jsonable v = true) : OperandAlike rt a a' v v := by
  cases v with
  | atom b => exact rfl
  | dict d => exact rfl
  | list xs => exact ⟨h.inList (jsonable_item hv), rfl⟩

theorem Indistinct.constraint {a a' : PyObj Ω} (h : Indistinct rt a a') {x : PyVal}
    (hx : jsonable x = true) : ConstraintAlike rt a a' x x := by
  cases x with
  | atom b => exact h.eq _ hx
  | list xs => exact h.eq _ hx
  | dict d => exact fun op => ⟨rfl, h.operand (jsonable_getOrNone hx op.key)⟩

theorem ObservedAlike.resolved {r r' : Except PyErr (Option (PyObj Ω))}
    (h : ObservedAlike rt r r') {x : PyVal} (hx : jsonable x = true) : ResolvedAlike rt x x r r' := by
  cases h with
  | found h => exact .found h.str (h.constraint hx)
  | missing => exact .missing
  | error e => exact .error e

/-- Contexts that no path of a policy tells apart walk through its rules alike. -/
theorem Accepted.evaluateRules_alike {ev : NativeYaml} (h : Accepted rt.toStdlib roots ev)
    {view view' : View} (htime : view.request.timestamp.str? = view'.request.timestamp.str?)
    (halike : ∀ k ∈ ev.paths, ObservedAlike rt (resolvePath rt k view) (resolvePath rt k view'))
    (unknownMetadata : String) (fired : List String) :
    evaluateRules rt unknownMetadata view ev.rules fired =
      evaluateRules rt unknownMetadata view' ev.rules fired := by
  refine evaluateRules_congr (List.forall₂_same.mpr fun r hr => ⟨rfl, ?_, ?_⟩) fired
  · refine allHold_congr fun e he => whenEntryMatches_congr ?_
    have hmem : e ∈ r.when ++ r.require := List.mem_append_left _ he
    exact (halike _ (ev.mem_paths hr hmem)).resolved (h.entries_jsonable r hr e hmem)
  · refine allHold_congr fun e he => requireEntryHolds_congr htime ?_
    have hmem : e ∈ r.when ++ r.require := List.mem_append_right _ he
    exact (halike _ (ev.mem_paths hr hmem)).resolved (h.entries_jsonable r hr e hmem)

/-! ## Paths that tell two contexts apart -/

theorem View.root_none {root : String} {view : View} (view' : View)
    (h : View.root (Ω := Ω) view root = none) : View.root (Ω := Ω) view' root = none := by
  unfold View.root at h ⊢
  split at h
  · cases h
  · cases h
  · cases h
  · rfl

theorem resolvePath_str {s : String} (view : View) :
    resolvePath rt (.str s) view =
      match view.root (beforeDot s) with
      | some start => .ok (start.bind fun o => o.walk rt (splitDots s).tail)
      | none => .error (.policyParseError ("unknown path root " ++ rt.repr (.str (beforeDot s)) ++
          " in " ++ rt.repr (.str s) ++ "; expected 'chunk', 'tool', or 'request'")) := by
  obtain ⟨segs, hs⟩ := splitDots_head s
  cases hroot : View.root view (beforeDot s) with
  | none => simp only [resolvePath, hs, hroot]
  | some start => simp only [resolvePath, hs, hroot, List.tail_cons]

/-- A path that does not resolve does not in any context. -/
theorem resolvePath_error {k : PyAtom} {view : View} {e : PyErr}
    (h : resolvePath rt k view = .error e) (view' : View) : resolvePath rt k view' = .error e := by
  cases k with
  | str s =>
    rw [resolvePath_str] at h ⊢
    cases hroot : view.root (Ω := Ω) (beforeDot s) with
    | some start => rw [hroot] at h; cases h
    | none => rwa [hroot, ← View.root_none view' hroot] at h
  | _ => exact h

theorem reserved_unresolved {s : String} (hs : s ∈ reservedRuleKeys) (view : View)
    (o : Option (PyObj Ω)) : resolvePath rt (.str s) view ≠ .ok o := by
  have hroot : View.root (Ω := Ω) view (beforeDot s) = none := by
    simp only [reservedRuleKeys, List.mem_cons, List.not_mem_nil, or_false] at hs
    rcases hs with rfl | rfl | rfl | rfl <;> rfl
  rw [resolvePath_str, hroot]
  intro h
  cases h

/-- One rule that puts one constraint on one path. -/
def probeRule (path : String) (op : Operator) (operand : PyVal) : Rule :=
  ⟨"probe", [], [(.str path, .dict [(.str op.key, operand)])], .str "deny"⟩

def probeBundle (path : String) (op : Operator) (operand : PyVal) : PyDict :=
  [(.str "version", .int 1), (.str "policy_id", .str "probe"),
    (.str "rules", .list [.dict [(.str "name", .str "probe"),
      (.str "require", .dict [(.str path, .dict [(.str op.key, operand)])])]])]

theorem probe_require {op op' : Operator} {operand v : PyVal}
    (h : getKey [(.str op.key, operand)] op'.key = some v) : op' = op ∧ v = operand := by
  rw [getKey_cons] at h
  split_ifs at h with hk
  · refine ⟨?_, (Option.some.inj h).symm⟩
    cases op <;> cases op' <;> first | rfl | exact absurd hk (by decide)
  · cases h

theorem probe_checked {py : Stdlib} {path : String} {op : Operator} {operand : PyVal}
    (hroot : RootAllowed roots (.str path)) (hres : path ∉ reservedRuleKeys)
    (hop : op.Accepts py operand) :
    RuleChecked py roots [(.str "name", .str "probe"),
      (.str "require", .dict [(.str path, .dict [(.str op.key, operand)])])]
      (probeRule path op operand) where
  name := rfl
  name_ne := by simp [probeRule]
  keys := by simp [KeysWithin, keysOf, ruleKeys]
  when := rfl
  when_flat := by simp [Flat, probeRule, keysOf]
  when_entries := by simp [probeRule]
  require := rfl
  require_flat := by
    intro k hk s hs heq
    obtain rfl : k = .str path := by simpa [probeRule, keysOf] using hk
    exact hres (PyAtom.str.inj heq ▸ hs)
  require_places := by
    intro e he d _ v _
    obtain rfl : e = (.str path, .dict [(.str op.key, operand)]) := List.mem_singleton.mp he
    rfl
  require_entries := by
    intro e he
    obtain rfl : e = (.str path, .dict [(.str op.key, operand)]) := List.mem_singleton.mp he
    refine ⟨hroot, fun d hd => ?_⟩
    obtain rfl := PyVal.dict.inj hd
    refine ⟨?_, fun op' v hv => ?_⟩
    · simpa [KeysWithin, keysOf] using (by cases op <;> decide : op.key ∈ knownRequireOperators)
    · obtain ⟨rfl, rfl⟩ := probe_require hv
      exact hop
  onViolation := rfl
  deny := rfl

/-- The evaluator of the bundle that holds the one rule. -/
theorem probe_accepted (py : Stdlib) {path : String} {op : Operator} {operand : PyVal}
    (hroot : RootAllowed roots (.str path)) (hres : path ∉ reservedRuleKeys)
    (hop : op.Accepts py operand) (hj : jsonable operand = true) :
    ∃ ev, Accepted py roots ev ∧ ev.rules = [probeRule path op operand] ∧
      ev.defaults.unknownMetadata = "deny" := by
  have hbundle : jsonable (.dict (probeBundle path op operand)) = true := by
    have hone : PyAtom.jsonable (.int 1) = true := rfl
    simp [probeBundle, jsonable, jsonableEntries, jsonableList, jsonableKeys, keysOf, sortable,
      PyAtom.keyClass, hone, hj]
  obtain ⟨hash, hhash⟩ := (computePolicyVersionHash_ok py).mpr hbundle
  refine ⟨⟨"policy.yaml", probeBundle path op operand, [probeRule path op operand],
    ⟨"deny", "deny"⟩, "probe", hash⟩, ?_, rfl, rfl⟩
  refine ⟨.dict (probeBundle path op operand), "policy.yaml", NativeYaml.init_ok.mpr ⟨_, rfl, ?_⟩⟩
  exact {
    bundle := rfl
    origin := rfl
    version := rfl
    rules := ⟨_, rfl, .cons ⟨_, rfl, probe_checked hroot hres hop⟩ .nil⟩
    defaults := rfl
    policyId := rfl
    policyId_ne := by simp
    hash := hhash }

theorem firstOperator_single (op : Operator) (operand : PyVal) :
    firstOperator [(.str op.key, operand)] = some op := by
  cases op <;> rfl

theorem getOrNone_single (op : Operator) (operand : PyVal) :
    getOrNone [(.str op.key, operand)] op.key = operand := by
  rw [getOrNone, getKey_cons, if_pos rfl]
  rfl

theorem evaluateRules_probe {path : String} {op : Operator} {operand : PyVal} {view : View}
    {b : Bool} (h : requireEntryHolds rt "deny" view
      (.str path, .dict [(.str op.key, operand)]) = .ok b) :
    evaluateRules rt "deny" view [probeRule path op operand] [] =
      .ok (if b then .allow else .deny, ["probe"]) := by
  have hreq : requireHolds rt "deny" view (probeRule path op operand).require = .ok b := by
    rw [requireHolds, probeRule, allHold, h]
    cases b <;> rfl
  have hwhen : whenMatches rt view (probeRule path op operand).when = .ok true := rfl
  rw [evaluateRules, hwhen]
  simp only [bind, Except.bind, if_true, hreq]
  cases b <;> rfl

/-- What the one constraint asks where the path resolves to an object. -/
theorem requireEntryHolds_found {path : String} {op : Operator} {operand : PyVal} {view : View}
    {a : PyObj Ω} {b : Bool} (h : resolvePath rt (.str path) view = .ok (some a))
    (hop : (op.check rt (rt.format (.str path)) operand view.request.timestamp a).map Prod.fst =
      .ok b) :
    requireEntryHolds rt "deny" view (.str path, .dict [(.str op.key, operand)]) = .ok b := by
  rw [requireEntryHolds, h]
  simp only [bind, Except.bind, checkConstraint, firstOperator_single, getOrNone_single]
  exact hop

theorem requireEntryHolds_missing {path : String} {op : Operator} {operand : PyVal} {view : View}
    (h : resolvePath rt (.str path) view = .ok none) :
    requireEntryHolds rt "deny" view (.str path, .dict [(.str op.key, operand)]) = .ok false := by
  rw [requireEntryHolds, h]
  rfl

/-- The operand of a constraint that holds in one of the contexts only. -/
structure Separates (rt : Runtime Ω) (path : String) (op : Operator) (operand : PyVal)
    (view view' : View) (b : Bool) : Prop where
  accepts : op.Accepts rt.toStdlib operand
  jsonable : jsonable operand = true
  left : requireEntryHolds rt "deny" view (.str path, .dict [(.str op.key, operand)]) = .ok b
  right : requireEntryHolds rt "deny" view' (.str path, .dict [(.str op.key, operand)]) = .ok (! b)

theorem Separates.symm {path : String} {op : Operator} {operand : PyVal} {view view' : View}
    {b : Bool} (h : Separates rt path op operand view view' b) :
    Separates rt path op operand view' view (! b) :=
  ⟨h.accepts, h.jsonable, h.right, by rw [Bool.not_not]; exact h.left⟩

theorem separates_missing {path : String} {view view' : View} {a : PyObj Ω}
    (h : resolvePath rt (.str path) view = .ok (some a))
    (h' : resolvePath rt (.str path) view' = .ok none) :
    Separates rt path .notIn (.list []) view view' true :=
  ⟨rfl, rfl, requireEntryHolds_found h rfl, requireEntryHolds_missing h'⟩

theorem check_isIn_single (a : PyObj Ω) {v : PyVal} (hv : jsonable v = true) (timestamp : PyVal)
    (place : String) :
    (Operator.isIn.check rt place (.list [v]) timestamp a).map Prod.fst = .ok (a.eq rt v) := by
  have hprint : printable (.list [v]) = true :=
    printable_of_jsonable _ (by simp [jsonable, jsonableList, hv])
  simp only [Operator.check]
  rw [formatOf_fst, if_pos hprint]
  simp [PyObj.inList]

theorem separates_eq {path : String} {view view' : View} {a a' : PyObj Ω} {v : PyVal}
    (h : resolvePath rt (.str path) view = .ok (some a))
    (h' : resolvePath rt (.str path) view' = .ok (some a')) (hv : jsonable v = true)
    (hne : a.eq rt v ≠ a'.eq rt v) :
    Separates rt path .isIn (.list [v]) view view' (a.eq rt v) where
  accepts := rfl
  jsonable := by simp [Provenex.jsonable, jsonableList, hv]
  left := requireEntryHolds_found h (check_isIn_single a hv _ _)
  right := by
    have hnot : a'.eq rt v = ! a.eq rt v := Bool.eq_not.mpr hne.symm
    rw [← hnot]
    exact requireEntryHolds_found h' (check_isIn_single a' hv _ _)

theorem PyObj.eq_str (rt : Runtime Ω) {a : PyObj Ω} {s : String} :
    a.eq rt (.str s) = true ↔ a.str? = some s := by
  cases a with
  | val v =>
    cases v with
    | atom c =>
      refine PyAtom.eq_str.trans ⟨?_, fun h => PyVal.atom.inj (PyVal.str?_some h)⟩
      rintro rfl
      rfl
    | list xs => simp [PyObj.eq, PyVal.eq, PyObj.str?, PyVal.str?]
    | dict d => simp [PyObj.eq, PyVal.eq, PyObj.str?, PyVal.str?]
  | other o => simp [PyObj.eq, PyObj.str?, rt.otherEq_str]
  | chunk c => simp [PyObj.eq, PyObj.str?]
  | tool t => simp [PyObj.eq, PyObj.str?]
  | request r => simp [PyObj.eq, PyObj.str?]

/-- Objects that compare alike with everything are one text, if either is a text. -/
theorem str_of_eq {a a' : PyObj Ω} (heq : ∀ v, jsonable v = true → a.eq rt v = a'.eq rt v) :
    a.str? = a'.str? := by
  apply Option.ext
  intro s
  rw [← PyObj.eq_str rt, ← PyObj.eq_str rt, heq (.str s) rfl]

/-- Where a path tells two contexts apart, some constraint on it does. -/
theorem separates_of_not_alike {k : PyAtom} {view view' : View}
    (h : ¬ ObservedAlike rt (resolvePath rt k view) (resolvePath rt k view')) :
    ∃ path op operand b, k = .str path ∧ path ∉ reservedRuleKeys ∧
      Separates rt path op operand view view' b := by
  cases hr : resolvePath rt k view with
  | error e =>
    rw [hr, resolvePath_error hr view'] at h
    exact absurd (.error e) h
  | ok o =>
    cases hr' : resolvePath rt k view' with
    | error e =>
      rw [resolvePath_error hr' view] at hr
      cases hr
    | ok o' =>
      rw [hr, hr'] at h
      cases k with
      | str path =>
        have hres : path ∉ reservedRuleKeys := fun hmem => reserved_unresolved hmem view o hr
        cases o with
        | none =>
          cases o' with
          | none => exact absurd .missing h
          | some a' => exact ⟨path, _, _, _, rfl, hres, (separates_missing hr' hr).symm⟩
        | some a =>
          cases o' with
          | none => exact ⟨path, _, _, _, rfl, hres, separates_missing hr hr'⟩
          | some a' =>
            by_cases heq : ∀ v, jsonable v = true → a.eq rt v = a'.eq rt v
            · exact absurd (.found ⟨str_of_eq heq, heq⟩) h
            · simp only [not_forall] at heq
              obtain ⟨v, hv, hne⟩ := heq
              exact ⟨path, _, _, _, rfl, hres, separates_eq hr hr' hv hne⟩
      | _ => cases hr

end

end Provenex
