import Provenex.Policy.Unified

/-! What a successful load has checked, validator by validator. -/

namespace Provenex

open Guard

/-! ## Keys and shapes -/

theorem PyAtom.eq_str {k : PyAtom} {s : String} : k.eq (.str s) = true ↔ k = .str s := by
  unfold PyAtom.eq
  cases k <;> simp [PyAtom.num?]

def ruleKeys : List String := ["name", "on_violation", "require", "when"]

/-- Every key of the mapping is one of these strings. -/
def KeysWithin (d : PyDict) (allowed : List String) : Prop :=
  ∀ k ∈ keysOf d, ∃ s ∈ allowed, k = .str s

theorem getKey_mem {V : Type} {d : List (PyAtom × V)} {k : String} {v : V}
    (h : getKey d k = some v) : (.str k, v) ∈ d := by
  obtain ⟨e, he, rfl⟩ := Option.map_eq_some_iff.mp h
  have hk : e.1.eq (.str k) = true := List.find?_some (p := fun p : PyAtom × V => p.1.eq (.str k)) he
  rw [← PyAtom.eq_str.mp hk]
  exact List.mem_of_find?_eq_some he

theorem KeysWithin.getKey {d : PyDict} {allowed : List String} (h : KeysWithin d allowed)
    {k : String} {v : PyVal} (hk : getKey d k = some v) : k ∈ allowed := by
  obtain ⟨s, hs, heq⟩ := h _ (List.mem_map_of_mem (getKey_mem hk))
  exact PyAtom.str.inj heq ▸ hs

theorem extraKeys_nil {d : PyDict} {allowed : List String} :
    extraKeys d allowed = [] ↔ KeysWithin d allowed := by
  simp [extraKeys, KeysWithin, List.filter_eq_nil_iff, PyAtom.eq_str]

section

variable {py : Stdlib}

theorem rejectExtras_ok {d : PyDict} {allowed : List String} {place : Except PyErr String}
    {msg : String → String → String} :
    rejectExtras py d allowed place msg = .ok () ↔ KeysWithin d allowed := by
  rw [← extraKeys_nil, rejectExtras]
  cases extraKeys d allowed with
  | nil => simp
  | cons k ks =>
    simp only [bind_ok, reduceCtorEq, and_false, exists_false]

theorem asMapping_ok {v : PyVal} {e : PyErr} {d : PyDict} :
    asMapping v e = .ok d ↔ v = .dict d := by
  unfold asMapping
  split <;> simp_all

theorem asNonEmptyStr_ok {v : PyVal} {e : PyErr} {s : String} :
    asNonEmptyStr v e = .ok s ↔ v = .str s ∧ s ≠ "" := by
  unfold asNonEmptyStr
  split
  · next t =>
    by_cases h : t = ""
    · rw [if_pos h]
      simp only [reduceCtorEq, PyVal.atom.injEq, PyAtom.str.injEq, false_iff, not_and, not_not]
      exact fun hs => hs ▸ h
    · rw [if_neg h]
      simp only [Except.ok.injEq, PyVal.atom.injEq, PyAtom.str.injEq]
      exact ⟨fun hs => ⟨hs, hs ▸ h⟩, And.left⟩
  · next hns =>
    simp only [reduceCtorEq, false_iff, not_and]
    exact fun hs => absurd hs (hns s)

/-- A mapping value that is not falsy, or the empty one in place of a falsy value. -/
theorem pyOr_dict {v : PyVal} {d : PyDict} :
    pyOr v (.dict []) = .dict d ↔ v = .dict d ∨ v.truthy = false ∧ d = [] := by
  unfold pyOr
  by_cases h : v.truthy = true
  · rw [if_pos h]
    simp [h]
  · rw [if_neg h]
    simp only [PyVal.dict.injEq, Bool.not_eq_true] at h ⊢
    refine ⟨fun hd => .inr ⟨h, hd.symm⟩, ?_⟩
    rintro (rfl | ⟨-, rfl⟩)
    · simpa [PyVal.truthy] using h.symm
    · rfl

theorem getOrNone_eq {d : PyDict} {k : String} {v : PyVal} (hv : v ≠ .none) :
    getOrNone d k = v ↔ getKey d k = some v := by
  unfold getOrNone
  cases getKey d k with
  | none => simpa using fun h => hv h.symm
  | some w => simp

/-! ## Entries -/

/-- A dotted path has a root of the domain; nothing is asked of other keys. -/
def RootAllowed (roots : List String) (path : PyAtom) : Prop :=
  ∀ s, path = .str s → '.' ∈ s.toList → beforeDot s ∈ roots

/-- A key of `when` or `require`: dotted, with a root of the domain. -/
def PathKey (roots : List String) (k : PyAtom) : Prop :=
  ∃ s, k = .str s ∧ '.' ∈ s.toList ∧ beforeDot s ∈ roots

instance (roots : List String) (k : PyAtom) : Decidable (PathKey roots k) :=
  match k with
  | .str s => decidable_of_iff ('.' ∈ s.toList ∧ beforeDot s ∈ roots) (by simp [PathKey])
  | .none | .bool _ | .int _ | .float _ | .date _ => isFalse (by simp [PathKey])

theorem validatePathRoot_ok {path : PyAtom} {roots : List String} {place : String} :
    validatePathRoot py path roots place = .ok () ↔ RootAllowed roots path := by
  unfold validatePathRoot RootAllowed
  split
  · simp only [raiseIf_ok, not_and, not_not, PyAtom.str.injEq]
    exact ⟨fun h s hs => hs ▸ h, fun h => h _ rfl⟩
  · next hns => simpa using fun s hs => absurd hs (hns s)

/-- What is asked of the operand of each operator. -/
def Operator.Accepts (py : Stdlib) : Operator → PyVal → Prop
  | .isIn, v => v.isList = true
  | .notIn, v => v.isList = true
  | .notOlderThan, v => ∃ n, parseDuration py v "" = .ok n
  | .matchesPattern, v => v.isStr = true
  | .notMatchesPattern, v => v.isStr = true
  | .lengthAtMost, v => v.isNonNegInt = true

/-- A mapping under `when`: at most `in`, of a list. -/
def WhenMapping (expected : PyVal) : Prop :=
  ∀ d, expected = .dict d → KeysWithin d ["in"] ∧ ∀ v, getKey d "in" = some v → v.isList = true

/-- A mapping under `require`: known operators, with operands they accept. -/
def RequireMapping (py : Stdlib) (constraint : PyVal) : Prop :=
  ∀ d, constraint = .dict d → KeysWithin d knownRequireOperators ∧
    ∀ (op : Operator) (v : PyVal), getKey d op.key = some v → op.Accepts py v

/-- The path can be written wherever a duration stands under it. -/
def PlaceWritten (entry : PyAtom × PyVal) : Prop :=
  ∀ d, entry.2 = .dict d → ∀ v, getKey d "not_older_than" = some v → entry.1.printable = true

theorem any_not {o : Option PyVal} {p : PyVal → Bool} :
    ¬ (o.any fun v => ! p v) = true ↔ ∀ v, o = some v → p v = true := by
  cases o <;> simp

theorem validateWhenEntry_ok {place : String} {roots : List String} {entry : PyAtom × PyVal} :
    validateWhenEntry py place roots entry = .ok () ↔
      RootAllowed roots entry.1 ∧ WhenMapping entry.2 := by
  unfold validateWhenEntry WhenMapping
  rw [seq_ok, validatePathRoot_ok]
  refine and_congr_right fun _ => ?_
  split
  · next d heq =>
    simp only [seq_ok, rejectExtras_ok, raiseIf_ok, any_not, heq, PyVal.dict.injEq, forall_eq']
  · next hnd => simpa using fun d hd => absurd hd (hnd d)

theorem parseDuration_ok (v : PyVal) (p q : String) {n : ℤ} :
    parseDuration py v p = .ok n ↔ parseDuration py v q = .ok n := by
  unfold parseDuration
  split
  · split <;> simp
  · simp

theorem entryPlace_ok {place : String} {path : PyAtom} :
    (∃ here, entryPlace py place path = .ok here) ↔ path.printable = true := by
  have h : printable (.atom path) = path.printable := by simp only [printable]
  unfold entryPlace Stdlib.formatOf
  rw [h]
  split_ifs with hp <;> simp [Except.map, hp]

theorem validateDuration_ok {d : PyDict} {place : Except PyErr String} :
    validateDuration py d place = .ok () ↔ ∀ v, getKey d "not_older_than" = some v →
      (∃ here, place = .ok here) ∧ ∃ n, parseDuration py v "" = .ok n := by
  unfold validateDuration
  cases getKey d "not_older_than" with
  | none => simp
  | some v =>
    simp only [Option.some.injEq, forall_eq']
    rw [bind_ok]
    constructor
    · rintro ⟨here, hp, h⟩
      obtain ⟨n, hn, -⟩ := map_ok.mp h
      exact ⟨⟨here, hp⟩, n, (parseDuration_ok v _ _).mp hn⟩
    · rintro ⟨⟨here, hp⟩, n, hn⟩
      exact ⟨here, hp, map_ok.mpr ⟨n, (parseDuration_ok v _ _).mp hn, rfl⟩⟩

theorem validateRequireEntry_ok {place : String} {roots : List String}
    {entry : PyAtom × PyVal} :
    validateRequireEntry py place roots entry = .ok () ↔
      RootAllowed roots entry.1 ∧ RequireMapping py entry.2 ∧ PlaceWritten entry := by
  unfold validateRequireEntry RequireMapping PlaceWritten
  rw [seq_ok, validatePathRoot_ok]
  refine and_congr_right fun _ => ?_
  split
  · next d heq =>
    simp only [seq_ok, rejectExtras_ok, raiseIf_ok, any_not, validateDuration_ok, checkAll_ok, heq,
      PyVal.dict.injEq, forall_eq', List.forall_mem_cons, List.not_mem_nil, false_imp_iff,
      implies_true, and_true, entryPlace_ok, and_assoc]
    refine and_congr_right fun _ => ?_
    constructor
    · rintro ⟨h1, h2, h3, h4, h5, h6⟩
      refine ⟨fun op v hv => ?_, fun v hv => (h3 v hv).1⟩
      cases op with
      | isIn => exact h1 v hv
      | notIn => exact h2 v hv
      | notOlderThan => exact (h3 v hv).2
      | matchesPattern => exact h4 v hv
      | notMatchesPattern => exact h5 v hv
      | lengthAtMost => exact h6 v hv
    · rintro ⟨h, hplace⟩
      exact ⟨h .isIn, h .notIn, fun v hv => ⟨hplace v hv, h .notOlderThan v hv⟩,
        h .matchesPattern, h .notMatchesPattern, h .lengthAtMost⟩
  · next hnd =>
    simp only [true_iff]
    exact ⟨fun d hd => absurd hd (hnd d), fun d hd => absurd hd (hnd d)⟩

/-! ## Rules -/

theorem checkNoReservedKeys_ok {d : PyDict} {place : String} :
    checkNoReservedKeys py d place = .ok () ↔
      ∀ k ∈ keysOf d, ∀ s ∈ reservedRuleKeys, k ≠ .str s := by
  unfold checkNoReservedKeys
  rw [checkAll_ok]
  simp [PyAtom.eq_str]

/-- No key of the mapping is reserved. -/
def Flat (d : PyDict) : Prop := ∀ k ∈ keysOf d, ∀ s ∈ reservedRuleKeys, k ≠ .str s

theorem KeysWithin.flat {d : PyDict} (h : KeysWithin d ruleKeys) : Flat d := by
  intro k hk s hs heq
  obtain ⟨t, ht, rfl⟩ := h k hk
  obtain rfl := PyAtom.str.inj heq
  exact (by decide : ∀ t ∈ ruleKeys, t ∉ reservedRuleKeys) t ht hs

/-- All that `_validate_rule` checks, and the rule it returns. -/
structure RuleChecked (py : Stdlib) (roots : List String) (d : PyDict) (r : Rule) : Prop where
  name : getKey d "name" = some (.str r.name)
  name_ne : r.name ≠ ""
  keys : KeysWithin d ruleKeys
  when : pyOr (getOrNone d "when") (.dict []) = .dict r.when
  when_flat : Flat r.when
  when_entries : ∀ e ∈ r.when, RootAllowed roots e.1 ∧ WhenMapping e.2
  require : pyOr (getOrNone d "require") (.dict []) = .dict r.require
  require_flat : Flat r.require
  require_entries : ∀ e ∈ r.require, RootAllowed roots e.1 ∧ RequireMapping py e.2
  require_places : ∀ e ∈ r.require, PlaceWritten e
  onViolation : r.onViolation = (getKey d "on_violation").getD (.str "deny")
  deny : r.onViolation.eq (.str "deny") = true

theorem validateRule_ok {rule : PyVal} {idx : ℕ} {source : String} {roots : List String}
    {r : Rule} :
    validateRule py rule idx source roots = .ok r ↔ ∃ d, rule = .dict d ∧ RuleChecked py roots d r := by
  constructor
  · intro h
    rw [validateRule, bind_ok] at h
    obtain ⟨d, hd, h⟩ := h
    obtain rfl := asMapping_ok.mp hd
    obtain ⟨name, hname, h⟩ := bind_ok.mp h
    obtain ⟨hname, hne⟩ := asNonEmptyStr_ok.mp hname
    obtain ⟨-, h⟩ := seq_ok.mp h
    obtain ⟨hkeys, h⟩ := seq_ok.mp h
    obtain ⟨conditions, hw, h⟩ := bind_ok.mp h
    obtain ⟨hwf, h⟩ := seq_ok.mp h
    obtain ⟨hwe, h⟩ := seq_ok.mp h
    obtain ⟨require, hr, h⟩ := bind_ok.mp h
    obtain ⟨hrf, h⟩ := seq_ok.mp h
    obtain ⟨hre, h⟩ := seq_ok.mp h
    obtain ⟨hdeny, h⟩ := seq_ok.mp h
    obtain rfl := Except.ok.inj h
    have hre := fun e he => validateRequireEntry_ok.mp (checkAll_ok.mp hre e he)
    refine ⟨d, rfl, ?_⟩
    exact {
      name := (getOrNone_eq (by simp)).mp hname
      name_ne := hne
      keys := rejectExtras_ok.mp hkeys
      when := asMapping_ok.mp hw
      when_flat := checkNoReservedKeys_ok.mp hwf
      when_entries := fun e he => validateWhenEntry_ok.mp (checkAll_ok.mp hwe e he)
      require := asMapping_ok.mp hr
      require_flat := checkNoReservedKeys_ok.mp hrf
      require_entries := fun e he => ⟨(hre e he).1, (hre e he).2.1⟩
      require_places := fun e he => (hre e he).2.2
      onViolation := rfl
      deny := not_not.mp ((raiseIf_ok _ _ _).mp hdeny) }
  · rintro ⟨d, rfl, h⟩
    rw [validateRule, bind_ok]
    refine ⟨d, asMapping_ok.mpr rfl, bind_ok.mpr ⟨r.name, asNonEmptyStr_ok.mpr ?_, ?_⟩⟩
    · exact ⟨(getOrNone_eq (by simp)).mpr h.name, h.name_ne⟩
    refine seq_ok.mpr ⟨checkNoReservedKeys_ok.mpr h.keys.flat, ?_⟩
    refine seq_ok.mpr ⟨rejectExtras_ok.mpr h.keys, ?_⟩
    refine bind_ok.mpr ⟨r.when, asMapping_ok.mpr h.when, ?_⟩
    refine seq_ok.mpr ⟨checkNoReservedKeys_ok.mpr h.when_flat, ?_⟩
    refine seq_ok.mpr ⟨checkAll_ok.mpr fun e he => validateWhenEntry_ok.mpr (h.when_entries e he), ?_⟩
    refine bind_ok.mpr ⟨r.require, asMapping_ok.mpr h.require, ?_⟩
    refine seq_ok.mpr ⟨checkNoReservedKeys_ok.mpr h.require_flat, ?_⟩
    refine seq_ok.mpr ⟨checkAll_ok.mpr fun e he => validateRequireEntry_ok.mpr ?_, ?_⟩
    · exact ⟨(h.require_entries e he).1, (h.require_entries e he).2, h.require_places e he⟩
    rw [← h.onViolation]
    refine seq_ok.mpr ⟨(raiseIf_ok _ _ _).mpr (not_not.mpr h.deny), rfl⟩

/-! ## Defaults -/

/-- A default that is written is one of the two words. -/
def DefaultWord (d : PyDict) (k : String) : Prop :=
  ∀ v, getKey d k = some v → v = .str "allow" ∨ v = .str "deny"

theorem readDefault_ok {d : PyDict} {k source : String} :
    (∃ s, readDefault py d k source = .ok s) ↔ DefaultWord d k := by
  unfold readDefault DefaultWord
  cases getKey d k with
  | none => simp
  | some v =>
    simp only [Option.getD_some, Option.some.injEq, forall_eq']
    split
    · next s =>
      by_cases h : s = "allow" ∨ s = "deny"
      · simp [h]
      · simp [h]
    · next hns =>
      simp only [reduceCtorEq, exists_false, false_iff]
      rintro (rfl | rfl) <;> exact hns _ rfl

/-- `defaults`, where it is written at all. -/
def DefaultsShape (v : PyVal) : Prop :=
  v = .none ∨ ∃ d, v = .dict d ∧ KeysWithin d ["policy_version_mismatch", "unknown_metadata"] ∧
    DefaultWord d "unknown_metadata" ∧ DefaultWord d "policy_version_mismatch"

theorem validateDefaults_ok {v : PyVal} {source : String} :
    (∃ dflt, validateDefaults py v source = .ok dflt) ↔ DefaultsShape v := by
  unfold validateDefaults DefaultsShape
  split
  · simp
  · next hv =>
    constructor
    · rintro ⟨dflt, h⟩
      obtain ⟨d, hd, h⟩ := bind_ok.mp h
      obtain ⟨hkeys, h⟩ := seq_ok.mp h
      obtain ⟨u, m, hu, hm⟩ : ∃ u m, readDefault py d "unknown_metadata" source = .ok u ∧
          readDefault py d "policy_version_mismatch" source = .ok m := by
        split_ifs at h
        · obtain ⟨u, hu, h⟩ := bind_ok.mp h
          obtain ⟨m, hm, -⟩ := bind_ok.mp h
          exact ⟨u, m, hu, hm⟩
        · obtain ⟨m, hm, h⟩ := bind_ok.mp h
          obtain ⟨u, hu, -⟩ := bind_ok.mp h
          exact ⟨u, m, hu, hm⟩
      exact .inr ⟨d, asMapping_ok.mp hd, rejectExtras_ok.mp hkeys, readDefault_ok.mp ⟨u, hu⟩,
        readDefault_ok.mp ⟨m, hm⟩⟩
    · rintro (h | ⟨d, hd, hkeys, hu, hm⟩)
      · exact absurd h hv
      obtain ⟨u, hu⟩ := readDefault_ok.mpr hu
      obtain ⟨m, hm⟩ := readDefault_ok.mpr hm
      refine ⟨⟨u, m⟩, bind_ok.mpr ⟨d, asMapping_ok.mpr hd, ?_⟩⟩
      refine seq_ok.mpr ⟨rejectExtras_ok.mpr hkeys, ?_⟩
      split_ifs
      · exact bind_ok.mpr ⟨u, hu, bind_ok.mpr ⟨m, hm, rfl⟩⟩
      · exact bind_ok.mpr ⟨m, hm, bind_ok.mpr ⟨u, hu, rfl⟩⟩

/-! ## One evaluator -/

/-- The rules an evaluator holds are the ones written, each checked. -/
def RulesChecked (py : Stdlib) (roots : List String) (written : List PyVal) (rules : List Rule) :
    Prop :=
  List.Forall₂ (fun v r => ∃ d, v = .dict d ∧ RuleChecked py roots d r) written rules

/-- All that `__init__` checks of a mapping before it takes the hash, and the evaluator it makes. -/
structure BundleChecked (py : Stdlib) (roots : List String) (d : PyDict) (source : String)
    (ev : NativeYaml) : Prop where
  bundle : ev.bundle = d
  origin : ev.source = source
  version : (getOrNone d "version").eq (.int 1) = true
  rules : ∃ written, getKey d "rules" = some (.list written) ∧ RulesChecked py roots written ev.rules
  defaults : validateDefaults py (getOrNone d "defaults") source = .ok ev.defaults
  policyId : getKey d "policy_id" = some (.str ev.policyId)
  policyId_ne : ev.policyId ≠ ""

/-- All that `__init__` checks of a mapping, and the evaluator it makes. -/
structure InitChecked (py : Stdlib) (roots : List String) (d : PyDict) (source : String)
    (ev : NativeYaml) : Prop extends BundleChecked py roots d source ev where
  hash : computePolicyVersionHash py (.dict d) = .ok ev.policyVersionHash

namespace NativeYaml

theorem validateBundle_ok {roots : List String} {d : PyDict} {source : String}
    {rules : List Rule} :
    validateBundle py roots d source = .ok rules ↔
      (getOrNone d "version").eq (.int 1) = true ∧
        ∃ written, getKey d "rules" = some (.list written) ∧
          RulesChecked py roots written rules := by
  unfold validateBundle
  rw [seq_ok, raiseIf_ok, not_not]
  refine and_congr_right fun _ => ?_
  simp only [← getOrNone_eq (v := .list _) (by simp)]
  split
  · next written hw =>
    simp only [hw, PyVal.list.injEq, exists_eq_left', buildAll_ok, validateRule_ok, RulesChecked]
    conv_rhs => rw [← List.zipIdx_map_fst 0 written, List.forall₂_map_left_iff]
  · next hnl => simpa using fun w hw => absurd hw (hnl w)

theorem initWith_ok {hash : Except PyErr String} {roots : List String} {bundle : PyVal}
    {source : String} {ev : NativeYaml} :
    initWith py hash roots bundle source = .ok ev ↔
      ∃ d, bundle = .dict d ∧ BundleChecked py roots d source ev ∧
        hash = .ok ev.policyVersionHash := by
  constructor
  · intro h
    rw [initWith, bind_ok] at h
    obtain ⟨d, hd, h⟩ := h
    obtain ⟨rules, hrules, h⟩ := bind_ok.mp h
    obtain ⟨dflt, hdflt, h⟩ := bind_ok.mp h
    obtain ⟨pid, hpid, h⟩ := bind_ok.mp h
    obtain ⟨hash, hhash, h⟩ := bind_ok.mp h
    obtain rfl := Except.ok.inj h
    obtain ⟨hversion, hwritten⟩ := validateBundle_ok.mp hrules
    obtain ⟨hpid, hne⟩ := asNonEmptyStr_ok.mp hpid
    exact ⟨d, asMapping_ok.mp hd, ⟨rfl, rfl, hversion, hwritten, hdflt,
      (getOrNone_eq (by simp)).mp hpid, hne⟩, hhash⟩
  · rintro ⟨d, rfl, h, hhash⟩
    rw [initWith, bind_ok]
    refine ⟨d, asMapping_ok.mpr rfl, ?_⟩
    refine bind_ok.mpr ⟨ev.rules, validateBundle_ok.mpr ⟨h.version, h.rules⟩, ?_⟩
    refine bind_ok.mpr ⟨ev.defaults, h.defaults, ?_⟩
    refine bind_ok.mpr ⟨ev.policyId, asNonEmptyStr_ok.mpr ⟨?_, h.policyId_ne⟩, ?_⟩
    · exact (getOrNone_eq (by simp)).mpr h.policyId
    refine bind_ok.mpr ⟨ev.policyVersionHash, hhash, ?_⟩
    obtain ⟨rfl, rfl⟩ := And.intro h.bundle h.origin
    rfl

theorem init_ok {roots : List String} {bundle : PyVal} {source : String} {ev : NativeYaml} :
    init py roots bundle source = .ok ev ↔ ∃ d, bundle = .dict d ∧ InitChecked py roots d source ev := by
  rw [init, initWith_ok]
  constructor
  · rintro ⟨d, rfl, h, hhash⟩
    exact ⟨d, rfl, h, hhash⟩
  · rintro ⟨d, rfl, h, hhash⟩
    exact ⟨d, rfl, h, hhash⟩

end NativeYaml

theorem canonicalBytes_ok (py : Stdlib) {v : PyVal} :
    (∃ b, canonicalBytes py v = .ok b) ↔ jsonable v = true := by
  unfold canonicalBytes dumps
  split_ifs with h <;> simp [h, Except.map]

theorem computePolicyVersionHash_ok (py : Stdlib) {v : PyVal} :
    (∃ h, computePolicyVersionHash py v = .ok h) ↔ jsonable v = true := by
  rw [← canonicalBytes_ok py, computePolicyVersionHash]
  cases canonicalBytes py v <;> simp [Except.map]

/-- What an evaluator asks of a bundle before it takes the hash. -/
structure BundleShape (py : Stdlib) (roots : List String) (d : PyDict) : Prop where
  version : (getOrNone d "version").eq (.int 1) = true
  rules : ∃ written, getKey d "rules" = some (.list written) ∧
    ∀ v ∈ written, ∃ m r, v = .dict m ∧ RuleChecked py roots m r
  defaults : DefaultsShape (getOrNone d "defaults")
  policyId : ∃ s, getKey d "policy_id" = some (.str s) ∧ s ≠ ""

theorem rulesChecked_exists {roots : List String} {written : List PyVal} :
    (∃ rules, RulesChecked py roots written rules) ↔
      ∀ v ∈ written, ∃ m r, v = .dict m ∧ RuleChecked py roots m r := by
  unfold RulesChecked
  induction written with
  | nil => exact ⟨fun _ => by simp, fun _ => ⟨[], .nil⟩⟩
  | cons v rest ih =>
    rw [List.forall_mem_cons, ← ih]
    constructor
    · rintro ⟨rules, hr⟩
      cases hr with
      | cons h hs =>
        obtain ⟨m, hm⟩ := h
        exact ⟨⟨m, _, hm⟩, _, hs⟩
    · rintro ⟨⟨m, r, hm⟩, rules, hs⟩
      exact ⟨r :: rules, .cons ⟨m, hm⟩ hs⟩

theorem NativeYaml.initWith_succeeds {hash : Except PyErr String} {roots : List String}
    {bundle : PyVal} {source : String} :
    (∃ ev, initWith py hash roots bundle source = .ok ev) ↔
      ∃ d, bundle = .dict d ∧ BundleShape py roots d ∧ ∃ x, hash = .ok x := by
  simp only [initWith_ok]
  constructor
  · rintro ⟨ev, d, hd, h, hhash⟩
    obtain ⟨written, hw, hr⟩ := h.rules
    exact ⟨d, hd, ⟨h.version, ⟨written, hw, rulesChecked_exists.mp ⟨_, hr⟩⟩,
      validateDefaults_ok.mp ⟨_, h.defaults⟩, ⟨_, h.policyId, h.policyId_ne⟩⟩, _, hhash⟩
  · rintro ⟨d, hd, h, x, hhash⟩
    obtain ⟨written, hw, hr⟩ := h.rules
    obtain ⟨rules, hr⟩ := rulesChecked_exists.mpr hr
    obtain ⟨dflt, hdflt⟩ : ∃ dflt, validateDefaults py (getOrNone d "defaults") source = .ok dflt :=
      validateDefaults_ok.mpr h.defaults
    obtain ⟨pid, hpid, hne⟩ := h.policyId
    exact ⟨⟨source, d, rules, dflt, pid, x⟩, d, hd, ⟨rfl, rfl, h.version, ⟨written, hw, hr⟩,
      hdflt, hpid, hne⟩, hhash⟩

/-! ## One section of a unified file -/

theorem getKey_cons {V : Type} {k l : String} {v : V} {d : List (PyAtom × V)} :
    getKey ((.str k, v) :: d) l = if k = l then some v else getKey d l := by
  rw [getKey, dictGet_cons]
  simp [PyAtom.eq_str, getKey]

theorem getKey_optionalItem {k l : String} {v : PyVal} (h : k ≠ l) :
    getKey (optionalItem k v) l = none := by
  unfold optionalItem
  split
  · rfl
  · rw [getKey_cons, if_neg h]
    rfl

theorem getKey_append {V : Type} {l : String} {d e : List (PyAtom × V)} :
    getKey (d ++ e) l = (getKey d l).or (getKey e l) := by
  unfold getKey dictGet
  rw [List.find?_append]
  cases List.find? (fun p => p.1.eq (.str l)) d <;> simp

/-- An entry that is there or not, as the normalized bundle copies it. -/
theorem getKey_copied {V : Type} {o : Option V} {k l : String} :
    getKey ((o.map fun v => ((.str k, v) : PyAtom × V)).toList) l = if k = l then o else none := by
  cases o with
  | none => simp [getKey, dictGet]
  | some v =>
    simp only [Option.map_some, Option.toList_some, getKey_cons]
    rfl

section

variable {d sec : PyDict}

theorem normalized_version :
    getKey (NativeYaml.normalized d sec) "version" = some ((getKey d "version").getD (.int 1)) := by
  simp [NativeYaml.normalized, getKey_cons]

theorem normalized_rules :
    getKey (NativeYaml.normalized d sec) "rules" = some ((getKey sec "rules").getD (.list [])) := by
  simp [NativeYaml.normalized, getKey_cons]

theorem normalized_defaults :
    getKey (NativeYaml.normalized d sec) "defaults" = getKey sec "defaults" := by
  simp [NativeYaml.normalized, getKey_cons, getKey_append, getKey_copied]

end

namespace NativeYaml

variable {sectionKey : String} {roots : List String} {d : PyDict} {source : String}

theorem constructFromBundle_none (h : getKey d sectionKey = none) :
    constructFromBundle py sectionKey roots (.dict d) source = init py roots (.dict d) source := by
  simp only [constructFromBundle, constructWith, asMapping, bind, Except.bind, h]

theorem constructFromBundle_some {sec : PyDict} (h : getKey d sectionKey = some (.dict sec)) :
    constructFromBundle py sectionKey roots (.dict d) source =
      init py roots (.dict (normalized d sec)) source := by
  simp only [constructFromBundle, constructWith, asMapping, bind, Except.bind, h]

theorem constructFromBundle_ok {block : PyVal} {ev : NativeYaml}
    (hk : getKey d sectionKey = some block)
    (h : constructFromBundle py sectionKey roots (.dict d) source = .ok ev) :
    ∃ sec, block = .dict sec := by
  cases block with
  | dict sec => exact ⟨sec, rfl⟩
  | atom a => simp [constructFromBundle, constructWith, asMapping, bind, Except.bind, hk] at h
  | list xs => simp [constructFromBundle, constructWith, asMapping, bind, Except.bind, hk] at h

end NativeYaml

end

/-! ## A unified file -/

section

variable {Ω : Type} {rt : Runtime Ω}

/-- `verification`, where it is written at all. -/
def VerificationShape (v : PyVal) : Prop :=
  v = .none ∨ ∃ d, v = .dict d ∧ KeysWithin d verificationKeys ∧ ∀ e ∈ d, e.2.bool? ≠ none

theorem parseVerification_ok {v : PyVal} {source : String} :
    (∃ p, parseVerification rt v source = .ok p) ↔ VerificationShape v := by
  unfold parseVerification VerificationShape
  split
  · simp
  · next hv =>
    constructor
    · rintro ⟨p, h⟩
      obtain ⟨d, hd, h⟩ := bind_ok.mp h
      obtain ⟨hkeys, h⟩ := seq_ok.mp h
      obtain ⟨hall, -⟩ := seq_ok.mp h
      refine .inr ⟨d, asMapping_ok.mp hd, rejectExtras_ok.mp hkeys, fun e he => ?_⟩
      exact (raiseIf_ok _ _ _).mp (checkAll_ok.mp hall e he)
    · rintro (h | ⟨d, hd, hkeys, hall⟩)
      · exact absurd h hv
      simp only [bind_ok]
      refine ⟨_, d, asMapping_ok.mpr hd, (), rejectExtras_ok.mpr hkeys, (), ?_, rfl⟩
      exact checkAll_ok.mpr fun e he => (raiseIf_ok _ _ _).mpr (hall e he)

theorem loadSection_ok {construct : PyVal → String → Except PyErr NativeYaml} {d : PyDict}
    {k source : String} {o : Option NativeYaml} :
    loadSection construct d k source = .ok o ↔
      (getOrNone d k = .none ∧ o = none) ∨
        (getOrNone d k ≠ .none ∧ ∃ ev, construct (.dict d) source = .ok ev ∧ o = some ev) := by
  unfold loadSection
  split
  · next h => simp [h, eq_comm]
  · next h =>
    have hne : getOrNone d k ≠ .none := h
    cases construct (.dict d) source with
    | error e => simp [Except.map, hne]
    | ok ev => simp [Except.map, hne, eq_comm]

/-- The evaluator of a section that was loaded. -/
theorem loaded_section {roots : List String} {sectionKey source : String} {d : PyDict} {ev : NativeYaml}
    (h : loadSection (NativeYaml.constructFromBundle rt.toStdlib sectionKey roots) d sectionKey
      source = .ok (some ev)) :
    ∃ sec, getKey d sectionKey = some (.dict sec) ∧
      InitChecked rt.toStdlib roots (NativeYaml.normalized d sec) source ev := by
  rcases loadSection_ok.mp h with ⟨-, heq⟩ | ⟨hne, ev', hev, heq⟩
  · cases heq
  obtain rfl := Option.some.inj heq
  cases hk : getKey d sectionKey with
  | none => exact absurd (by rw [getOrNone, hk]; rfl) hne
  | some block =>
    obtain ⟨sec, rfl⟩ := NativeYaml.constructFromBundle_ok hk hev
    rw [NativeYaml.constructFromBundle_some hk] at hev
    obtain ⟨n, hn, hchecked⟩ := NativeYaml.init_ok.mp hev
    obtain rfl := PyVal.dict.inj hn
    exact ⟨sec, rfl, hchecked⟩

/-- All that `_from_bundle` checks of a mapping, given the two constructors, and what it returns. -/
structure LoadedWith (rt : Runtime Ω)
    (constructAccess constructTool : PyVal → String → Except PyErr NativeYaml) (d : PyDict)
    (source : String) (p : LoadedPolicy) : Prop where
  keys : KeysWithin d unifiedYamlTopKeys
  version : ((getKey d "version").getD (.int 1)).eq (.int 1) = true
  verification : parseVerification rt (getOrNone d "verification") source = .ok p.verification
  accessControl : loadSection constructAccess d "access_control" source = .ok p.accessControl
  toolCallControl : loadSection constructTool d "tool_call_control" source = .ok p.toolCallControl

theorem Policy.fromBundleWith_ok
    {constructAccess constructTool : PyVal → String → Except PyErr NativeYaml} {bundle : PyVal}
    {source : String} {p : LoadedPolicy} :
    Policy.fromBundleWith rt constructAccess constructTool bundle source = .ok p ↔
      ∃ d, bundle = .dict d ∧ LoadedWith rt constructAccess constructTool d source p := by
  constructor
  · intro h
    rw [fromBundleWith, bind_ok] at h
    obtain ⟨d, hd, h⟩ := h
    obtain ⟨hkeys, h⟩ := seq_ok.mp h
    obtain ⟨hversion, h⟩ := seq_ok.mp h
    obtain ⟨v, hv, h⟩ := bind_ok.mp h
    obtain ⟨a, ha, h⟩ := bind_ok.mp h
    obtain ⟨t, ht, h⟩ := bind_ok.mp h
    obtain rfl := Except.ok.inj h
    exact ⟨d, asMapping_ok.mp hd, rejectExtras_ok.mp hkeys,
      not_not.mp ((raiseIf_ok _ _ _).mp hversion), hv, ha, ht⟩
  · rintro ⟨d, rfl, h⟩
    rw [fromBundleWith, bind_ok]
    refine ⟨d, asMapping_ok.mpr rfl, seq_ok.mpr ⟨rejectExtras_ok.mpr h.keys, ?_⟩⟩
    refine seq_ok.mpr ⟨(raiseIf_ok _ _ _).mpr (not_not.mpr h.version), ?_⟩
    exact bind_ok.mpr ⟨_, h.verification, bind_ok.mpr ⟨_, h.accessControl,
      bind_ok.mpr ⟨_, h.toolCallControl, rfl⟩⟩⟩

/-- All that `_from_bundle` checks of a mapping, and what it returns. -/
abbrev Loaded (rt : Runtime Ω) (d : PyDict) (source : String) (p : LoadedPolicy) : Prop :=
  LoadedWith rt (NativeYamlEvaluator.constructFromBundle rt)
    (NativeYamlToolCallEvaluator.constructFromBundle rt) d source p

theorem Policy.fromBundle_ok {bundle : PyVal} {source : String} {p : LoadedPolicy} :
    Policy.fromBundle rt bundle source = .ok p ↔ ∃ d, bundle = .dict d ∧ Loaded rt d source p :=
  fromBundleWith_ok

theorem loadYaml_ok {text source source' : String} {tree : YamlTree}
    (h : loadYaml rt.toStdlib text source = .ok tree) :
    loadYaml rt.toStdlib text source' = .ok tree := by
  unfold loadYaml at h ⊢
  split_ifs at h ⊢
  cases hs : rt.safeLoad text with
  | ok tree => simpa [hs] using h
  | error e => cases e <;> simp [hs] at h

end

end Provenex
