import Provenex.Proofs.Trees

/-! Which faults of a file are reported. The loaders check one thing after another and report the
first fault they meet. A fault is reported badly where its message cannot be written, where a
duration has too many digits, and where a section that is in order cannot be hashed: `FileReports`
says that none of these is the first one met. -/

namespace Provenex

open Guard

/-- One of the two errors that a loader raises on purpose. -/
def IsPolicyError (e : PyErr) : Prop := e.isPolicyError = true

theorem policyMessage_none {e : PyErr} : e.policyMessage = none ↔ ¬ IsPolicyError e := by
  cases e <;> simp [PyErr.policyMessage, IsPolicyError, PyErr.isPolicyError]

section

variable {py : Stdlib} {roots : List String} {source place : String}

theorem policyCheck {c : Prop} [Decidable c] {msg : String} :
    OnlyRaises IsPolicyError (raiseIf c (.policyParseError msg)) := by
  refine .raiseIf c ?_
  rfl

theorem policyMapping {v : PyVal} {msg : String} :
    OnlyRaises IsPolicyError (asMapping v (.policyParseError msg)) := by
  unfold asMapping
  split
  · exact .ok _
  · exact .error rfl

theorem policyName {v : PyVal} {msg : String} :
    OnlyRaises IsPolicyError (asNonEmptyStr v (.policyParseError msg)) := by
  unfold asNonEmptyStr
  split
  · split_ifs
    · exact .error rfl
    · exact .ok _
  · exact .error rfl

theorem checkNoReservedKeys_raises {d : PyDict} :
    OnlyRaises IsPolicyError (checkNoReservedKeys py d place) :=
  .checkAll fun _ _ => .raiseIf _ rfl

theorem validatePathRoot_raises {path : PyAtom} :
    OnlyRaises IsPolicyError (validatePathRoot py path roots place) := by
  unfold validatePathRoot
  split
  · exact policyCheck
  · exact .ok ()

/-! ## Messages -/

/-- The unknown keys can be sorted and written. -/
def Listable (d : PyDict) (allowed : List String) : Prop :=
  sortable (extraKeys d allowed) = true ∧ ∀ k ∈ extraKeys d allowed, k.printable = true

theorem Listable.within {d : PyDict} {allowed : List String} (h : KeysWithin d allowed) :
    Listable d allowed := by
  rw [Listable, extraKeys_nil.mpr h]
  exact ⟨rfl, by simp⟩

theorem reprOf_ok {v : PyVal} : (∃ s, py.reprOf v = .ok s) ↔ printable v = true := by
  unfold Stdlib.reprOf
  split_ifs with h <;> simp [h]

/-- Writing a value raises no policy error. -/
theorem reprOf_error {v : PyVal} {e : PyErr} (h : py.reprOf v = .error e) : ¬ IsPolicyError e := by
  unfold Stdlib.reprOf at h
  split_ifs at h
  obtain rfl := Except.error.inj h
  exact Bool.false_ne_true

theorem sortedRepr_ok {keys : List PyAtom} : (∃ s, sortedRepr py keys = .ok s) ↔
    sortable keys = true ∧ ∀ k ∈ keys, k.printable = true := by
  unfold sortedRepr
  split_ifs with hs
  · rw [reprOf_ok, printable, printableList_iff, and_iff_right hs]
    simp [List.mem_insertionSort, printable]
  · simp [hs]

theorem sortedRepr_error {keys : List PyAtom} {e : PyErr} (h : sortedRepr py keys = .error e) :
    ¬ IsPolicyError e := by
  unfold sortedRepr at h
  split_ifs at h
  · exact reprOf_error h
  · obtain rfl := Except.error.inj h
    exact Bool.false_ne_true

theorem rejectExtras_reports {d : PyDict} {allowed : List String} {here : Except PyErr String}
    {msg : String → String → String} (hp : ∀ e, here = .error e → ¬ IsPolicyError e) :
    OnlyRaises IsPolicyError (rejectExtras py d allowed here msg) ↔
      Listable d allowed ∧ (¬ KeysWithin d allowed → ∃ s, here = .ok s) := by
  rw [Listable, ← extraKeys_nil, rejectExtras]
  cases extraKeys d allowed with
  | nil => exact iff_of_true (.ok ()) ⟨⟨rfl, by simp⟩, fun h => absurd rfl h⟩
  | cons k ks =>
    simp only [reduceCtorEq, not_false_eq_true, forall_const]
    rw [onlyRaises_bind, onlyRaises_returns hp, ← @sortedRepr_ok py, and_comm]
    refine and_congr_left fun hwritten => ?_
    obtain ⟨s, hs⟩ := hwritten
    rw [← onlyRaises_returns fun e => sortedRepr_error]
    constructor
    · intro h
      exact (onlyRaises_bind.mp (h s hs)).1
    · intro h t _
      exact h.bind fun _ _ => .error rfl

theorem rejectExtras_listed {d : PyDict} {allowed : List String} {here : String}
    {msg : String → String → String} :
    OnlyRaises IsPolicyError (rejectExtras py d allowed (.ok here) msg) ↔ Listable d allowed := by
  have hok (e : PyErr) (h : (.ok here : Except PyErr String) = .error e) : ¬ IsPolicyError e := by
    cases h
  rw [rejectExtras_reports hok]
  exact and_iff_left fun _ => ⟨here, rfl⟩

/-- A check whose message holds the text of a value. -/
theorem reprCheck_reports {c : Prop} [Decidable c] {v : PyVal} {msg : String → String} :
    OnlyRaises IsPolicyError (raiseIf c (raised ((py.reprOf v).map fun got =>
      .policyParseError (msg got)))) ↔ (c → printable v = true) := by
  have hmsg (got : String) : IsPolicyError (.policyParseError (msg got)) := rfl
  rw [onlyRaises_raiseIf, ← @reprOf_ok py, ← onlyRaises_returns fun _ => reprOf_error]
  exact imp_congr_right fun _ => raised_iff hmsg

theorem reprCheck_reports_at {c : Prop} [Decidable c] {v : PyVal} {here : String}
    {msg : String → String → String} :
    OnlyRaises IsPolicyError (raiseIf c (raised ((do
      let here ← (.ok here : Except PyErr String)
      let got ← py.reprOf v
      .ok (msg here got)).map PyErr.policyParseError))) ↔ (c → printable v = true) := by
  have hmap : (do
      let here ← (.ok here : Except PyErr String)
      let got ← py.reprOf v
      .ok (msg here got)).map PyErr.policyParseError =
        (py.reprOf v).map fun got => .policyParseError (msg here got) := by
    cases py.reprOf v <;> rfl
  rw [hmap, reprCheck_reports]

theorem entryPlace_unwritten {path : PyAtom} (h : path.printable = false) :
    entryPlace py place path = .error (.valueError none) := by
  have hp : printable (.atom path) = false := by rw [printable, h]
  rw [entryPlace, Stdlib.formatOf, hp]
  rfl

/-- A check under a path that cannot be written. -/
theorem unwrittenCheck {c : Prop} [Decidable c] {α : Type} {f : α → PyErr} :
    OnlyRaises (¬ IsPolicyError ·)
      (raiseIf c (raised ((.error (.valueError none) : Except PyErr α).map f))) :=
  .raiseIf c Bool.false_ne_true

theorem unwrittenExtras {d : PyDict} {allowed : List String} {msg : String → String → String} :
    OnlyRaises (¬ IsPolicyError ·)
      (rejectExtras py d allowed (.error (.valueError none)) msg) := by
  unfold rejectExtras
  split
  · exact .ok ()
  · exact .error Bool.false_ne_true

/-! ## Entries -/

def ShortDuration (py : Stdlib) (v : PyVal) : Prop :=
  ∀ s digits unit, v = .str s → matchDuration py s = some (digits, unit) →
    digits.length ≤ maxIntDigits

theorem parseDuration_reports {v : PyVal} :
    OnlyRaises IsPolicyError (parseDuration py v place) ↔ ShortDuration py v := by
  constructor
  · intro h s digits unit hv hm
    subst hv
    by_contra hlong
    simp only [parseDuration, hm, intOfDigits, if_pos (Nat.lt_of_not_le hlong)] at h
    cases h _ rfl
  · intro h
    unfold parseDuration
    split
    · next s =>
      split
      · next digits unit hm =>
        unfold intOfDigits
        rw [if_neg (Nat.not_lt.mpr (h s digits unit rfl hm))]
        exact .ok _
      · exact .error rfl
    · exact .error rfl

def WhenOk (roots : List String) (e : PyAtom × PyVal) : Prop :=
  RootAllowed roots e.1 ∧ WhenMapping e.2

def RequireOk (py : Stdlib) (roots : List String) (e : PyAtom × PyVal) : Prop :=
  RootAllowed roots e.1 ∧ RequireMapping py e.2 ∧ PlaceWritten e

/-- A path that cannot be written stands over a mapping that is in order. -/
def WhenEntryReports (roots : List String) (e : PyAtom × PyVal) : Prop :=
  RootAllowed roots e.1 → ∀ m, e.2 = .dict m → Listable m ["in"] ∧
    (e.1.printable = false → KeysWithin m ["in"] ∧ ∀ v, getKey m "in" = some v → v.isList = true)

/-- What stands under `in` and `not_in` is a list. -/
def ListOperands (m : PyDict) : Prop :=
  ∀ k ∈ ["in", "not_in"], ∀ v, getKey m k = some v → v.isList = true

def PatternOperands (m : PyDict) : Prop :=
  ∀ k ∈ ["matches_pattern", "not_matches_pattern"], ∀ v, getKey m k = some v → v.isStr = true

def DurationOperand (py : Stdlib) (m : PyDict) : Prop :=
  ∀ v, getKey m "not_older_than" = some v → ∃ n, parseDuration py v "" = .ok n

def LimitOperand (m : PyDict) : Prop := ∀ v, getKey m "length_at_most" = some v → v.isNonNegInt = true

/-- The duration is looked at where the operators are known and the lists are lists, the limit is
written where all other operands are in order. -/
structure ConstraintReports (py : Stdlib) (m : PyDict) : Prop where
  keys : Listable m knownRequireOperators
  duration : KeysWithin m knownRequireOperators → ListOperands m →
    ∀ v, getKey m "not_older_than" = some v → ShortDuration py v
  limit : KeysWithin m knownRequireOperators → ListOperands m → DurationOperand py m →
    PatternOperands m → ¬ LimitOperand m → printable (getOrNone m "length_at_most") = true

/-- A path that cannot be written stands over a mapping that is in order and without a duration. -/
def RequireEntryReports (py : Stdlib) (roots : List String) (e : PyAtom × PyVal) : Prop :=
  RootAllowed roots e.1 → ∀ m, e.2 = .dict m → ConstraintReports py m ∧
    (e.1.printable = false → RequireMapping py e.2 ∧ getKey m "not_older_than" = none)

theorem validateWhenEntry_unwritten {entry : PyAtom × PyVal} (hroot : RootAllowed roots entry.1)
    (hw : entry.1.printable = false) :
    OnlyRaises (¬ IsPolicyError ·) (validateWhenEntry py place roots entry) := by
  unfold validateWhenEntry
  rw [validatePathRoot_ok.mpr hroot, entryPlace_unwritten hw]
  refine .seq (.ok ()) fun _ => ?_
  split
  · exact .seq unwrittenExtras fun _ => unwrittenCheck
  · exact .ok ()

theorem validateWhenEntry_reports {entry : PyAtom × PyVal} :
    OnlyRaises IsPolicyError (validateWhenEntry py place roots entry) ↔
      WhenEntryReports roots entry := by
  by_cases hroot : RootAllowed roots entry.1
  · rw [WhenEntryReports, forall_prop_of_true hroot]
    cases hw : entry.1.printable with
    | false =>
      rw [onlyRaises_passes (validateWhenEntry_unwritten hroot hw), validateWhenEntry_ok,
        and_iff_right hroot, WhenMapping]
      exact forall₂_congr fun m _ => ⟨fun h => ⟨.within h.1, fun _ => h⟩, fun h => h.2 rfl⟩
    | true =>
      obtain ⟨here, hplace⟩ : ∃ here, entryPlace py (place ++ " when") entry.1 = .ok here :=
        entryPlace_ok.mpr hw
      unfold validateWhenEntry
      rw [hplace, onlyRaises_afterCheck validatePathRoot_raises, validatePathRoot_ok,
        forall_prop_of_true hroot]
      split
      · next m hm =>
        rw [onlyRaises_seq, rejectExtras_listed]
        simp only [hm, PyVal.dict.injEq, forall_eq']
        exact and_congr_right fun _ => iff_of_true (fun _ => policyCheck) (by simp)
      · next hnot => exact iff_of_true (.ok ()) fun m hm => absurd hm (hnot m)
  · refine iff_of_true ?_ fun h => absurd h hroot
    exact (onlyRaises_afterCheck validatePathRoot_raises).mpr fun h =>
      absurd (validatePathRoot_ok.mp h) hroot

theorem validateDuration_reports {d : PyDict} {here : String} :
    OnlyRaises IsPolicyError (validateDuration py d (.ok here)) ↔
      ∀ v, getKey d "not_older_than" = some v → ShortDuration py v := by
  unfold validateDuration
  cases getKey d "not_older_than" with
  | none => exact iff_of_true (.ok ()) nofun
  | some v =>
    simp only [bind, Except.bind, Option.some.injEq, forall_eq']
    rw [onlyRaises_map, parseDuration_reports]

theorem requireMapping_iff {m : PyDict} : RequireMapping py (.dict m) ↔
    KeysWithin m knownRequireOperators ∧ ListOperands m ∧ DurationOperand py m ∧
      PatternOperands m ∧ LimitOperand m := by
  simp only [RequireMapping, PyVal.dict.injEq, forall_eq', ListOperands, PatternOperands,
    List.forall_mem_cons, List.not_mem_nil, false_imp_iff, implies_true, and_true]
  refine and_congr_right fun _ => ⟨fun h => ?_, fun ⟨h1, h2, h3, h4⟩ op v hv => ?_⟩
  · exact ⟨⟨h .isIn, h .notIn⟩, h .notOlderThan, ⟨h .matchesPattern, h .notMatchesPattern⟩,
      h .lengthAtMost⟩
  · cases op with
    | isIn => exact h1.1 v hv
    | notIn => exact h1.2 v hv
    | notOlderThan => exact h2 v hv
    | matchesPattern => exact h3.1 v hv
    | notMatchesPattern => exact h3.2 v hv
    | lengthAtMost => exact h4 v hv

theorem validateRequireEntry_unwritten {entry : PyAtom × PyVal} (hroot : RootAllowed roots entry.1)
    (hw : entry.1.printable = false) :
    OnlyRaises (¬ IsPolicyError ·) (validateRequireEntry py place roots entry) := by
  unfold validateRequireEntry
  rw [validatePathRoot_ok.mpr hroot, entryPlace_unwritten hw]
  refine .seq (.ok ()) fun _ => ?_
  split
  · refine .seq unwrittenExtras fun _ => .seq unwrittenCheck fun _ => .seq unwrittenCheck fun _ => ?_
    refine .seq ?_ fun _ => .seq (.checkAll fun _ _ => unwrittenCheck) fun _ => unwrittenCheck
    unfold validateDuration
    split
    · exact .error Bool.false_ne_true
    · exact .ok ()
  · exact .ok ()

theorem validateRequireEntry_reports_unwritten {entry : PyAtom × PyVal}
    (hroot : RootAllowed roots entry.1) (hw : entry.1.printable = false) :
    OnlyRaises IsPolicyError (validateRequireEntry py place roots entry) ↔
      RequireEntryReports py roots entry := by
  rw [RequireEntryReports, forall_prop_of_true hroot,
    onlyRaises_passes (validateRequireEntry_unwritten hroot hw), validateRequireEntry_ok,
    and_iff_right hroot]
  constructor
  · rintro ⟨hmapping, hplace⟩ m hm
    have hnone : getKey m "not_older_than" = none := by
      refine Option.eq_none_iff_forall_ne_some.mpr fun v hv => ?_
      rw [hplace m hm v hv] at hw
      cases hw
    obtain ⟨hkeys, -, -, -, hlimit⟩ := requireMapping_iff.mp (hm ▸ hmapping)
    refine ⟨⟨.within hkeys, fun _ _ v hv => ?_, fun _ _ _ _ h => absurd hlimit h⟩,
      fun _ => ⟨hmapping, hnone⟩⟩
    rw [hnone] at hv
    cases hv
  · intro h
    refine ⟨fun m hm => ((h m hm).2 hw).1 m hm, fun m hm v hv => ?_⟩
    rw [((h m hm).2 hw).2] at hv
    cases hv

theorem validateRequireEntry_reports_written {entry : PyAtom × PyVal}
    (hroot : RootAllowed roots entry.1) (hw : entry.1.printable = true) :
    OnlyRaises IsPolicyError (validateRequireEntry py place roots entry) ↔
      RequireEntryReports py roots entry := by
  rw [RequireEntryReports, forall_prop_of_true hroot, hw]
  obtain ⟨here, hplace⟩ : ∃ here, entryPlace py (place ++ " require") entry.1 = .ok here :=
    entryPlace_ok.mpr hw
  unfold validateRequireEntry
  rw [hplace, onlyRaises_afterCheck validatePathRoot_raises, validatePathRoot_ok,
    forall_prop_of_true hroot]
  split
  · next m hm =>
    have hcheck {c : Prop} [Decidable c] {f : String → String} : OnlyRaises IsPolicyError
        (raiseIf c (raised ((.ok here : Except PyErr String).map fun here =>
          .policyParseError (f here)))) := policyCheck
    rw [onlyRaises_seq, rejectExtras_listed, rejectExtras_ok, onlyRaises_afterCheck hcheck,
      onlyRaises_afterCheck hcheck, raiseIf_ok, any_not, raiseIf_ok, any_not, onlyRaises_seq,
      validateDuration_reports, validateDuration_ok,
      onlyRaises_afterCheck (.checkAll fun _ _ => hcheck), checkAll_ok]
    simp only [hm, PyVal.dict.injEq, forall_eq', raiseIf_ok, any_not]
    have hlimit : OnlyRaises IsPolicyError (raiseIf ((getKey m "length_at_most").any fun v =>
        ! v.isNonNegInt) (raised ((do
          let here ← (.ok here : Except PyErr String)
          let got ← py.reprOf (getOrNone m "length_at_most")
          .ok (here ++ ".length_at_most must be a non-negative integer (got " ++ got ++ ")")).map
            PyErr.policyParseError))) ↔
        (¬ LimitOperand m → printable (getOrNone m "length_at_most") = true) := by
      rw [reprCheck_reports_at, LimitOperand, ← any_not, not_not]
    rw [hlimit]
    constructor
    · rintro ⟨hkeys, h⟩
      have hlists (hk : KeysWithin m knownRequireOperators) (hl : ListOperands m) :=
        h hk (hl "in" (by simp)) (hl "not_in" (by simp))
      refine ⟨⟨hkeys, fun hk hl => (hlists hk hl).1, fun hk hl hd hp => ?_⟩, by simp⟩
      exact (hlists hk hl).2 (fun v hv => ⟨⟨here, rfl⟩, hd v hv⟩) hp
    · rintro ⟨h, -⟩
      refine ⟨h.keys, fun hk hin hnot => ?_⟩
      have hl : ListOperands m := by
        simpa [ListOperands] using ⟨hin, hnot⟩
      exact ⟨h.duration hk hl, fun hd hp => h.limit hk hl (fun v hv => (hd v hv).2) hp⟩
  · next hnot => exact iff_of_true (.ok ()) fun m hm => absurd hm (hnot m)

theorem validateRequireEntry_reports {entry : PyAtom × PyVal} :
    OnlyRaises IsPolicyError (validateRequireEntry py place roots entry) ↔
      RequireEntryReports py roots entry := by
  by_cases hroot : RootAllowed roots entry.1
  · cases hw : entry.1.printable with
    | false => exact validateRequireEntry_reports_unwritten hroot hw
    | true => exact validateRequireEntry_reports_written hroot hw
  · refine iff_of_true ?_ fun h => absurd h hroot
    exact (onlyRaises_afterCheck validatePathRoot_raises).mpr fun h =>
      absurd (validatePathRoot_ok.mp h) hroot

/-! ## Rules -/

/-- The mapping under a key is reported on entry by entry, up to the first that is not in order;
what comes `after` matters where all are. -/
def PathsReport (entryReports entryOk : PyAtom × PyVal → Prop) (d : PyDict) (k : String)
    (after : Prop) : Prop :=
  ∀ m, pyOr (getOrNone d k) (.dict []) = .dict m → Flat m →
    AllReached entryReports entryOk m ∧ ((∀ e ∈ m, entryOk e) → after)

def ViolationReports (d : PyDict) : Prop :=
  ¬ ((getKey d "on_violation").getD (.str "deny")).eq (.str "deny") →
    printable ((getKey d "on_violation").getD (.str "deny")) = true

/-- A rule is looked into where it is a mapping with a name and no reserved key. -/
def RuleReports (py : Stdlib) (roots : List String) (v : PyVal) : Prop :=
  ∀ d, v = .dict d → (∃ s, getKey d "name" = some (.str s) ∧ s ≠ "") → Flat d →
    Listable d ruleKeys ∧ (KeysWithin d ruleKeys →
      PathsReport (WhenEntryReports roots) (WhenOk roots) d "when"
        (PathsReport (RequireEntryReports py roots) (RequireOk py roots) d "require"
          (ViolationReports d)))

def RuleOk (py : Stdlib) (roots : List String) (v : PyVal) : Prop :=
  ∃ m r, v = .dict m ∧ RuleChecked py roots m r

/-- The loop over the entries of one mapping, and what is done after it. -/
theorem entries_report {m : PyDict} {entryReports entryOk : PyAtom × PyVal → Prop} {after : Prop}
    {check : PyAtom × PyVal → Except PyErr Unit} {rest : Except PyErr Rule}
    (hreports : ∀ e, OnlyRaises IsPolicyError (check e) ↔ entryReports e)
    (hok : ∀ e, check e = .ok () ↔ entryOk e) (hrest : OnlyRaises IsPolicyError rest ↔ after) :
    OnlyRaises IsPolicyError (checkNoReservedKeys py m place >>= fun _ =>
        checkAll m check >>= fun _ => rest) ↔
      (Flat m → AllReached entryReports entryOk m ∧ ((∀ e ∈ m, entryOk e) → after)) := by
  rw [onlyRaises_afterCheck checkNoReservedKeys_raises, checkNoReservedKeys_ok, onlyRaises_seq,
    onlyRaises_checkAll, checkAll_ok, hrest]
  simp only [hreports, hok]
  rfl

theorem validateRule_reports {rule : PyVal} {idx : ℕ} :
    OnlyRaises IsPolicyError (validateRule py rule idx source roots) ↔ RuleReports py roots rule := by
  unfold validateRule RuleReports
  rw [onlyRaises_after policyMapping]
  refine forall_congr' fun d => ?_
  rw [asMapping_ok, onlyRaises_after policyName]
  refine imp_congr_right fun _ => ?_
  simp only [asNonEmptyStr_ok, getOrNone_eq (v := .str _) (by simp)]
  rw [forall_exists_index]
  refine forall_congr' fun name => imp_congr_right fun _ => ?_
  generalize source ++ ": rule '" ++ name ++ "'" = here
  have hwhen (e : PyAtom × PyVal) :
      OnlyRaises IsPolicyError (validateWhenEntry py here roots e) ↔ WhenEntryReports roots e :=
    validateWhenEntry_reports
  have hrequire (e : PyAtom × PyVal) :
      OnlyRaises IsPolicyError (validateRequireEntry py here roots e) ↔ RequireEntryReports py roots e :=
    validateRequireEntry_reports
  rw [onlyRaises_afterCheck checkNoReservedKeys_raises, checkNoReservedKeys_ok, onlyRaises_seq,
    rejectExtras_listed, rejectExtras_ok, onlyRaises_after policyMapping]
  refine imp_congr_right fun _ => and_congr_right fun _ => imp_congr_right fun _ => ?_
  refine forall_congr' fun conditions => ?_
  rw [asMapping_ok, entries_report hwhen (fun e => validateWhenEntry_ok) (onlyRaises_after policyMapping)]
  refine imp_congr_right fun _ => imp_congr_right fun _ => and_congr_right fun _ =>
    imp_congr_right fun _ => forall_congr' fun require => ?_
  have hrest : OnlyRaises IsPolicyError (raiseIf
      (¬ ((getKey d "on_violation").getD (.str "deny")).eq (.str "deny"))
      (raised ((py.reprOf ((getKey d "on_violation").getD (.str "deny"))).map fun got =>
        .policyParseError (here ++ ": on_violation must be 'deny' (got " ++ got ++ ")"))) >>= fun _ =>
      .ok (Rule.mk name conditions require ((getKey d "on_violation").getD (.str "deny")))) ↔
        ViolationReports d := by
    rw [onlyRaises_seq, reprCheck_reports]
    exact and_iff_left fun _ => .ok _
  rw [asMapping_ok, entries_report hrequire (fun e => validateRequireEntry_ok) hrest]
  rfl

/-! ## One evaluator -/

/-- The two keys, in the order in which the loader meets them. -/
def defaultsOrder (py : Stdlib) : List String :=
  if py.unknownMetadataFirst then ["unknown_metadata", "policy_version_mismatch"]
  else ["policy_version_mismatch", "unknown_metadata"]

/-- A default that is no word can be written. -/
def DefaultReports (d : PyDict) (k : String) : Prop :=
  ¬ DefaultWord d k → printable (getOrNone d k) = true

def DefaultsReport (py : Stdlib) (v : PyVal) : Prop :=
  ∀ m, v = .dict m → Listable m ["policy_version_mismatch", "unknown_metadata"] ∧
    (KeysWithin m ["policy_version_mismatch", "unknown_metadata"] →
      AllReached (DefaultReports m) (DefaultWord m) (defaultsOrder py))

/-- A version that is not 1 can be written. -/
def VersionReports (v : PyVal) : Prop := ¬ v.eq (.int 1) → printable v = true

/-- The rules up to the first that is not in order, then the defaults, and at the end the hash. -/
def BundleReports (py : Stdlib) (roots : List String) (hashable : Bool) (d : PyDict) : Prop :=
  VersionReports (getOrNone d "version") ∧
    ((getOrNone d "version").eq (.int 1) = true → ∀ written, getKey d "rules" = some (.list written) →
      AllReached (RuleReports py roots) (RuleOk py roots) written ∧
        ((∀ v ∈ written, RuleOk py roots v) → DefaultsReport py (getOrNone d "defaults") ∧
          (BundleShape py roots d → hashable = true)))

theorem readDefault_reports {d : PyDict} {k : String} :
    OnlyRaises IsPolicyError (readDefault py d k source) ↔ DefaultReports d k := by
  by_cases hword : DefaultWord d k
  · obtain ⟨s, hs⟩ : ∃ s, readDefault py d k source = .ok s := readDefault_ok.mpr hword
    rw [hs]
    exact iff_of_true (.ok s) fun h => absurd hword h
  · have hsome : ∃ v, getKey d k = some v := by
      by_contra hnone
      simp only [not_exists, ← ne_eq, ← Option.eq_none_iff_forall_ne_some] at hnone
      exact hword fun v hv => by simp [hnone] at hv
    obtain ⟨v, hv⟩ := hsome
    have herror : readDefault py d k source = .error (raised ((py.reprOf v).map fun got =>
        .policyParseError (source ++ ": defaults['" ++ k ++ "'] must be 'allow' or 'deny', got " ++
          got))) := by
      cases h : readDefault py d k source with
      | ok s => exact absurd (readDefault_ok.mp ⟨s, h⟩) hword
      | error e =>
        rw [← h, readDefault, hv]
        simp only [Option.getD_some]
        split
        · next s =>
          refine if_neg fun hs => hword fun w hw => ?_
          rw [hv] at hw
          obtain rfl := Option.some.inj hw
          exact hs.imp (congrArg PyVal.str) (congrArg PyVal.str)
        · rfl
    have hmsg (got : String) : IsPolicyError (.policyParseError (source ++ ": defaults['" ++ k ++
        "'] must be 'allow' or 'deny', got " ++ got)) := rfl
    rw [herror, DefaultReports, forall_prop_of_true hword, getOrNone, hv, Option.getD_some,
      ← @reprOf_ok py, ← onlyRaises_returns fun _ => reprOf_error]
    have hraised : IsPolicyError (raised ((py.reprOf v).map fun got => .policyParseError (source ++
        ": defaults['" ++ k ++ "'] must be 'allow' or 'deny', got " ++ got))) ↔
          OnlyRaises IsPolicyError (py.reprOf v) := raised_iff hmsg
    rw [← hraised]
    exact ⟨fun h => h _ rfl, fun h => .error h⟩

theorem validateDefaults_reports {v : PyVal} :
    OnlyRaises IsPolicyError (validateDefaults py v source) ↔ DefaultsReport py v := by
  unfold validateDefaults DefaultsReport
  split
  · exact iff_of_true (.ok _) nofun
  · rw [onlyRaises_after policyMapping]
    refine forall_congr' fun m => ?_
    rw [asMapping_ok, onlyRaises_seq, rejectExtras_listed, rejectExtras_ok]
    refine imp_congr_right fun _ => and_congr_right fun _ => imp_congr_right fun _ => ?_
    have hread {k l : String} {f : String → String → Defaults} :
        OnlyRaises IsPolicyError (readDefault py m k source >>= fun a =>
            readDefault py m l source >>= fun b => .ok (f a b)) ↔
          AllReached (DefaultReports m) (DefaultWord m) [k, l] := by
      rw [onlyRaises_bind, readDefault_reports, AllReached, AllReached,
        ← @readDefault_ok py m k source, forall_exists_index]
      refine and_congr_right fun _ => forall₂_congr fun a _ => ?_
      rw [onlyRaises_bind, readDefault_reports]
      exact and_congr_right fun _ => iff_of_true (fun _ _ => .ok _) fun _ => trivial
    unfold defaultsOrder
    split_ifs
    · exact @hread _ _ fun a b => ⟨a, b⟩
    · exact @hread _ _ fun a b => ⟨b, a⟩

theorem computePolicyVersionHash_error {v : PyVal} {e : PyErr}
    (h : computePolicyVersionHash py v = .error e) : ¬ IsPolicyError e := by
  unfold computePolicyVersionHash canonicalBytes at h
  cases hd : dumps py v with
  | ok s =>
    rw [hd] at h
    cases h
  | error e' =>
    rw [hd] at h
    obtain rfl := Except.error.inj h
    rcases dumps_error hd with rfl | rfl <;> exact Bool.false_ne_true

theorem treeVersionHash_reports {tree : YamlTree} :
    OnlyRaises IsPolicyError (NativeYaml.treeVersionHash py tree) ↔ tree.hashable = true := by
  rw [← @treeVersionHash_ok py]
  refine onlyRaises_returns fun e h => ?_
  rcases bind_error.mp h with h | ⟨hash, -, h⟩
  · exact computePolicyVersionHash_error h
  · split_ifs at h
    obtain rfl := Except.error.inj h
    exact Bool.false_ne_true

theorem validateBundle_reports {d : PyDict} :
    OnlyRaises IsPolicyError (NativeYaml.validateBundle py roots d source) ↔
      VersionReports (getOrNone d "version") ∧
        ((getOrNone d "version").eq (.int 1) = true →
          ∀ written, getKey d "rules" = some (.list written) →
            AllReached (RuleReports py roots) (RuleOk py roots) written) := by
  unfold NativeYaml.validateBundle
  rw [onlyRaises_seq, reprCheck_reports, raiseIf_ok, not_not]
  refine and_congr_right fun _ => imp_congr_right fun _ => ?_
  simp only [← getOrNone_eq (v := .list _) (by simp)]
  split
  · next written hw =>
    have hok (r : PyVal × ℕ) :
        (∃ rule, validateRule py r.1 r.2 source roots = .ok rule) ↔ RuleOk py roots r.1 := by
      simp only [validateRule_ok]
      exact exists_comm
    simp only [hw, PyVal.list.injEq, forall_eq']
    rw [onlyRaises_buildAll]
    conv_rhs => rw [← List.zipIdx_map_fst 0 written, AllReached.map]
    exact AllReached.congr (fun _ _ => validateRule_reports) fun r _ => hok r
  · next hnl =>
    refine iff_of_true ?_ fun written hw => absurd hw (hnl written)
    refine .error ?_
    rfl

theorem initWith_reports {hash : Except PyErr String} {hashable : Bool} {d : PyDict}
    (hhash : OnlyRaises IsPolicyError hash ↔ hashable = true) :
    OnlyRaises IsPolicyError (NativeYaml.initWith py hash roots (.dict d) source) ↔
      BundleReports py roots hashable d := by
  have hread : OnlyRaises IsPolicyError (NativeYaml.readPolicyId d source) := policyName
  change OnlyRaises IsPolicyError (NativeYaml.validateBundle py roots d source >>= _) ↔ _
  rw [onlyRaises_bind, validateBundle_reports]
  constructor
  · rintro ⟨⟨hwritten, hrules⟩, hrest⟩
    refine ⟨hwritten, fun hversion written hw => ⟨hrules hversion written hw, fun hall => ?_⟩⟩
    obtain ⟨rules, hchecked⟩ := rulesChecked_exists.mpr hall
    have hbundle : NativeYaml.validateBundle py roots d source = .ok rules :=
      NativeYaml.validateBundle_ok.mpr ⟨hversion, written, hw, hchecked⟩
    obtain ⟨hdefaults, hrest⟩ := onlyRaises_bind.mp (hrest rules hbundle)
    refine ⟨validateDefaults_reports.mp hdefaults, fun hshape => ?_⟩
    obtain ⟨dflt, hdflt⟩ : ∃ dflt, validateDefaults py (getOrNone d "defaults") source = .ok dflt :=
      validateDefaults_ok.mpr hshape.defaults
    obtain ⟨pid, hpid, hne⟩ := hshape.policyId
    have hid : NativeYaml.readPolicyId d source = .ok pid :=
      asNonEmptyStr_ok.mpr ⟨(getOrNone_eq (by simp)).mpr hpid, hne⟩
    have hrest := (onlyRaises_after hread).mp (hrest dflt hdflt) pid hid
    exact hhash.mp (onlyRaises_bind.mp hrest).1
  · rintro ⟨hwritten, h⟩
    refine ⟨⟨hwritten, fun hversion written hw => (h hversion written hw).1⟩, fun rules hbundle => ?_⟩
    obtain ⟨hversion, written, hw, hchecked⟩ := NativeYaml.validateBundle_ok.mp hbundle
    have hall := rulesChecked_exists.mp ⟨rules, hchecked⟩
    obtain ⟨hdefaults, hable⟩ := (h hversion written hw).2 hall
    refine onlyRaises_bind.mpr ⟨validateDefaults_reports.mpr hdefaults, fun dflt hdflt => ?_⟩
    refine (onlyRaises_after hread).mpr fun pid hpid => ?_
    obtain ⟨hpid, hne⟩ := asNonEmptyStr_ok.mp hpid
    have hshape : BundleShape py roots d := ⟨hversion, ⟨written, hw, hall⟩,
      validateDefaults_ok.mp ⟨dflt, hdflt⟩, pid, (getOrNone_eq (by simp)).mp hpid, hne⟩
    exact .bind (hhash.mpr (hable hshape)) fun _ _ => .ok _

/-- Of a section that is written, the bundle that is made from it, and otherwise the whole file. -/
def SectionReports (py : Stdlib) (roots : List String) (tree : YamlTree) (d : PyDict) (k : String) :
    Prop :=
  NativeYaml.MappingAt d k → ∀ m, (NativeYaml.sectionTree k tree).shown = .dict m →
    BundleReports py roots (NativeYaml.sectionTree k tree).hashable m

theorem constructFromTree_reports {tree : YamlTree} {d : PyDict} {k : String}
    (ht : tree.shown = .dict d) :
    OnlyRaises IsPolicyError (NativeYaml.constructFromTree py k roots tree source) ↔
      SectionReports py roots tree d k := by
  by_cases hm : NativeYaml.MappingAt d k
  · obtain ⟨m, hs⟩ : ∃ m, (NativeYaml.sectionTree k tree).shown = .dict m :=
      NativeYaml.sectionTree_dict ht
    rw [NativeYaml.constructFromTree_eq ht hm, NativeYaml.initTree, hs,
      initWith_reports treeVersionHash_reports, SectionReports, forall_prop_of_true hm]
    simp only [hs, PyVal.dict.injEq, forall_eq']
  · obtain ⟨msg, he⟩ : ∃ msg, NativeYaml.constructFromTree py k roots tree source =
        .error (.policyParseError msg) := NativeYaml.constructFromTree_refused ht hm
    rw [he]
    exact iff_of_true (.error rfl) fun h => absurd h hm

end

/-! ## Files -/

section

variable {Ω : Type} {rt : Runtime Ω}

/-- A section that may be null or absent. -/
def OptionalReports (py : Stdlib) (roots : List String) (tree : YamlTree) (d : PyDict) (k : String) :
    Prop :=
  getOrNone d k ≠ .none → SectionReports py roots tree d k

def VerificationReports (v : PyVal) : Prop := ∀ m, v = .dict m → Listable m verificationKeys

/-- The top level, the verification section and then the two evaluators, up to the first that is
not in order; `d` is what is shown of the tree. -/
structure FileReports (py : Stdlib) (tree : YamlTree) (d : PyDict) : Prop where
  keys : Listable d unifiedYamlTopKeys
  version : KeysWithin d unifiedYamlTopKeys → VersionReports ((getKey d "version").getD (.int 1))
  sections : KeysWithin d unifiedYamlTopKeys → ((getKey d "version").getD (.int 1)).eq (.int 1) = true →
    VerificationReports (getOrNone d "verification") ∧
      (VerificationShape (getOrNone d "verification") →
        OptionalReports py chunkDomainRoots tree d "access_control" ∧
          (OptionalSection py chunkDomainRoots tree d "access_control" →
            OptionalReports py toolCallDomainRoots tree d "tool_call_control"))

theorem parseVerification_reports {v : PyVal} {source : String} :
    OnlyRaises IsPolicyError (parseVerification rt v source) ↔ VerificationReports v := by
  unfold parseVerification VerificationReports
  split
  · exact iff_of_true (.ok _) nofun
  · rw [onlyRaises_after policyMapping]
    refine forall_congr' fun m => ?_
    rw [asMapping_ok, onlyRaises_seq, rejectExtras_listed]
    refine imp_congr_right fun _ => and_iff_left fun _ => ?_
    exact .seq (.checkAll fun _ _ => policyCheck) fun _ => .ok _

theorem loadSection_reports {roots : List String} {tree : YamlTree} {d : PyDict} {k source : String}
    (ht : tree.shown = .dict d) :
    OnlyRaises IsPolicyError (loadSection
      (fun _ => NativeYaml.constructFromTree rt.toStdlib k roots tree) d k source) ↔
        OptionalReports rt.toStdlib roots tree d k := by
  unfold loadSection OptionalReports
  split
  · next hnone => exact iff_of_true (.ok none) fun hne => absurd hnone hne
  · next hne =>
    rw [onlyRaises_map, constructFromTree_reports ht]
    exact ⟨fun h _ => h, fun h => h hne⟩

/-- What follows does not depend on the value that is returned. -/
theorem forall_exists {α : Type} (x : Except PyErr α) {after : Prop} :
    ((∃ a, x = .ok a) → after) ↔ ∀ a, x = .ok a → after := by
  rw [forall_exists_index]

theorem fromTree_reports {tree : YamlTree} {d : PyDict} {source : String}
    (ht : tree.shown = .dict d) :
    OnlyRaises IsPolicyError (Policy.fromTree rt tree source) ↔ FileReports rt.toStdlib tree d := by
  have haccess : OnlyRaises IsPolicyError (loadSection
      (fun _ => NativeYamlEvaluator.constructFromTree rt tree) d "access_control" source) ↔
        OptionalReports rt.toStdlib chunkDomainRoots tree d "access_control" := loadSection_reports ht
  have htool : OnlyRaises IsPolicyError (loadSection
      (fun _ => NativeYamlToolCallEvaluator.constructFromTree rt tree) d "tool_call_control" source) ↔
        OptionalReports rt.toStdlib toolCallDomainRoots tree d "tool_call_control" :=
    loadSection_reports ht
  have hloads : (∃ a, loadSection (fun _ => NativeYamlEvaluator.constructFromTree rt tree) d
      "access_control" source = .ok a) ↔
        OptionalSection rt.toStdlib chunkDomainRoots tree d "access_control" :=
    loadSection_constructs ht
  have hverification := @parseVerification_ok _ rt (getOrNone d "verification") source
  rw [Policy.fromTree, ht]
  change OnlyRaises IsPolicyError (rejectExtras rt.toStdlib d unifiedYamlTopKeys _ _ >>= fun _ =>
    raiseIf _ _ >>= fun _ => parseVerification rt _ source >>= fun v =>
      loadSection _ d "access_control" source >>= fun a =>
        loadSection _ d "tool_call_control" source >>= fun t => .ok (LoadedPolicy.mk v a t)) ↔ _
  rw [onlyRaises_seq, rejectExtras_listed, rejectExtras_ok, onlyRaises_seq, reprCheck_reports,
    raiseIf_ok, not_not, onlyRaises_bind, parseVerification_reports]
  have hsections (v : VerificationPolicy) : OnlyRaises IsPolicyError
      (loadSection (fun _ => NativeYamlEvaluator.constructFromTree rt tree) d "access_control" source
        >>= fun a => loadSection (fun _ => NativeYamlToolCallEvaluator.constructFromTree rt tree) d
          "tool_call_control" source >>= fun t => .ok (LoadedPolicy.mk v a t)) ↔
        OptionalReports rt.toStdlib chunkDomainRoots tree d "access_control" ∧
          (OptionalSection rt.toStdlib chunkDomainRoots tree d "access_control" →
            OptionalReports rt.toStdlib toolCallDomainRoots tree d "tool_call_control") := by
    rw [onlyRaises_bind, haccess, ← hloads, forall_exists_index]
    refine and_congr_right fun _ => forall_congr' fun a => imp_congr_right fun _ => ?_
    rw [onlyRaises_bind, htool]
    exact and_iff_left fun _ _ => .ok _
  simp only [hsections]
  rw [← forall_exists (parseVerification rt (getOrNone d "verification") source), hverification]
  constructor
  · rintro ⟨hkeys, h⟩
    exact ⟨hkeys, fun hk => (h hk).1, fun hk => (h hk).2⟩
  · rintro ⟨hkeys, hversion, hsections⟩
    exact ⟨hkeys, fun hk => ⟨hversion hk, hsections hk⟩⟩

/-- A tree whose first fault is reported, or that is no mapping. -/
def Reports (py : Stdlib) (tree : YamlTree) : Prop := ∀ d, tree.shown = .dict d → FileReports py tree d

/-- Loading a tree raises nothing but a policy error exactly where its first fault is reported. -/
theorem fromTree_onlyRaises {tree : YamlTree} {source : String} :
    OnlyRaises IsPolicyError (Policy.fromTree rt tree source) ↔ Reports rt.toStdlib tree := by
  by_cases hmap : ∃ d, tree.shown = .dict d
  · obtain ⟨d, ht⟩ := hmap
    rw [fromTree_reports ht, Reports, ht]
    simp only [PyVal.dict.injEq, forall_eq']
  · rw [not_exists] at hmap
    refine iff_of_true ?_ fun d hd => absurd hd (hmap d)
    exact (onlyRaises_after policyMapping).mpr fun d hd => absurd (asMapping_ok.mp hd) (hmap d)

end

end Provenex
