import Provenex.Proofs.Canonical
import Provenex.Proofs.Totality

/-! An evaluator does not see in which order the keys of its bundle were
written, so the hash of the bundle determines what it decides. -/

namespace Provenex

open Guard

/-! ## Lookup -/

theorem PyAtom.str_eq {k : PyAtom} {s : String} : (PyAtom.str s).eq k = true ↔ k = .str s := by
  unfold PyAtom.eq
  cases k with
  | str t => simpa using eq_comm
  | _ => simp [PyAtom.num?]

theorem dictGet_iff {V : Type} {d : List (PyAtom × V)} (hs : ∀ e ∈ d, ∃ s, e.1 = .str s)
    (hn : (keysOf d).Nodup) {k : PyAtom} {v : V} : dictGet k d = some v ↔ (k, v) ∈ d := by
  induction d with
  | nil => simp [dictGet]
  | cons e d ih =>
    obtain ⟨k', w⟩ := e
    obtain ⟨s, rfl⟩ : ∃ s, k' = .str s := hs _ List.mem_cons_self
    obtain ⟨hnot, hn⟩ := List.nodup_cons.mp hn
    have ih := ih (fun e he => hs e (List.mem_cons_of_mem _ he)) hn
    rw [dictGet_cons]
    by_cases hk : k = .str s
    · subst hk
      rw [if_pos (PyAtom.str_eq.mpr rfl)]
      simp only [Option.some.injEq, List.mem_cons, Prod.mk.injEq, true_and]
      refine ⟨fun h => .inl h.symm, fun h => h.elim Eq.symm fun hmem => ?_⟩
      exact absurd (List.mem_map_of_mem hmem) hnot
    · rw [if_neg (fun h => hk (PyAtom.str_eq.mp h)), ih]
      simp [hk]

theorem dictGet_perm {V : Type} {d e : List (PyAtom × V)} (hs : ∀ x ∈ d, ∃ s, x.1 = .str s)
    (hn : (keysOf d).Nodup) (hp : d.Perm e) (k : PyAtom) : dictGet k d = dictGet k e := by
  have hs' : ∀ x ∈ e, ∃ s, x.1 = .str s := fun x hx => hs x (hp.mem_iff.mpr hx)
  have hn' : (keysOf e).Nodup := (hp.map Prod.fst).nodup_iff.mp hn
  apply Option.ext
  intro v
  rw [dictGet_iff hs hn, dictGet_iff hs' hn', hp.mem_iff]

theorem dictGet_map {V W : Type} (f : V → W) (d : List (PyAtom × V)) (k : PyAtom) :
    dictGet k (d.map fun e => (e.1, f e.2)) = (dictGet k d).map f := by
  induction d with
  | nil => rfl
  | cons e d ih =>
    rw [List.map_cons, dictGet_cons, dictGet_cons, ih]
    cases e.1.eq k <;> rfl

/-- The entries as `norm` leaves them. -/
def normDict (d : PyDict) : PyDict := (sortEntries d).map fun e => (e.1, norm e.2)

theorem norm_eq_normDict (d : PyDict) : norm (.dict d) = .dict (normDict d) := norm_dict d

theorem dictGet_normDict {d : PyDict} (h : JsonShaped (.dict d)) (k : PyAtom) :
    dictGet k (normDict d) = (dictGet k d).map norm := by
  cases h with
  | dict hs hn _ =>
    rw [normDict, dictGet_map, dictGet_perm hs hn (sortEntries_perm d).symm]

/-! ## Equality -/

theorem eqList_norm {xs : List PyVal} (h : ∀ x ∈ xs, ∀ w : PyVal, w.eq (norm x) = w.eq x) :
    ∀ ws, eqList ws (xs.map norm) = eqList ws xs := by
  induction xs with
  | nil => exact fun ws => rfl
  | cons x xs ih =>
    intro ws
    cases ws with
    | nil => rfl
    | cons w ws =>
      rw [List.map_cons, eqList, eqList, h x List.mem_cons_self,
        ih fun y hy => h y (List.mem_cons_of_mem _ hy)]

theorem eqEntries_norm {d : PyDict} (hd : JsonShaped (.dict d))
    (h : ∀ e ∈ d, ∀ w : PyVal, w.eq (norm e.2) = w.eq e.2) :
    ∀ ws, eqEntries ws (normDict d) = eqEntries ws d := by
  intro ws
  induction ws with
  | nil => rw [eqEntries, eqEntries]
  | cons e ws ih =>
    obtain ⟨k, v⟩ := e
    rw [eqEntries, eqEntries, ih, dictGet_normDict hd]
    cases hk : dictGet k d with
    | none => rfl
    | some x =>
      cases hd with
      | dict hs hn _ =>
        have hmem := (dictGet_iff hs hn).mp hk
        simp only [Option.map_some]
        rw [h _ hmem]

/-- `==` does not see the order of keys. -/
theorem eq_norm {x : PyVal} (hx : JsonShaped x) : ∀ w : PyVal, w.eq (norm x) = w.eq x := by
  induction hx with
  | none => exact fun w => rfl
  | bool b => exact fun w => rfl
  | int i => exact fun w => rfl
  | str s => exact fun w => rfl
  | @list xs _ ih =>
    intro w
    rw [norm_list]
    cases w with
    | atom a => rfl
    | list ws => exact eqList_norm ih ws
    | dict e => rfl
  | @dict d hs hn hv ih =>
    intro w
    rw [norm_eq_normDict]
    cases w with
    | atom a => rfl
    | list ws => rfl
    | dict e =>
      have hlen : (normDict d).length = d.length := by
        rw [normDict, List.length_map, (sortEntries_perm d).length_eq]
      rw [PyVal.eq, PyVal.eq, hlen, eqEntries_norm (.dict hs hn hv) ih]

theorem truthy_norm (v : PyVal) : (norm v).truthy = v.truthy := by
  cases v with
  | atom a => rfl
  | list xs => cases xs <;> simp [norm_list, PyVal.truthy]
  | dict d =>
    have hnil : (normDict d).isEmpty = d.isEmpty := by
      rw [normDict, List.isEmpty_map, Bool.eq_iff_iff, List.isEmpty_iff, List.isEmpty_iff,
        ← List.length_eq_zero_iff, ← List.length_eq_zero_iff, (sortEntries_perm d).length_eq]
    rw [norm_eq_normDict]
    simp only [PyVal.truthy, hnil]

theorem printable_norm (v : PyVal) : printable (norm v) = printable v := by
  induction v using PyVal.induction with
  | atom a => rfl
  | list xs ih =>
    rw [norm_list, printable, printable, Bool.eq_iff_iff, printableList_iff, printableList_iff,
      List.forall_mem_map]
    exact forall₂_congr fun x hx => by rw [ih x hx]
  | dict d ih =>
    rw [norm_eq_normDict, printable, printable, Bool.eq_iff_iff, printableEntries_iff,
      printableEntries_iff, normDict, List.forall_mem_map]
    simp only [(sortEntries_perm d).mem_iff]
    exact forall₂_congr fun e he => by rw [ih e he]

section

variable {Ω : Type} {rt : Runtime Ω}

/-- `==` between an object outside the model and a value does not see the order of keys. -/
def OrderBlind (rt : Runtime Ω) : Prop :=
  ∀ o v, JsonShaped v → rt.otherEq o (norm v) = rt.otherEq o v

theorem PyObj.eq_norm (hb : OrderBlind rt) (a : PyObj Ω) {x : PyVal} (hx : JsonShaped x) :
    a.eq rt (norm x) = a.eq rt x := by
  cases a with
  | val w => exact Provenex.eq_norm hx w
  | other o => exact hb o x hx
  | chunk c => rfl
  | tool t => rfl
  | request r => rfl

theorem PyObj.inList_norm (hb : OrderBlind rt) (a : PyObj Ω) {xs : List PyVal}
    (hx : ∀ x ∈ xs, JsonShaped x) : a.inList rt (xs.map norm) = a.inList rt xs := by
  unfold PyObj.inList
  induction xs with
  | nil => rfl
  | cons x xs ih =>
    rw [List.map_cons, List.any_cons, List.any_cons, PyObj.eq_norm hb a (hx x List.mem_cons_self),
      ih fun y hy => hx y (List.mem_cons_of_mem _ hy)]

/-! ## Entries -/

/-- No operator of a mapping has a mapping for its operand. -/
def OperandsFlat (x : PyVal) : Prop :=
  ∀ d, x = .dict d → ∀ (op : Operator) (v : PyVal), getKey d op.key = some v → ∀ e, v ≠ .dict e

theorem WhenMapping.flat {x : PyVal} (h : WhenMapping x) : OperandsFlat x := by
  rintro d hd op v hv e rfl
  obtain ⟨hkeys, hlist⟩ := h d hd
  cases op with
  | isIn => exact absurd (hlist _ hv) Bool.false_ne_true
  | _ => exact absurd (hkeys.getKey hv) (by decide)

theorem RequireMapping.flat {x : PyVal} (h : RequireMapping rt.toStdlib x) : OperandsFlat x := by
  rintro d hd op v hv e rfl
  have hop := (h d hd).2 op _ hv
  cases op with
  | notOlderThan =>
    obtain ⟨n, hn⟩ := hop
    cases hn
  | _ => exact absurd hop Bool.false_ne_true

theorem operandAlike_norm (hb : OrderBlind rt) (a : PyObj Ω) {v : PyVal} (hv : JsonShaped v)
    (hflat : ∀ e, v ≠ .dict e) : OperandAlike rt a a v (norm v) := by
  cases v with
  | atom b => exact rfl
  | dict e => exact absurd rfl (hflat e)
  | list xs =>
    cases hv with
    | list hx =>
      have hprint := printable_norm (.list xs)
      rw [norm_list] at hprint ⊢
      exact ⟨(PyObj.inList_norm hb a hx).symm, hprint.symm⟩

theorem getKey_value {d : PyDict} (hd : JsonShaped (.dict d)) {k : String} {v : PyVal}
    (hv : getKey d k = some v) : JsonShaped v := by
  cases hd with
  | dict hs hn hvals => exact hvals _ ((dictGet_iff hs hn).mp hv)

theorem constraintAlike_norm (hb : OrderBlind rt) (a : PyObj Ω) {x : PyVal} (hx : JsonShaped x)
    (hflat : OperandsFlat x) : ConstraintAlike rt a a x (norm x) := by
  cases x with
  | atom b => exact rfl
  | list xs =>
    have heq := PyObj.eq_norm hb a hx
    rw [norm_list] at heq ⊢
    exact heq.symm
  | dict d =>
    rw [norm_eq_normDict]
    intro op
    simp only [hasKey, getOrNone, getKey, dictGet_normDict hx]
    cases hv : dictGet (.str op.key) d with
    | none => exact ⟨rfl, rfl⟩
    | some v => exact ⟨rfl, operandAlike_norm hb a (getKey_value hx hv) (hflat d rfl op v hv)⟩

theorem resolvedAlike_norm (hb : OrderBlind rt) {x : PyVal} (hx : JsonShaped x)
    (hflat : OperandsFlat x) (r : Except PyErr (Option (PyObj Ω))) :
    ResolvedAlike rt x (norm x) r r := by
  cases r with
  | error e => exact .error e
  | ok o =>
    cases o with
    | none => exact .missing
    | some a => exact .found rfl (constraintAlike_norm hb a hx hflat)

/-- A walk over entries that raises on none of them does not see their order. -/
theorem allHold_normDict {d : PyDict} {f : PyAtom × PyVal → Except PyErr Bool}
    (hnorm : ∀ e ∈ d, f e = f (e.1, norm e.2)) (htotal : ∀ e ∈ d, ∃ b, f e = .ok b) :
    allHold (normDict d) f = allHold d f := by
  rw [normDict, allHold_map, allHold_perm (sortEntries_perm d).symm htotal]
  exact allHold_congr fun e he => (hnorm e ((sortEntries_perm d).mem_iff.mp he)).symm

/-! ## Rules -/

/-- Two mappings that differ in the order of keys. -/
def SameDict (d d' : PyDict) : Prop :=
  JsonShaped (.dict d) ∧ JsonShaped (.dict d') ∧ norm (.dict d) = norm (.dict d')

theorem SameDict.normDict {d d' : PyDict} (h : SameDict d d') : normDict d = normDict d' := by
  have := h.2.2
  rw [norm_eq_normDict, norm_eq_normDict] at this
  exact PyVal.dict.inj this

theorem SameDict.getKey {d d' : PyDict} (h : SameDict d d') (k : String) :
    (getKey d k).map norm = (getKey d' k).map norm := by
  rw [Provenex.getKey, Provenex.getKey, ← dictGet_normDict h.1, ← dictGet_normDict h.2.1, h.normDict]

theorem SameDict.getD {d d' : PyDict} (h : SameDict d d') (k : String) (v : PyVal) :
    norm ((Provenex.getKey d k).getD v) = norm ((Provenex.getKey d' k).getD v) := by
  have hk := congrArg (·.getD (norm v)) (h.getKey k)
  simpa only [Option.getD_map] using hk

theorem SameDict.getOrNone {d d' : PyDict} (h : SameDict d d') (k : String) :
    norm (getOrNone d k) = norm (getOrNone d' k) := h.getD k .none

theorem getOrNone_shaped {d : PyDict} (h : JsonShaped (.dict d)) (k : String) :
    JsonShaped (getOrNone d k) := by
  unfold getOrNone
  cases hk : getKey d k with
  | none => exact .none
  | some v => exact getKey_value h hk

theorem pyOr_norm {v w v' w' : PyVal} (hv : norm v = norm v') (hw : norm w = norm w') :
    norm (pyOr v w) = norm (pyOr v' w') := by
  unfold pyOr
  rw [← truthy_norm v, hv, truthy_norm v']
  split_ifs
  · exact hv
  · exact hw

theorem pyOr_shaped {v w : PyVal} (hv : JsonShaped v) (hw : JsonShaped w) :
    JsonShaped (pyOr v w) := by
  unfold pyOr
  split_ifs
  · exact hv
  · exact hw

theorem emptyDict_shaped : JsonShaped (.dict []) := .dict (by simp) (by simp [keysOf]) (by simp)

/-- What two such rules read under `when`, and under `require`. -/
theorem SameDict.read {d d' r r' : PyDict} {k : String} (h : SameDict d d')
    (hr : pyOr (Provenex.getOrNone d k) (.dict []) = .dict r)
    (hr' : pyOr (Provenex.getOrNone d' k) (.dict []) = .dict r') : SameDict r r' := by
  refine ⟨?_, ?_, ?_⟩
  · exact hr ▸ pyOr_shaped (getOrNone_shaped h.1 k) emptyDict_shaped
  · exact hr' ▸ pyOr_shaped (getOrNone_shaped h.2.1 k) emptyDict_shaped
  · exact hr ▸ hr' ▸ pyOr_norm (h.getOrNone k) rfl

/-- A walk that raises nowhere is the same over two orders of the entries. -/
theorem SameDict.allHold {d d' : PyDict} {f : PyAtom × PyVal → Except PyErr Bool}
    (h : SameDict d d') (hnorm : ∀ e ∈ d ++ d', f e = f (e.1, norm e.2))
    (htotal : ∀ e ∈ d ++ d', ∃ b, f e = .ok b) : Guard.allHold d f = Guard.allHold d' f := by
  rw [← allHold_normDict (fun e he => hnorm e (List.mem_append_left _ he))
      (fun e he => htotal e (List.mem_append_left _ he)),
    ← allHold_normDict (fun e he => hnorm e (List.mem_append_right _ he))
      (fun e he => htotal e (List.mem_append_right _ he)), h.normDict]

theorem mem_shaped {d : PyDict} (h : JsonShaped (.dict d)) {e : PyAtom × PyVal} (he : e ∈ d) :
    JsonShaped e.2 := by
  cases h with
  | dict _ _ hvals => exact hvals e he

theorem SameDict.whenMatches (hb : OrderBlind rt) {roots : List String}
    (hroots : roots ⊆ knownRoots) {d d' : PyDict} (h : SameDict d d')
    (hd : ∀ e ∈ d ++ d', PathKey roots e.1 ∧ WhenMapping e.2) (view : View) :
    whenMatches rt view d = whenMatches rt view d' := by
  refine h.allHold (fun e he => ?_) fun e he =>
    (whenEntryMatches_returns (hd e he).2 view).mpr ((hd e he).1.known hroots)
  have hx : JsonShaped e.2 := (List.mem_append.mp he).elim (mem_shaped h.1) (mem_shaped h.2.1)
  exact whenEntryMatches_congr (resolvedAlike_norm hb hx (hd e he).2.flat _)

/-- Every entry of a mapping holds where every entry of it in another order does. -/
theorem forall_normDict {d : PyDict} {f : PyAtom × PyVal → Except PyErr Bool}
    (hnorm : ∀ e ∈ d, f e = f (e.1, norm e.2)) :
    (∀ e ∈ normDict d, f e = .ok true) ↔ ∀ e ∈ d, f e = .ok true := by
  rw [normDict, List.forall_mem_map]
  simp only [(sortEntries_perm d).mem_iff]
  exact forall₂_congr fun e he => by rw [hnorm e he]

theorem SameDict.requireHolds_true (hb : OrderBlind rt) {d d' : PyDict} (h : SameDict d d')
    (hd : ∀ e ∈ d ++ d', RequireMapping rt.toStdlib e.2) (unknownMetadata : String) (view : View) :
    requireHolds rt unknownMetadata view d = .ok true ↔
      requireHolds rt unknownMetadata view d' = .ok true := by
  have hnorm : ∀ e ∈ d ++ d', requireEntryHolds rt unknownMetadata view e =
      requireEntryHolds rt unknownMetadata view (e.1, norm e.2) := by
    intro e he
    have hx : JsonShaped e.2 := (List.mem_append.mp he).elim (mem_shaped h.1) (mem_shaped h.2.1)
    exact requireEntryHolds_congr rfl (resolvedAlike_norm hb hx (hd e he).flat _)
  rw [requireHolds, requireHolds, allHold_true, allHold_true,
    ← forall_normDict fun e he => hnorm e (List.mem_append_left _ he),
    ← forall_normDict fun e he => hnorm e (List.mem_append_right _ he), h.normDict]

end

end Provenex
