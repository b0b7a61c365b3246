import Provenex.Core.TrajectoryAudit

/-! The checks of a trajectory audit, and what its verdict says of the receipts. -/

namespace Provenex

open Guard Relation

/-! ## Sets of identifiers -/

theorem distinct_snoc (as : List PyAtom) (a : PyAtom) : distinct (as ++ [a]) =
    if (distinct as).any fun b => b.key = a.key then distinct as else distinct as ++ [a] := by
  rw [distinct, List.foldl_append]
  rfl

theorem distinct_keys (as : List PyAtom) :
    ((distinct as).map PyAtom.key).Nodup ∧
    ∀ k, k ∈ (distinct as).map PyAtom.key ↔ k ∈ as.map PyAtom.key := by
  induction as using List.reverseRecOn with
  | nil => simp [distinct]
  | append_singleton as a ih =>
    have hany : ((distinct as).any fun b => b.key = a.key) = true ↔
        a.key ∈ (distinct as).map PyAtom.key := by simp
    rw [distinct_snoc]
    split_ifs with h
    · refine ⟨ih.1, fun k => ?_⟩
      rw [List.map_append, List.mem_append, ← ih.2]
      refine ⟨.inl, fun hk => hk.elim id fun hk => ?_⟩
      rw [List.mem_singleton.mp hk]
      exact hany.mp h
    · rw [hany] at h
      refine ⟨?_, fun k => ?_⟩
      · rw [List.map_append, List.map_singleton, ← List.concat_eq_append]
        exact ih.1.concat h
      · rw [List.map_append, List.mem_append, List.map_append, List.mem_append, ih.2]

/-- A set with one element. -/
theorem distinct_single {as : List PyAtom} :
    (∃ a, distinct as = [a]) ↔ as ≠ [] ∧ ∀ a ∈ as, ∀ b ∈ as, a.key = b.key := by
  obtain ⟨hnodup, hmem⟩ := distinct_keys as
  constructor
  · rintro ⟨a, ha⟩
    have hkey (b : PyAtom) (hb : b ∈ as) : b.key = a.key := by
      simpa [ha] using (hmem b.key).mpr (List.mem_map_of_mem hb)
    refine ⟨?_, fun b hb c hc => (hkey b hb).trans (hkey c hc).symm⟩
    rintro rfl
    cases ha
  · rintro ⟨hne, hall⟩
    obtain ⟨a, rest, rfl⟩ := List.exists_cons_of_ne_nil hne
    have hkeys (k : PyAtom) (hk : k ∈ (distinct (a :: rest)).map PyAtom.key) : k = a.key := by
      obtain ⟨b, hb, rfl⟩ := List.mem_map.mp ((hmem k).mp hk)
      exact hall b hb a List.mem_cons_self
    have ha : a.key ∈ (distinct (a :: rest)).map PyAtom.key := (hmem _).mpr (by simp)
    match h : distinct (a :: rest) with
    | [] => rw [h] at ha; cases ha
    | [b] => exact ⟨b, rfl⟩
    | b :: c :: _ =>
      rw [h] at hkeys hnodup
      have hbc : b.key = c.key := (hkeys _ (by simp)).trans (hkeys _ (by simp)).symm
      simp [hbc] at hnodup

section

variable {py : Stdlib} {receipts : List PyDict} {steps : List TrajectoryStep}

/-! ## One check after the other -/

theorem blockCheck_ok : (blockCheck py receipts).ok = true ↔
    ∀ r ∈ receipts, (getOrNone r "trajectory").truthy = true := by
  unfold blockCheck
  split
  · next h => simpa using h
  · next hne =>
    simp only [Bool.false_eq_true, false_iff]
    intro hall
    exact hne (List.filter_eq_nil_iff.mpr fun r hr => by simp [hall r hr])

theorem sharedCheck_ok {ids : List PyAtom} {c : TrajectoryCheck}
    (h : sharedCheck py (distinct ids) = .ok c) :
    c.ok = true ↔ ids ≠ [] ∧ ∀ a ∈ ids, ∀ b ∈ ids, a.key = b.key := by
  rw [← distinct_single]
  unfold sharedCheck at h
  split at h
  · next a ha =>
    obtain rfl := Except.ok.inj h
    exact ⟨fun _ => ⟨a, ha⟩, fun _ => rfl⟩
  · next hne =>
    split_ifs at h
    obtain rfl := Except.ok.inj h
    simpa using hne

theorem distinct_subset (as : List PyAtom) : ∀ a ∈ distinct as, a ∈ as := by
  induction as using List.reverseRecOn with
  | nil => simp [distinct]
  | append_singleton as a ih =>
    intro b hb
    rw [distinct_snoc] at hb
    split_ifs at hb
    · exact List.mem_append_left _ (ih b hb)
    · obtain hb | hb := List.mem_append.mp hb
      · exact List.mem_append_left _ (ih b hb)
      · exact List.mem_append_right _ hb

/-- Texts can be sorted. -/
theorem sharedCheck_total (py : Stdlib) {ids : List PyAtom} (h : ∀ a ∈ ids, ∃ s, a = .str s) :
    ∃ c, sharedCheck py (distinct ids) = .ok c := by
  have hclass : ∀ a ∈ distinct ids, a.keyClass = .str := by
    intro a ha
    obtain ⟨s, rfl⟩ := h a (distinct_subset ids a ha)
    rfl
  have hsortable : sortable (distinct ids) = true := by
    generalize distinct ids = as at hclass
    cases as with
    | nil => rfl
    | cons a as =>
      rw [List.forall_mem_cons] at hclass
      simp only [sortable, List.all_eq_true, decide_eq_true_eq]
      intro b hb
      rw [hclass.1, hclass.2 b hb]
  unfold sharedCheck
  split
  · exact ⟨_, rfl⟩
  · rw [if_pos hsortable]
    exact ⟨_, rfl⟩

/-! ## The parent relation -/

/-- A receipt with the one id names the other. -/
def Parent (steps : List TrajectoryStep) (k l : PyAtom) : Prop :=
  ∃ s ∈ steps, s.key = k ∧ ∃ p ∈ s.parentStepIds, p.key = l

/-- The last receipt with the one id names the other. -/
def LastParent (steps : List TrajectoryStep) (k l : PyAtom) : Prop :=
  ∃ s, Rows.Last TrajectoryStep.key steps s ∧ s.key = k ∧ ∃ p ∈ s.parentStepIds, p.key = l

/-- A receipt has the id. -/
def Listed (steps : List TrajectoryStep) (k : PyAtom) : Prop := ∃ s ∈ steps, s.key = k

theorem Listed.last {k : PyAtom} (h : Listed steps k) :
    ∃ s, Rows.Last TrajectoryStep.key steps s ∧ s.key = k := by
  obtain ⟨s, hs, rfl⟩ := h
  exact Rows.exists_last _ hs

theorem byId_listed {k : PyAtom} : (∃ s ∈ byId steps, s.key = k) ↔ Listed steps k := by
  constructor
  · rintro ⟨s, hs, hk⟩
    exact ⟨s, (Rows.mem_foldl_put.mp hs).mem, hk⟩
  · intro h
    obtain ⟨s, hs, hk⟩ := h.last
    exact ⟨s, Rows.mem_foldl_put.mpr hs, hk⟩

theorem successors_parentGraph {k : PyAtom} {ps : List PyAtom} :
    CycleSearch.successors PyAtom.key (parentGraph steps) k = some ps ↔
      ∃ s, Rows.Last TrajectoryStep.key steps s ∧ s.key = k ∧ s.parentStepIds = ps := by
  have hfind : CycleSearch.successors PyAtom.key (parentGraph steps) k =
      ((byId steps).find? fun s => s.key = k).map TrajectoryStep.parentStepIds := by
    rw [CycleSearch.successors, parentGraph, List.find?_map, Option.map_map]
    rfl
  rw [hfind, Option.map_eq_some_iff]
  refine exists_congr fun s => ?_
  rw [← and_assoc]
  exact and_congr_left fun _ => Rows.find?_foldl_put

/-- The search walks over the last receipts. -/
theorem edge_parentGraph {k l : PyAtom} :
    CycleSearch.Edge PyAtom.key (parentGraph steps) k l ↔ Listed steps l ∧ LastParent steps k l := by
  have hlisted : (CycleSearch.successors PyAtom.key (parentGraph steps) l).isSome ↔
      Listed steps l := by
    rw [CycleSearch.successors_isSome, ← byId_listed, parentGraph, List.map_map, List.mem_map]
    rfl
  rw [CycleSearch.Edge, hlisted]
  refine and_congr_right fun _ => ⟨?_, ?_⟩
  · rintro ⟨ps, hps, p, hp, hpl⟩
    obtain ⟨s, hs, hk, rfl⟩ := successors_parentGraph.mp hps
    exact ⟨s, hs, hk, p, hp, hpl⟩
  · rintro ⟨s, hs, hk, p, hp, hpl⟩
    exact ⟨s.parentStepIds, successors_parentGraph.mpr ⟨s, hs, hk, rfl⟩, p, hp, hpl⟩

theorem danglingCheck_ok : (danglingCheck py steps).ok = true ↔
    ∀ k l, Parent steps k l → Listed steps l := by
  have hnil : danglingParents steps = [] ↔ ∀ k l, Parent steps k l → Listed steps l := by
    simp only [danglingParents, List.flatMap_eq_nil_iff, List.map_eq_nil_iff,
      List.filter_eq_nil_iff, Bool.not_eq_true', Bool.not_eq_false, List.any_eq_true,
      decide_eq_true_eq, byId_listed]
    constructor
    · rintro h k l ⟨s, hs, -, p, hp, rfl⟩
      exact h s hs p hp
    · exact fun h s hs p hp => h s.key p.key ⟨s, hs, rfl, p, hp, rfl⟩
  rw [← hnil]
  unfold danglingCheck
  split
  · next h => simp [h]
  · next h => simp [h]

theorem acyclicCheck_ok (py : Stdlib) : (acyclicCheck py steps).ok = true ↔
    ∀ k, ¬ TransGen (fun k l => Listed steps l ∧ LastParent steps k l) k k := by
  have hedge : CycleSearch.Edge PyAtom.key (parentGraph steps) =
      fun k l => Listed steps l ∧ LastParent steps k l := by
    funext k l
    exact propext edge_parentGraph
  rw [← hedge, ← CycleSearch.findCycle_spec.2]
  unfold acyclicCheck
  split
  · next h => simp [h]
  · next h => simp [h]

theorem rootCheck_ok : (rootCheck steps).ok = true ↔ ∃ s ∈ steps, s.parentStepIds = [] := by
  unfold rootCheck
  split
  · next h =>
    simpa [List.isEmpty_iff] using h
  · next h =>
    obtain ⟨s, hs⟩ := List.exists_mem_of_ne_nil _ h
    rw [List.mem_filter, List.isEmpty_iff] at hs
    exact ⟨fun _ => ⟨s, hs⟩, fun _ => rfl⟩

/-- A trajectory without a dangling parent or a cycle has a root. -/
theorem exists_root (hne : steps ≠ []) (hpresent : ∀ k l, Parent steps k l → Listed steps l)
    (hacyclic : ∀ k, ¬ TransGen (LastParent steps) k k) : ∃ s ∈ steps, s.parentStepIds = [] := by
  have hkeys : steps.map TrajectoryStep.key ≠ [] := by simpa using hne
  obtain ⟨k, hk, hsink⟩ := CycleSearch.exists_sink hkeys hacyclic
  obtain ⟨t, ht, rfl⟩ := List.mem_map.mp hk
  obtain ⟨s, hs, hst⟩ := Listed.last ⟨t, ht, rfl⟩
  refine ⟨s, hs.mem, List.eq_nil_iff_forall_not_mem.mpr fun p hp => ?_⟩
  obtain ⟨l, hl, hlp⟩ := hpresent s.key p.key ⟨s, hs.mem, rfl, p, hp, rfl⟩
  exact hsink p.key (List.mem_map.mpr ⟨l, hl, hlp⟩) ⟨s, hs, hst, p, hp, rfl⟩

/-- The verdict of the three structural checks. -/
theorem structure_ok (py : Stdlib) (hne : steps ≠ []) : ((danglingCheck py steps).ok = true ∧
      (acyclicCheck py steps).ok = true ∧ (rootCheck steps).ok = true) ↔
    (∀ k l, Parent steps k l → Listed steps l) ∧ ∀ k, ¬ TransGen (LastParent steps) k k := by
  rw [danglingCheck_ok, acyclicCheck_ok, rootCheck_ok]
  refine and_congr_right fun hpresent => ?_
  have hlisted : (fun k l => Listed steps l ∧ LastParent steps k l) = LastParent steps := by
    funext k l
    refine propext ⟨And.right, fun h => ⟨?_, h⟩⟩
    obtain ⟨s, hs, hk, hp⟩ := h
    exact hpresent k l ⟨s, hs.mem, hk, hp⟩
  rw [hlisted]
  exact ⟨And.left, fun h => ⟨h, exists_root hne hpresent h⟩⟩

/-! ## Receipts that can be read -/

/-- What the passes over the receipts read of one. -/
def Reads (r : PyDict) (s : TrajectoryStep) : Prop :=
  receiptIdOf r = .ok s.receiptId ∧ parentStepIdsOf r = .ok s.parentStepIds

/-- The id of a receipt, as a key. -/
def idKey (r : PyDict) : Except PyErr PyAtom := (receiptIdOf r).map PyAtom.key

/-- A receipt with the one id names the other as a parent. -/
def ParentOf (receipts : List PyDict) (k l : PyAtom) : Prop :=
  ∃ r ∈ receipts, ∃ s, Reads r s ∧ s.key = k ∧ ∃ p ∈ s.parentStepIds, p.key = l

/-- The last receipt with the one id names the other as a parent. -/
def LastParentOf (receipts : List PyDict) (k l : PyAtom) : Prop :=
  ∃ r, Rows.Last idKey receipts r ∧ ∃ s, Reads r s ∧ s.key = k ∧ ∃ p ∈ s.parentStepIds, p.key = l

/-- A receipt has the id. -/
def Present (receipts : List PyDict) (k : PyAtom) : Prop := ∃ r ∈ receipts, idKey r = .ok k

/-- No pass over the receipts raises. -/
structure Legible (receipts : List PyDict) (ids : List PyAtom) (steps : List TrajectoryStep) :
    Prop where
  block : ∀ r ∈ receipts, (getOrNone r "trajectory").truthy = true
  ids : List.Forall₂ (fun r a => trajectoryIdOf r = .ok a) receipts ids
  steps : List.Forall₂ Reads receipts steps

theorem reads_zipWith {ids : List PyAtom} {parents : List (List PyAtom)}
    (hids : List.Forall₂ (fun r a => receiptIdOf r = .ok a) receipts ids)
    (hparents : List.Forall₂ (fun r ps => parentStepIdsOf r = .ok ps) receipts parents) :
    List.Forall₂ Reads receipts (List.zipWith TrajectoryStep.mk ids parents) := by
  induction hids generalizing parents with
  | nil => exact .nil
  | cons hid _ ih =>
    cases hparents with | cons hps hparents =>
    exact .cons ⟨hid, hps⟩ (ih hparents)

theorem Legible.receiptIds {ids : List PyAtom} (h : Legible receipts ids steps) :
    buildAll receipts receiptIdOf = .ok (steps.map TrajectoryStep.receiptId) := by
  rw [buildAll_ok, List.forall₂_map_right_iff]
  exact h.steps.imp fun _ _ hr => hr.1

theorem Legible.parents {ids : List PyAtom} (h : Legible receipts ids steps) :
    buildAll receipts parentStepIdsOf = .ok (steps.map TrajectoryStep.parentStepIds) := by
  rw [buildAll_ok, List.forall₂_map_right_iff]
  exact h.steps.imp fun _ _ hr => hr.2

theorem reads_inj {r : PyDict} {s t : TrajectoryStep} (hs : Reads r s) (ht : Reads r t) : s = t := by
  have hid := Except.ok.inj (hs.1.symm.trans ht.1)
  have hps := Except.ok.inj (hs.2.symm.trans ht.2)
  cases s
  cases t
  exact congrArg₂ _ hid hps

/-- The parents of receipts that are known to be read. -/
theorem parentOf_map {α : Type} {f : α → PyDict} {g : α → TrajectoryStep} {l : List α}
    (h : ∀ a ∈ l, Reads (f a) (g a)) {k m : PyAtom} :
    ParentOf (l.map f) k m ↔ ∃ a ∈ l, (g a).key = k ∧ ∃ p ∈ (g a).parentStepIds, p.key = m := by
  constructor
  · rintro ⟨r, hr, s, hs, hrest⟩
    obtain ⟨a, ha, rfl⟩ := List.mem_map.mp hr
    obtain rfl := reads_inj hs (h a ha)
    exact ⟨a, ha, hrest⟩
  · rintro ⟨a, ha, hrest⟩
    exact ⟨f a, List.mem_map_of_mem ha, g a, h a ha, hrest⟩

theorem idKey_reads {r : PyDict} {s : TrajectoryStep} (h : Reads r s) : idKey r = .ok s.key := by
  rw [idKey, h.1]
  rfl

theorem Legible.present {ids : List PyAtom} (h : Legible receipts ids steps) {k : PyAtom} :
    Present receipts k ↔ Listed steps k := by
  constructor
  · rintro ⟨r, hr, hk⟩
    obtain ⟨s, hs, hrs⟩ := Rows.mem_forall₂ h.steps hr
    rw [idKey_reads hrs] at hk
    exact ⟨s, hs, Except.ok.inj hk⟩
  · rintro ⟨s, hs, rfl⟩
    obtain ⟨r, hr, hrs⟩ := Rows.mem_forall₂ h.steps.flip hs
    exact ⟨r, hr, idKey_reads hrs⟩

theorem Legible.parentOf {ids : List PyAtom} (h : Legible receipts ids steps) {k l : PyAtom} :
    ParentOf receipts k l ↔ Parent steps k l := by
  constructor
  · rintro ⟨r, hr, s, hs, hrest⟩
    obtain ⟨t, ht, hrt⟩ := Rows.mem_forall₂ h.steps hr
    exact ⟨s, reads_inj hs hrt ▸ ht, hrest⟩
  · rintro ⟨s, hs, hrest⟩
    obtain ⟨r, hr, hrs⟩ := Rows.mem_forall₂ h.steps.flip hs
    exact ⟨r, hr, s, hrs, hrest⟩

theorem Legible.lastParentOf {ids : List PyAtom} (h : Legible receipts ids steps) {k l : PyAtom} :
    LastParentOf receipts k l ↔ LastParent steps k l := by
  have hkey {r s r' s'} (h : Reads r s) (h' : Reads r' s') : idKey r = idKey r' ↔ s.key = s'.key := by
    rw [idKey_reads h, idKey_reads h', Except.ok.injEq]
  constructor
  · rintro ⟨r, hr, s, hs, hrest⟩
    obtain ⟨t, ht, hrt⟩ := Rows.last_forall₂ h.steps hkey hr
    exact ⟨s, reads_inj hs hrt ▸ ht, hrest⟩
  · rintro ⟨s, hs, hrest⟩
    obtain ⟨r, hr, hrs⟩ := Rows.last_forall₂ h.steps.flip (fun h h' => (hkey h h').symm) hs
    exact ⟨r, hr, s, hrs, hrest⟩

/-! ## The verdict -/

/-- The result, once every pass over the receipts has gone through. -/
theorem auditTrajectoryDag_legible (py : Stdlib) {ids : List PyAtom}
    (h : Legible receipts ids steps) :
    auditTrajectoryDag py receipts = (sharedCheck py (distinct ids)).map fun shared =>
      if shared.ok then
        let checks := [blockCheck py receipts, shared, danglingCheck py steps, acyclicCheck py steps,
          rootCheck steps]
        ⟨checks.all (·.ok), (distinct ids).head?, receipts.length, checks⟩
      else ⟨false, none, receipts.length, [blockCheck py receipts, shared]⟩ := by
  have hzip : List.zipWith TrajectoryStep.mk (steps.map TrajectoryStep.receiptId)
      (steps.map TrajectoryStep.parentStepIds) = steps := by
    rw [List.zipWith_map, List.zipWith_self, List.map_id']
  rw [auditTrajectoryDag, if_pos (blockCheck_ok.mpr h.block), buildAll_ok.mpr h.ids]
  change (sharedCheck py (distinct ids) >>= _) = _
  cases sharedCheck py (distinct ids) with
  | error e => rfl
  | ok shared =>
    change (if shared.ok = true then _ else _) = Except.ok (if shared.ok = true then _ else _)
    split_ifs
    · rw [h.receiptIds, h.parents]
      change Except.ok _ = Except.ok _
      rw [hzip]
    · rfl

/-- An audit that passes has read every receipt. -/
theorem legible_of_ok {res : TrajectoryAuditResult}
    (h : auditTrajectoryDag py receipts = .ok res) (hok : res.ok = true) :
    ∃ ids steps, Legible receipts ids steps := by
  unfold auditTrajectoryDag at h
  dsimp only at h
  split_ifs at h with hblock
  · obtain ⟨ids, hids, h⟩ := bind_ok.mp h
    obtain ⟨shared, -, h⟩ := bind_ok.mp h
    split_ifs at h
    · obtain ⟨receiptIds, hreceiptIds, h⟩ := bind_ok.mp h
      obtain ⟨parents, hparents, -⟩ := bind_ok.mp h
      exact ⟨ids, _, blockCheck_ok.mp hblock, buildAll_ok.mp hids,
        reads_zipWith (buildAll_ok.mp hreceiptIds) (buildAll_ok.mp hparents)⟩
    · rw [← Except.ok.inj h] at hok
      cases hok
  · rw [← Except.ok.inj h] at hok
    cases hok

/-- When the audit of legible receipts passes. -/
theorem audit_ok_iff (py : Stdlib) {ids : List PyAtom} (h : Legible receipts ids steps) :
    (∃ res, auditTrajectoryDag py receipts = .ok res ∧ res.ok = true) ↔
      receipts ≠ [] ∧ (∀ a ∈ ids, ∀ b ∈ ids, a.key = b.key) ∧
      (∀ k l, ParentOf receipts k l → Present receipts l) ∧
      ∀ k, ¬ TransGen (LastParentOf receipts) k k := by
  have hparent : LastParentOf receipts = LastParent steps := by
    funext k l
    exact propext h.lastParentOf
  have hempty : ids ≠ [] ↔ receipts ≠ [] := by
    rw [not_iff_not, ← List.length_eq_zero_iff, ← h.ids.length_eq, List.length_eq_zero_iff]
  have hsteps : receipts ≠ [] ↔ steps ≠ [] := by
    rw [not_iff_not, ← List.length_eq_zero_iff, h.steps.length_eq, List.length_eq_zero_iff]
  rw [auditTrajectoryDag_legible py h, hparent]
  simp only [h.parentOf, h.present]
  constructor
  · rintro ⟨res, hres, hok⟩
    obtain ⟨shared, hshared, rfl⟩ := map_ok.mp hres
    split_ifs at hok with hsharedOk
    · obtain ⟨hne, hids⟩ := (sharedCheck_ok hshared).mp hsharedOk
      simp only [List.all_cons, List.all_nil, Bool.and_true, Bool.and_eq_true] at hok
      have hne' := hempty.mp hne
      exact ⟨hne', hids, (structure_ok py (hsteps.mp hne')).mp hok.2.2⟩
  · rintro ⟨hne, hids, hpresent, hacyclic⟩
    obtain ⟨a, ha⟩ := distinct_single.mpr ⟨hempty.mpr hne, hids⟩
    obtain ⟨hdangling, hcycle, hroot⟩ :=
      (structure_ok py (hsteps.mp hne)).mpr ⟨hpresent, hacyclic⟩
    refine ⟨_, by rw [ha]; rfl, ?_⟩
    simp [blockCheck_ok.mpr h.block, hdangling, hcycle, hroot]

/-- The audit vouches for the whole list: it has receipts, and over all of them no parent is missing
and no cycle is closed. -/
def Vouched (py : Stdlib) (receipts : List PyDict) : Prop :=
  ∀ res, auditTrajectoryDag py receipts = .ok res → res.ok = true →
    receipts ≠ [] ∧ (∀ k l, ParentOf receipts k l → Present receipts l) ∧
    ∀ k, ¬ TransGen (ParentOf receipts) k k

/-- In an otherwise clean list every cycle passes through a receipt that a later one with its id has
replaced. -/
structure HidesCycle (receipts : List PyDict) : Prop where
  shared : ∃ ids steps, Legible receipts ids steps ∧ ∀ a ∈ ids, ∀ b ∈ ids, a.key = b.key
  present : ∀ k l, ParentOf receipts k l → Present receipts l
  cyclic : ∃ k, TransGen (ParentOf receipts) k k
  hidden : ∀ k, ¬ TransGen (LastParentOf receipts) k k

/-- A verdict of the audit is sound exactly where duplicates hide no cycle. -/
theorem audit_sound_iff : Vouched py receipts ↔ ¬ HidesCycle receipts := by
  constructor
  · rintro hvouched ⟨⟨ids, steps, hread, hids⟩, hpresent, ⟨k, hk⟩, hhidden⟩
    have hne : receipts ≠ [] := by
      obtain ⟨l, ⟨r, hr, -⟩, -⟩ := TransGen.head'_iff.mp hk
      exact List.ne_nil_of_mem hr
    obtain ⟨res, hres, hok⟩ := (audit_ok_iff py hread).mpr ⟨hne, hids, hpresent, hhidden⟩
    exact (hvouched res hres hok).2.2 k hk
  · intro hhides res hres hok
    obtain ⟨ids, steps, hread⟩ := legible_of_ok hres hok
    obtain ⟨hne, hids, hpresent, hlast⟩ := (audit_ok_iff py hread).mp ⟨res, hres, hok⟩
    refine ⟨hne, hpresent, fun k hk => hhides ?_⟩
    exact ⟨⟨ids, steps, hread, hids⟩, hpresent, ⟨k, hk⟩, hlast⟩

/-! ## Receipts with distinct identifiers -/

/-- A receipt with a trajectory block: an identifier, and parents that are texts. -/
def Carries (r : PyDict) : Prop :=
  ∃ id t trajectoryId parents, getKey r "receipt_id" = some (.atom id) ∧
    getKey r "trajectory" = some (.dict t) ∧ getKey t "trajectory_id" = some (.str trajectoryId) ∧
    getKey t "parent_step_ids" = some (strList parents)

/-- The receipts form one trajectory. -/
structure CleanTrajectory (receipts : List PyDict) : Prop where
  nonempty : receipts ≠ []
  shared : ∀ r ∈ receipts, ∀ r' ∈ receipts, trajectoryIdOf r = trajectoryIdOf r'
  present : ∀ k l, ParentOf receipts k l → Present receipts l
  acyclic : ∀ k, ¬ TransGen (ParentOf receipts) k k

theorem buildAll_hashable (xs : List String) :
    buildAll (xs.map PyVal.str) hashable = .ok (xs.map PyAtom.str) := by
  rw [buildAll_ok, List.forall₂_map_left_iff, List.forall₂_map_right_iff, List.forall₂_same]
  exact fun _ _ => rfl

theorem Carries.reads {r : PyDict} (h : Carries r) : (getOrNone r "trajectory").truthy = true ∧
    (∃ trajectoryId, trajectoryIdOf r = .ok (.str trajectoryId)) ∧ ∃ s, Reads r s := by
  obtain ⟨id, t, trajectoryId, parents, hid, ht, htid, hparents⟩ := h
  have hblock : trajectoryBlock r = .ok t := by
    rw [trajectoryBlock, subscript, ht]
    rfl
  refine ⟨?_, ⟨trajectoryId, ?_⟩, ⟨id, parents.map .str⟩, ?_, ?_⟩
  · rw [getOrNone, ht]
    cases t with
    | nil => cases htid
    | cons e t => rfl
  · rw [trajectoryIdOf, hblock]
    change (subscript t "trajectory_id" >>= hashable) = _
    rw [subscript, htid]
    rfl
  · rw [receiptIdOf, subscript, hid]
    rfl
  · rw [parentStepIdsOf, hblock]
    change (subscript t "parent_step_ids" >>= fun v => iterate v >>= fun ps =>
      buildAll ps hashable) = _
    rw [subscript, hparents]
    exact buildAll_hashable parents

theorem carried_legible (h : ∀ r ∈ receipts, Carries r) : ∃ ids steps,
    Legible receipts ids steps ∧ ∀ a ∈ ids, ∃ s, a = .str s := by
  induction receipts with
  | nil => exact ⟨[], [], ⟨by simp, .nil, .nil⟩, by simp⟩
  | cons r receipts ih =>
    obtain ⟨hblock, ⟨trajectoryId, htid⟩, s, hs⟩ := (h r List.mem_cons_self).reads
    obtain ⟨ids, steps, hread, hids⟩ := ih fun r hr => h r (List.mem_cons_of_mem _ hr)
    refine ⟨.str trajectoryId :: ids, s :: steps, ⟨?_, .cons htid hread.ids, .cons hs hread.steps⟩,
      List.forall_mem_cons.mpr ⟨⟨_, rfl⟩, hids⟩⟩
    exact List.forall_mem_cons.mpr ⟨hblock, hread.block⟩

theorem shared_iff {ids : List PyAtom} (h : Legible receipts ids steps)
    (hids : ∀ a ∈ ids, ∃ s, a = .str s) : (∀ a ∈ ids, ∀ b ∈ ids, a.key = b.key) ↔
      ∀ r ∈ receipts, ∀ r' ∈ receipts, trajectoryIdOf r = trajectoryIdOf r' := by
  have hkey : ∀ a ∈ ids, a.key = a := by
    intro a ha
    obtain ⟨s, rfl⟩ := hids a ha
    rfl
  constructor
  · intro hall r hr r' hr'
    obtain ⟨a, ha, hra⟩ := Rows.mem_forall₂ h.ids hr
    obtain ⟨b, hb, hrb⟩ := Rows.mem_forall₂ h.ids hr'
    rw [hra, hrb, ← hkey a ha, hall a ha b hb, hkey b hb]
  · intro hall a ha b hb
    obtain ⟨r, hr, hra⟩ := Rows.mem_forall₂ h.ids.flip ha
    obtain ⟨r', hr', hrb⟩ := Rows.mem_forall₂ h.ids.flip hb
    rw [Except.ok.inj (hra.symm.trans ((hall r hr r' hr').trans hrb))]

theorem lastParentOf_distinct (h : (receipts.map idKey).Nodup) :
    LastParentOf receipts = ParentOf receipts := by
  classical
  funext k l
  exact propext (exists_congr fun r => and_congr_left fun _ => Rows.last_of_nodup h)

/-- The verdict on receipts with distinct identifiers. -/
theorem audit_carried (py : Stdlib) (hcarries : ∀ r ∈ receipts, Carries r)
    (hdistinct : (receipts.map idKey).Nodup) : ∃ res, auditTrajectoryDag py receipts = .ok res ∧
      (res.ok = true ↔ CleanTrajectory receipts) := by
  obtain ⟨ids, steps, hread, hids⟩ := carried_legible hcarries
  obtain ⟨shared, hshared⟩ := sharedCheck_total py hids
  have hres := auditTrajectoryDag_legible py hread
  rw [hshared] at hres
  refine ⟨_, hres, ?_⟩
  have hiff := audit_ok_iff py hread
  rw [hres, shared_iff hread hids, lastParentOf_distinct hdistinct] at hiff
  refine Iff.trans ⟨fun hok => ⟨_, rfl, hok⟩, ?_⟩ (hiff.trans ?_)
  · rintro ⟨res, hr, hok⟩
    rwa [← Except.ok.inj hr] at hok
  · exact ⟨fun ⟨h1, h2, h3, h4⟩ => ⟨h1, h2, h3, h4⟩, fun h => ⟨h.1, h.2, h.3, h.4⟩⟩

theorem CleanTrajectory.perm {receipts' : List PyDict} (hp : receipts'.Perm receipts) :
    CleanTrajectory receipts' ↔ CleanTrajectory receipts := by
  have hparent : ParentOf receipts' = ParentOf receipts := by
    funext k l
    simp only [ParentOf, hp.mem_iff]
  have hpresent : Present receipts' = Present receipts := by
    funext k
    simp only [Present, hp.mem_iff]
  have hne : receipts' = [] ↔ receipts = [] := ⟨fun h => (h ▸ hp).symm.eq_nil, fun h => (h ▸ hp).eq_nil⟩
  constructor
  · rintro ⟨h1, h2, h3, h4⟩
    rw [hparent] at h3 h4
    rw [hpresent] at h3
    exact ⟨mt hne.mpr h1, fun r hr r' hr' => h2 r (hp.mem_iff.mpr hr) r' (hp.mem_iff.mpr hr'), h3, h4⟩
  · rintro ⟨h1, h2, h3, h4⟩
    rw [← hparent] at h3 h4
    rw [← hpresent] at h3
    exact ⟨mt hne.mp h1, fun r hr r' hr' => h2 r (hp.mem_iff.mp hr) r' (hp.mem_iff.mp hr'), h3, h4⟩

theorem blockCheck_name (py : Stdlib) (receipts : List PyDict) :
    (blockCheck py receipts).name = "has_trajectory_block" := by
  unfold blockCheck
  split <;> rfl

theorem sharedCheck_name {ids : List PyAtom} {c : TrajectoryCheck}
    (h : sharedCheck py ids = .ok c) : c.name = "shared_trajectory_id" := by
  unfold sharedCheck at h
  split at h
  · rw [← Except.ok.inj h]
  · split_ifs at h
    rw [← Except.ok.inj h]

theorem danglingCheck_name (py : Stdlib) (steps : List TrajectoryStep) :
    (danglingCheck py steps).name = "no_dangling_parents" := by
  unfold danglingCheck
  split <;> rfl

theorem rootCheck_name (steps : List TrajectoryStep) : (rootCheck steps).name = "has_root_step" := by
  unfold rootCheck
  split <;> rfl

/-- The check for cycles looks at the parents that are in the list. -/
theorem acyclic_reported {ids : List PyAtom} (h : Legible receipts ids steps)
    (hdistinct : (receipts.map idKey).Nodup) {res : TrajectoryAuditResult}
    (hres : auditTrajectoryDag py receipts = .ok res) :
    ∀ c ∈ res.checks, c.name = "dag_acyclic" →
      (c.ok = true ↔ ∀ k, ¬ TransGen (fun k l => ParentOf receipts k l ∧ Present receipts l) k k) := by
  have hrestricted : (fun k l => ParentOf receipts k l ∧ Present receipts l) =
      fun k l => Listed steps l ∧ LastParent steps k l := by
    funext k l
    rw [← lastParentOf_distinct hdistinct, h.lastParentOf, h.present, and_comm]
  rw [hrestricted, ← acyclicCheck_ok py]
  rw [auditTrajectoryDag_legible py h] at hres
  obtain ⟨shared, hshared, rfl⟩ := map_ok.mp hres
  have hblock := blockCheck_name py receipts
  have hname := sharedCheck_name hshared
  split_ifs
  · intro c hc hcname
    have hdangling := danglingCheck_name py steps
    have hroot := rootCheck_name steps
    simp only [List.mem_cons, List.not_mem_nil, or_false] at hc
    obtain rfl | rfl | rfl | rfl | rfl := hc <;> simp_all
  · intro c hc hcname
    simp only [List.mem_cons, List.not_mem_nil, or_false] at hc
    obtain rfl | rfl := hc <;> simp_all

/-- The audit of receipts with distinct identifiers is exact, and blind to their order. -/
theorem audit_exact (py : Stdlib) (receipts : List PyDict) (hcarries : ∀ r ∈ receipts, Carries r)
    (hdistinct : (receipts.map idKey).Nodup) : ∃ res, auditTrajectoryDag py receipts = .ok res ∧
      (res.ok = true ↔ receipts ≠ [] ∧
        (∀ r ∈ receipts, ∀ r' ∈ receipts, trajectoryIdOf r = trajectoryIdOf r') ∧
        (∀ k l, ParentOf receipts k l → Present receipts l) ∧
        ∀ k, ¬ TransGen (ParentOf receipts) k k) ∧
      (∀ c ∈ res.checks, c.name = "dag_acyclic" → (c.ok = true ↔
        ∀ k, ¬ TransGen (fun k l => ParentOf receipts k l ∧ Present receipts l) k k)) ∧
      ∀ receipts', receipts'.Perm receipts →
        ∃ res', auditTrajectoryDag py receipts' = .ok res' ∧ res'.ok = res.ok := by
  obtain ⟨ids, steps, hread, -⟩ := carried_legible hcarries
  obtain ⟨res, hres, hok⟩ := audit_carried py hcarries hdistinct
  refine ⟨res, hres, hok.trans ⟨fun h => ⟨h.1, h.2, h.3, h.4⟩, fun ⟨h1, h2, h3, h4⟩ => ⟨h1, h2, h3, h4⟩⟩,
    acyclic_reported hread hdistinct hres, fun receipts' hp => ?_⟩
  obtain ⟨res', hres', hok'⟩ := audit_carried py (fun r hr => hcarries r (hp.mem_iff.mp hr))
    ((hp.map idKey).nodup_iff.mpr hdistinct)
  exact ⟨res', hres', Bool.eq_iff_iff.mpr (hok'.trans ((CleanTrajectory.perm hp).trans hok.symm))⟩

end

namespace Sample

/-- A receipt with the parts that the audit reads. -/
def linked (receiptId : String) (parents : List String) : PyDict :=
  [(.str "receipt_id", .str receiptId), (.str "trajectory", .dict [(.str "trajectory_id",
    .str "trj_0"), (.str "parent_step_ids", strList parents)])]

theorem linked_reads (receiptId : String) (parents : List String) :
    Reads (linked receiptId parents) ⟨.str receiptId, parents.map .str⟩ :=
  ⟨rfl, buildAll_hashable parents⟩

theorem linked_parentOf {items : List (String × List String)} {k l : PyAtom} :
    ParentOf (items.map fun e => linked e.1 e.2) k l ↔
      ∃ e ∈ items, .str e.1 = k ∧ ∃ p ∈ e.2, .str p = l := by
  rw [parentOf_map fun e _ => linked_reads e.1 e.2]
  simp only [List.mem_map, exists_exists_and_eq_and]
  rfl

theorem linked_carries (receiptId : String) (parents : List String) :
    Carries (linked receiptId parents) :=
  ⟨.str receiptId, _, "trj_0", parents, rfl, rfl, rfl, rfl⟩

/-- A root, and a step after it. -/
def chain : List PyDict := [("a", []), ("b", ["a"])].map fun e => linked e.1 e.2

/-- Two receipts share an identifier; the first of them closes a cycle, the second names no parent. -/
def replaced : List PyDict := [("a", ["b"]), ("a", []), ("b", ["a"])].map fun e => linked e.1 e.2

end Sample

theorem audit_exact_sample :
    ∃ res, auditTrajectoryDag Stdlib.blank Sample.chain = .ok res ∧ res.ok = true := by
  have hcarries : ∀ r ∈ Sample.chain, Carries r := by
    intro r hr
    obtain ⟨e, -, rfl⟩ := List.mem_map.mp hr
    exact Sample.linked_carries e.1 e.2
  have hdistinct : (Sample.chain.map idKey).Nodup := by
    change [Except.ok (PyAtom.str "a"), Except.ok (.str "b")].Nodup
    simp
  have hedge {k l : PyAtom} (h : ParentOf Sample.chain k l) : k = .str "b" ∧ l = .str "a" := by
    obtain ⟨e, he, rfl, p, hp, rfl⟩ := Sample.linked_parentOf.mp h
    obtain rfl | rfl := List.mem_pair.mp he
    · cases hp
    · exact ⟨rfl, by rw [List.mem_singleton.mp hp]⟩
  obtain ⟨res, hres, hok, -⟩ := audit_exact Stdlib.blank Sample.chain hcarries hdistinct
  refine ⟨res, hres, hok.mpr ⟨by simp [Sample.chain], ?_, ?_, ?_⟩⟩
  · intro r hr r' hr'
    obtain ⟨e, -, rfl⟩ := List.mem_map.mp hr
    obtain ⟨e', -, rfl⟩ := List.mem_map.mp hr'
    rfl
  · intro k l h
    obtain ⟨-, rfl⟩ := hedge h
    exact ⟨Sample.linked "a" [], by simp [Sample.chain], rfl⟩
  · refine CycleSearch.acyclic_of_rank (fun k => if k = .str "b" then 1 else 0) fun k l h => ?_
    obtain ⟨rfl, rfl⟩ := hedge h
    simp

/-- A duplicate hides a cycle: the audit passes, and two receipts are each other's parents. -/
theorem duplicate_hides_cycle :
    (∃ res, auditTrajectoryDag Stdlib.blank Sample.replaced = .ok res ∧ res.ok = true) ∧
    TransGen (ParentOf Sample.replaced) (.str "a") (.str "a") := by
  have hcarries : ∀ r ∈ Sample.replaced, Carries r := by
    intro r hr
    obtain ⟨e, -, rfl⟩ := List.mem_map.mp hr
    exact Sample.linked_carries e.1 e.2
  obtain ⟨ids, steps, hread, hids⟩ := carried_legible hcarries
  have hedge {k l : PyAtom} (h : LastParentOf Sample.replaced k l) : k = .str "b" ∧ l = .str "a" := by
    obtain ⟨r, hr, s, hs, hk, p, hp, hl⟩ := h
    obtain ⟨rfl, hlater⟩ | hr := Rows.last_cons.mp hr
    · exact absurd rfl (hlater (Sample.linked "a" []) (by simp))
    · have hin : ParentOf (List.map (fun e => Sample.linked e.1 e.2) [("a", []), ("b", ["a"])]) k l :=
        ⟨r, hr.mem, s, hs, hk, p, hp, hl⟩
      obtain ⟨e, he, rfl, p, hp, rfl⟩ := Sample.linked_parentOf.mp hin
      obtain rfl | rfl := List.mem_pair.mp he
      · cases hp
      · exact ⟨rfl, by rw [List.mem_singleton.mp hp]⟩
  refine ⟨(audit_ok_iff Stdlib.blank hread).mpr ⟨by simp [Sample.replaced], ?_, ?_, ?_⟩, ?_⟩
  · refine (shared_iff hread hids).mpr fun r hr r' hr' => ?_
    obtain ⟨e, -, rfl⟩ := List.mem_map.mp hr
    obtain ⟨e', -, rfl⟩ := List.mem_map.mp hr'
    rfl
  · intro k l h
    obtain ⟨e, he, -, p, hp, rfl⟩ := Sample.linked_parentOf.mp h
    have hp' : p = "a" ∨ p = "b" := by
      simp only [List.mem_cons, List.not_mem_nil, or_false] at he
      obtain rfl | rfl | rfl := he <;> simp_all
    obtain rfl | rfl := hp'
    · exact ⟨Sample.linked "a" [], by simp [Sample.replaced], rfl⟩
    · exact ⟨Sample.linked "b" ["a"], by simp [Sample.replaced], rfl⟩
  · refine CycleSearch.acyclic_of_rank (fun k => if k = .str "b" then 1 else 0) fun k l h => ?_
    obtain ⟨rfl, rfl⟩ := hedge h
    simp
  · have hab : ParentOf Sample.replaced (.str "a") (.str "b") :=
      Sample.linked_parentOf.mpr ⟨("a", ["b"]), by simp, rfl, "b", by simp, rfl⟩
    have hba : ParentOf Sample.replaced (.str "b") (.str "a") :=
      Sample.linked_parentOf.mpr ⟨("b", ["a"]), by simp, rfl, "a", by simp, rfl⟩
    exact (TransGen.single hab).tail hba

end Provenex
