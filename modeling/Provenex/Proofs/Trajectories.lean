import Provenex.Proofs.Emission
import Provenex.Proofs.Fields
import Provenex.Proofs.TrajectoryAudit

/-! Every trajectory that a program can issue audits clean, as does every part of it
that is closed under parents. -/

namespace Provenex

open Guard Relation

/-! ## Programs -/

/-- What a program holds: the cursors it was handed, the receipts it issued, and its session. -/
structure RunState (σ : Type) where
  cursors : List TrajectoryContext
  receipts : List ProvenanceReceipt
  session : Option (ProvenexCrewSession σ)

/-- Only what `start_trajectory` returned, or a fresh session. -/
inductive Begins {σ : Type} : RunState σ → Prop
  | started (trajectoryId now : String) (agentId stepKind sessionId : Option String) :
    Begins ⟨[.start trajectoryId now agentId stepKind sessionId], [], none⟩
  | session {index : ProvenanceIndex σ} {signer : Option ReceiptSigner} {policy : PolicyArg}
    {fingerprinter : Option Fingerprinter} {agentId : Option String} {trajectoryId now : String}
    {c : ProvenexCrewSession σ} (h : ProvenexCrewSession.init index signer policy fingerprinter agentId
      trajectoryId now = .ok c) : Begins ⟨[c.trajectory], [], some c⟩

/-- One call of the program that returns: an emission under a cursor it holds, a step without one,
or a method of the session. -/
inductive Calls (py : Stdlib) {σ : Type} (s : RunState σ) : RunState σ → Prop
  | verifyChunks {σ' : Type} {index : ProvenanceIndex σ'} {args : VerifyArgs} {issue : Issue}
    {st st' : σ'} {out : VerifiedChunks} {t : TrajectoryContext} (ht : t ∈ s.cursors)
    (hargs : args.trajectory = some t)
    (h : Provenex.verifyChunks py index args issue st = .ok out st') :
    Calls py s { s with
      cursors := s.cursors ++ out.nextTrajectory.toList
      receipts := s.receipts ++ [out.receipt] }
  | admissionCheck {tool : ToolCallContext} {request : RequestContext} {args : AdmissionArgs}
    {issue : Issue} {result : AdmissionResult} {t : TrajectoryContext} (ht : t ∈ s.cursors)
    (hargs : args.trajectory = some t)
    (h : Provenex.admissionCheck py tool request args issue = .ok result) :
    Calls py s { s with
      cursors := s.cursors ++ result.nextTrajectory.toList
      receipts := s.receipts ++ [result.receipt] }
  | nextStep {t next : TrajectoryContext} {parents : List ProvenanceReceipt}
    {stepKind agentId sessionId : Option String} (ht : t ∈ s.cursors)
    (hparents : ∀ r ∈ parents, r ∈ s.receipts)
    (h : t.nextStep (parents.map fun r => some r.receiptId) [] stepKind agentId sessionId =
      .ok next) :
    Calls py s { s with cursors := s.cursors ++ [next] }
  | sessionVerify {c c' : ProvenexCrewSession σ} {chunks : Chunks} {stepKind outputText : String}
    {agentId : Option String} {issue : Issue} {st st' : σ} {out : VerifiedChunks}
    (hc : s.session = some c)
    (h : c.verifyChunks py chunks stepKind agentId outputText issue st = .ok (out, c') st') :
    Calls py s ⟨s.cursors ++ [c'.trajectory], s.receipts ++ [out.receipt], some c'⟩
  | sessionAdmit {c c' : ProvenexCrewSession σ} {tool : ToolCallContext} {request : RequestContext}
    {stepKind outputText : String} {agentId : Option String}
    {redactParameters redactInputs : Bool} {issue : Issue} {result : AdmissionResult}
    (hc : s.session = some c)
    (h : c.admissionCheck py tool request stepKind agentId outputText redactParameters redactInputs
      issue = .ok (result, c')) :
    Calls py s ⟨s.cursors ++ [c'.trajectory], s.receipts ++ [result.receipt], some c'⟩
  | sessionAdvance {c c' : ProvenexCrewSession σ} {parents : Option (List ProvenanceReceipt)}
    {stepKind agentId : Option String} {next : TrajectoryContext} (hc : s.session = some c)
    (hparents : ∀ rs ∈ parents, ∀ r ∈ rs, r ∈ s.receipts)
    (h : c.advance parents stepKind agentId = .ok (next, c')) :
    Calls py s { s with cursors := s.cursors ++ [next], session := some c' }

/-! ## The invariant -/

/-- The receipt names the other, by its id, as a parent. -/
def LinksTo (r : ProvenanceReceipt) (id : String) : Prop :=
  ∃ t : TrajectoryContext, r.trajectory = some t.toDict ∧ id ∈ t.parentStepIds

/-- A receipt of the trajectory, issued after those whose ids are given. -/
def IssuedAfter (trajectoryId : String) (ids : List String) (r : ProvenanceReceipt) : Prop :=
  ∃ t : TrajectoryContext, r.trajectory = some t.toDict ∧ t.trajectoryId = trajectoryId ∧
    ∀ p ∈ t.parentStepIds, p ∈ ids

/-- Receipts that name only earlier ones. -/
def Grounded (trajectoryId : String) (receipts : List ProvenanceReceipt) : Prop :=
  ∀ before r after, receipts = before ++ r :: after →
    IssuedAfter trajectoryId (before.map (·.receiptId)) r

structure RunInv {σ : Type} (trajectoryId : String) (s : RunState σ) : Prop where
  cursors : ∀ t ∈ s.cursors, t.trajectoryId = trajectoryId ∧
    ∀ p ∈ t.parentStepIds, p ∈ s.receipts.map (·.receiptId)
  session : ∀ c ∈ s.session, c.trajectory ∈ s.cursors
  receipts : Grounded trajectoryId s.receipts

theorem Grounded.snoc {trajectoryId : String} {receipts : List ProvenanceReceipt}
    {r : ProvenanceReceipt} (h : Grounded trajectoryId receipts)
    (hr : IssuedAfter trajectoryId (receipts.map (·.receiptId)) r) :
    Grounded trajectoryId (receipts ++ [r]) := by
  intro before r' after heq
  obtain rfl | ⟨after, x, rfl⟩ := List.eq_nil_or_concat after
  · obtain ⟨rfl, hrr⟩ := List.append_inj' heq rfl
    obtain rfl := List.singleton_inj.mp hrr
    exact hr
  · rw [List.concat_eq_append, ← List.cons_append, ← List.append_assoc] at heq
    obtain ⟨rfl, -⟩ := List.append_inj' heq rfl
    exact h before r' after rfl

section

variable {σ : Type} {py : Stdlib} {trajectoryId : String} {s s' : RunState σ}

theorem begins_inv (h : Begins s) : ∃ trajectoryId, RunInv trajectoryId s := by
  have hnone (trajectoryId : String) : Grounded trajectoryId [] := by
    intro before r after heq
    simp at heq
  cases h with
  | started trajectoryId now agentId stepKind sessionId =>
    exact ⟨trajectoryId, by simp [TrajectoryContext.start], by simp, hnone _⟩
  | @session index signer policy fingerprinter agentId trajectoryId now c h =>
    obtain ⟨p, -, h⟩ := Guard.bind_ok.mp h
    obtain rfl := Except.ok.inj h
    exact ⟨trajectoryId, by simp [TrajectoryContext.start], by simp, hnone _⟩

/-- A new receipt under a cursor that the program holds, and the cursor after it. -/
theorem RunInv.emit {t next : TrajectoryContext} {receipt : ProvenanceReceipt}
    {x y : Option String} {session : Option (ProvenexCrewSession σ)} (h : RunInv trajectoryId s)
    (ht : t ∈ s.cursors) (hfollows : Follows t receipt next x y)
    (hsession : ∀ c ∈ session, c.trajectory ∈ s.cursors ++ [next]) :
    RunInv trajectoryId ⟨s.cursors ++ [next], s.receipts ++ [receipt], session⟩ := by
  obtain ⟨htid, hparents⟩ := h.cursors t ht
  obtain ⟨e, he, heid, heparents, -⟩ := hfollows.block
  constructor
  · intro u hu
    simp only [List.map_append, List.mem_append]
    obtain hu | hu := List.mem_append.mp hu
    · exact ⟨(h.cursors u hu).1, fun p hp => .inl ((h.cursors u hu).2 p hp)⟩
    · obtain rfl := List.mem_singleton.mp hu
      refine ⟨hfollows.trajectoryId.trans htid, fun p hp => .inr ?_⟩
      rwa [hfollows.parents] at hp
  · exact hsession
  · exact h.receipts.snoc ⟨e, he, heid.trans htid, heparents ▸ hparents⟩

/-- A cursor that was stepped on without a receipt. -/
theorem RunInv.hold {t next : TrajectoryContext} {session : Option (ProvenexCrewSession σ)}
    (h : RunInv trajectoryId s) (ht : t ∈ s.cursors) (hid : next.trajectoryId = t.trajectoryId)
    (hparents : ∀ p ∈ next.parentStepIds, p ∈ s.receipts.map (·.receiptId))
    (hsession : ∀ c ∈ session, c.trajectory ∈ s.cursors ++ [next]) :
    RunInv trajectoryId ⟨s.cursors ++ [next], s.receipts, session⟩ := by
  refine ⟨fun u hu => ?_, hsession, h.receipts⟩
  obtain hu | hu := List.mem_append.mp hu
  · exact h.cursors u hu
  · obtain rfl := List.mem_singleton.mp hu
    exact ⟨hid.trans (h.cursors t ht).1, hparents⟩

theorem calls_inv (h : RunInv trajectoryId s) (hcall : Calls py s s') : RunInv trajectoryId s' := by
  have hkept (next : TrajectoryContext) : ∀ c ∈ s.session, c.trajectory ∈ s.cursors ++ [next] :=
    fun c hc => List.mem_append_left _ (h.session c hc)
  cases hcall with
  | @verifyChunks _ _ _ _ _ _ out t ht hargs hout =>
    obtain ⟨next, hnext, hfollows⟩ := verifyChunks_follows hargs hout
    rw [hnext]
    exact h.emit ht hfollows (hkept next)
  | @admissionCheck _ _ _ _ result t ht hargs hresult =>
    obtain ⟨next, hnext, hfollows⟩ := admissionCheck_follows hargs hresult
    rw [hnext]
    exact h.emit ht hfollows (hkept next)
  | @nextStep t next parents stepKind agentId sessionId ht hparents hnext =>
    obtain ⟨n, hn, hid, hids, -⟩ := nextStep_links t parents [] stepKind agentId sessionId
    obtain rfl := Except.ok.inj (hn.symm.trans hnext)
    refine h.hold ht hid (fun p hp => ?_) (hkept n)
    rw [hids, List.append_nil] at hp
    obtain ⟨r, hr, rfl⟩ := List.mem_map.mp hp
    exact List.mem_map_of_mem (hparents r hr)
  | @sessionVerify c c' _ _ _ _ _ _ _ out hc hout =>
    have hfollows := (ProvenexCrewSession.verifyChunks_follows hout).1
    exact h.emit (h.session c hc) hfollows (by simp)
  | @sessionAdmit c c' _ _ _ _ _ _ _ _ result hc hresult =>
    have hfollows := (ProvenexCrewSession.admissionCheck_follows hresult).1
    exact h.emit (h.session c hc) hfollows (by simp)
  | @sessionAdvance c c' parents _ _ next hc hparents hnext =>
    obtain ⟨rfl, hid, -, hids⟩ := ProvenexCrewSession.advance_links hnext
    refine h.hold (h.session c hc) hid (fun p hp => ?_) (by simp)
    rw [hids] at hp
    cases parents with
    | none => exact (h.cursors _ (h.session c hc)).2 p hp
    | some rs =>
      obtain ⟨r, hr, rfl⟩ := List.mem_map.mp hp
      exact List.mem_map_of_mem (hparents rs rfl r hr)

theorem run_inv (h : RunInv trajectoryId s) (hrun : ReflTransGen (Calls py) s s') :
    RunInv trajectoryId s' := by
  induction hrun with
  | refl => exact h
  | tail _ hcall ih => exact calls_inv ih hcall

end

/-! ## The audit -/

section

variable {r : ProvenanceReceipt} {t : TrajectoryContext}

theorem receipt_trajectory (h : r.trajectory = some t.toDict) :
    getKey r.toDict "trajectory" = some (.dict t.toDict) := by
  refine (getOrNone_eq (by simp)).mp ?_
  rw [r.get_trajectory, h]
  rfl

theorem block_ids (t : TrajectoryContext) :
    getKey t.toDict "trajectory_id" = some (.str t.trajectoryId) ∧
      getKey t.toDict "parent_step_ids" = some (strList t.parentStepIds) := by
  simp [TrajectoryContext.toDict, getKey_cons]

theorem issued_carries (h : r.trajectory = some t.toDict) : Carries r.toDict :=
  ⟨.str r.receiptId, t.toDict, t.trajectoryId, t.parentStepIds, r.get_receiptId, receipt_trajectory h,
    (block_ids t).1, (block_ids t).2⟩

theorem issued_block (h : r.trajectory = some t.toDict) : trajectoryBlock r.toDict = .ok t.toDict := by
  rw [trajectoryBlock, subscript, receipt_trajectory h]
  rfl

theorem issued_reads (h : r.trajectory = some t.toDict) :
    Reads r.toDict ⟨.str r.receiptId, t.parentStepIds.map .str⟩ := by
  constructor
  · rw [receiptIdOf, subscript, ProvenanceReceipt.get_receiptId]
    rfl
  · rw [parentStepIdsOf, issued_block h]
    change (subscript t.toDict "parent_step_ids" >>= fun v => iterate v >>= fun ps =>
      buildAll ps hashable) = _
    rw [subscript, (block_ids t).2]
    exact buildAll_hashable t.parentStepIds

theorem issued_trajectoryId (h : r.trajectory = some t.toDict) :
    trajectoryIdOf r.toDict = .ok (.str t.trajectoryId) := by
  rw [trajectoryIdOf, issued_block h]
  change (subscript t.toDict "trajectory_id" >>= hashable) = _
  rw [subscript, (block_ids t).1]
  rfl

theorem linksTo_iff (h : r.trajectory = some t.toDict) {p : String} :
    LinksTo r p ↔ p ∈ t.parentStepIds := by
  refine ⟨fun ⟨u, hu, hp⟩ => ?_, fun hp => ⟨t, h, hp⟩⟩
  have hdict : u.toDict = t.toDict := Option.some.inj (hu.symm.trans h)
  have hids : strList u.parentStepIds = strList t.parentStepIds := by
    have hget := (block_ids u).2
    rw [hdict, (block_ids t).2] at hget
    exact (Option.some.inj hget).symm
  have hstr : Function.Injective PyVal.str := fun a b hab => by injection hab with hab; injection hab
  rwa [← List.map_injective_iff.mpr hstr (PyVal.list.inj hids)]

end

/-- Some of the receipts of a trajectory, in any order. -/
structure Part (trajectoryId : String) (receipts sub : List ProvenanceReceipt) : Prop where
  grounded : Grounded trajectoryId receipts
  distinct : (receipts.map (·.receiptId)).Nodup
  sub : sub.Subperm receipts

namespace Part

variable {trajectoryId : String} {receipts sub : List ProvenanceReceipt}

theorem issued (h : Part trajectoryId receipts sub) {r : ProvenanceReceipt} (hr : r ∈ sub) :
    ∃ t : TrajectoryContext, r.trajectory = some t.toDict ∧ t.trajectoryId = trajectoryId := by
  obtain ⟨before, after, heq⟩ := List.append_of_mem (h.sub.subset hr)
  obtain ⟨t, ht, hid, -⟩ := h.grounded before r after heq
  exact ⟨t, ht, hid⟩

theorem parentOf (h : Part trajectoryId receipts sub) {k l : PyAtom} :
    ParentOf (sub.map (·.toDict)) k l ↔
      ∃ r ∈ sub, .str r.receiptId = k ∧ ∃ p, LinksTo r p ∧ .str p = l := by
  constructor
  · rintro ⟨d, hd, s, hs, hk, p, hp, hl⟩
    obtain ⟨r, hr, rfl⟩ := List.mem_map.mp hd
    obtain ⟨t, ht, -⟩ := h.issued hr
    obtain rfl := reads_inj hs (issued_reads ht)
    obtain ⟨q, hq, rfl⟩ := List.mem_map.mp hp
    exact ⟨r, hr, hk, q, ⟨t, ht, hq⟩, hl⟩
  · rintro ⟨r, hr, hk, p, ⟨t, ht, hp⟩, hl⟩
    exact ⟨r.toDict, List.mem_map_of_mem hr, _, issued_reads ht, hk, .str p, List.mem_map_of_mem hp, hl⟩

theorem idKey_eq (h : Part trajectoryId receipts sub) {r : ProvenanceReceipt} (hr : r ∈ sub) :
    idKey r.toDict = .ok (.str r.receiptId) := by
  obtain ⟨t, ht, -⟩ := h.issued hr
  exact idKey_reads (issued_reads ht)

theorem present (h : Part trajectoryId receipts sub) {id : String} :
    Present (sub.map (·.toDict)) (.str id) ↔ ∃ r ∈ sub, r.receiptId = id := by
  constructor
  · rintro ⟨d, hd, hid⟩
    obtain ⟨r, hr, rfl⟩ := List.mem_map.mp hd
    rw [h.idKey_eq hr] at hid
    exact ⟨r, hr, PyAtom.str.inj (Except.ok.inj hid)⟩
  · rintro ⟨r, hr, rfl⟩
    exact ⟨r.toDict, List.mem_map_of_mem hr, h.idKey_eq hr⟩

/-- Receipts are ranked by when they were issued. -/
def issuedAt (receipts : List ProvenanceReceipt) : PyAtom → ℕ
  | .str id => (receipts.map (·.receiptId)).idxOf id
  | _ => 0

theorem acyclic (h : Part trajectoryId receipts sub) (k : PyAtom) :
    ¬ TransGen (ParentOf (sub.map (·.toDict))) k k := by
  refine CycleSearch.acyclic_of_rank (issuedAt receipts) (fun k l hkl => ?_) k
  obtain ⟨r, hr, rfl, p, hp, rfl⟩ := h.parentOf.mp hkl
  obtain ⟨before, after, rfl⟩ := List.append_of_mem (h.sub.subset hr)
  obtain ⟨t, ht, -, hparents⟩ := h.grounded before r after rfl
  have hearlier := hparents p ((linksTo_iff ht).mp hp)
  have hnodup := h.distinct
  rw [List.map_append, List.map_cons] at hnodup
  have hnew : r.receiptId ∉ before.map (·.receiptId) := fun hin =>
    (List.nodup_append.mp hnodup).2.2 _ hin _ List.mem_cons_self rfl
  change List.idxOf p _ < List.idxOf r.receiptId _
  rw [List.map_append, List.map_cons, List.idxOf_append_of_mem hearlier,
    List.idxOf_append_of_notMem hnew, List.idxOf_cons_self, Nat.add_zero]
  exact List.idxOf_lt_length_of_mem hearlier

/-- A part of the trajectory audits clean exactly where it is closed under parents. -/
theorem audits (py : Stdlib) (h : Part trajectoryId receipts sub) (hne : sub ≠ []) :
    ∃ res, auditTrajectoryDag py (sub.map (·.toDict)) = .ok res ∧ (res.ok = true ↔
      ∀ r ∈ sub, ∀ p, LinksTo r p → ∃ r' ∈ sub, r'.receiptId = p) := by
  have hcarries : ∀ d ∈ sub.map (·.toDict), Carries d := by
    intro d hd
    obtain ⟨r, hr, rfl⟩ := List.mem_map.mp hd
    obtain ⟨t, ht, -⟩ := h.issued hr
    exact issued_carries ht
  have hdistinct : ((sub.map (·.toDict)).map idKey).Nodup := by
    have hkeys : (sub.map (·.toDict)).map idKey =
        (sub.map (·.receiptId)).map fun id => (Except.ok (.str id) : Except PyErr PyAtom) := by
      rw [List.map_map, List.map_map]
      exact List.map_congr_left fun r hr => h.idKey_eq hr
    rw [hkeys]
    refine List.Nodup.map (fun a b hab => PyAtom.str.inj (Except.ok.inj hab)) ?_
    obtain ⟨l, hl, hsub⟩ := h.sub
    exact ((hl.map (·.receiptId)).nodup_iff.mp (h.distinct.sublist (hsub.map _)))
  obtain ⟨res, hres, hok⟩ := audit_carried py hcarries hdistinct
  refine ⟨res, hres, hok.trans ⟨fun hclean r hr p hp => ?_, fun hclosed => ?_⟩⟩
  · exact h.present.mp (hclean.present _ _ (h.parentOf.mpr ⟨r, hr, rfl, p, hp, rfl⟩))
  · refine ⟨by simpa using hne, ?_, fun k l hkl => ?_, h.acyclic⟩
    · intro d hd d' hd'
      obtain ⟨r, hr, rfl⟩ := List.mem_map.mp hd
      obtain ⟨r', hr', rfl⟩ := List.mem_map.mp hd'
      obtain ⟨t, ht, hid⟩ := h.issued hr
      obtain ⟨t', ht', hid'⟩ := h.issued hr'
      rw [issued_trajectoryId ht, issued_trajectoryId ht', hid, hid']
    · obtain ⟨r, hr, -, p, hp, rfl⟩ := h.parentOf.mp hkl
      exact h.present.mpr (hclosed r hr p hp)

end Part

/-- Every trajectory that a program issues audits clean, and so do its parts that are closed under
parents; a part that lacks a parent does not. -/
theorem emitted_audits (py : Stdlib) {σ : Type} {s₀ s : RunState σ} (hbegins : Begins s₀)
    (hrun : ReflTransGen (Calls py) s₀ s) (hdistinct : (s.receipts.map (·.receiptId)).Nodup) :
    (s.receipts ≠ [] → ∃ res, auditTrajectoryDag py (s.receipts.map (·.toDict)) = .ok res ∧
      res.ok = true) ∧
    (∀ sub : List ProvenanceReceipt, sub.Subperm s.receipts → sub ≠ [] →
      (∀ r ∈ sub, ∀ r' ∈ s.receipts, LinksTo r r'.receiptId → r' ∈ sub) →
      ∃ res, auditTrajectoryDag py (sub.map (·.toDict)) = .ok res ∧ res.ok = true) ∧
    ∀ sub : List ProvenanceReceipt, sub.Subperm s.receipts →
      (∃ r ∈ sub, ∃ r' ∈ s.receipts, LinksTo r r'.receiptId ∧ r' ∉ sub) →
      ∃ res, auditTrajectoryDag py (sub.map (·.toDict)) = .ok res ∧ res.ok = false := by
  obtain ⟨trajectoryId, hinit⟩ := begins_inv hbegins
  have hinv := run_inv hinit hrun
  have hpart {sub : List ProvenanceReceipt} (hsub : sub.Subperm s.receipts) :
      Part trajectoryId s.receipts sub := ⟨hinv.receipts, hdistinct, hsub⟩
  -- a parent is always one of the receipts that were issued before
  have hissued {r : ProvenanceReceipt} (hr : r ∈ s.receipts) {p : String} (hp : LinksTo r p) :
      ∃ r' ∈ s.receipts, r'.receiptId = p := by
    obtain ⟨before, after, heq⟩ := List.append_of_mem hr
    obtain ⟨t, ht, -, hparents⟩ := hinv.receipts before r after heq
    obtain ⟨r', hr', hid⟩ := List.mem_map.mp (hparents p ((linksTo_iff ht).mp hp))
    exact ⟨r', by rw [heq]; exact List.mem_append_left _ hr', hid⟩
  have hclosed (sub : List ProvenanceReceipt) (hsub : sub.Subperm s.receipts) (hne : sub ≠ [])
      (hall : ∀ r ∈ sub, ∀ r' ∈ s.receipts, LinksTo r r'.receiptId → r' ∈ sub) :
      ∃ res, auditTrajectoryDag py (sub.map (·.toDict)) = .ok res ∧ res.ok = true := by
    obtain ⟨res, hres, hok⟩ := (hpart hsub).audits py hne
    refine ⟨res, hres, hok.mpr fun r hr p hp => ?_⟩
    obtain ⟨r', hr', rfl⟩ := hissued (hsub.subset hr) hp
    exact ⟨r', hall r hr r' hr' hp, rfl⟩
  refine ⟨fun hne => ?_, hclosed, fun sub hsub ⟨r, hr, r', hr', hlink, hlacks⟩ => ?_⟩
  · exact hclosed s.receipts (List.Subperm.refl _) hne fun _ _ r' hr' _ => hr'
  · obtain ⟨res, hres, hok⟩ := (hpart hsub).audits py (List.ne_nil_of_mem hr)
    refine ⟨res, hres, Bool.eq_false_iff.mpr fun htrue => hlacks ?_⟩
    obtain ⟨r'', hr'', hid⟩ := hok.mp htrue r hr _ hlink
    rwa [List.inj_on_of_nodup_map hdistinct hr' (hsub.subset hr'') hid.symm]

namespace Sample

def root : TrajectoryContext := .start "trj_0" "now" none none none

def second : TrajectoryContext := ⟨"trj_0", 1, "now", ["a"], none, none, none⟩

/-- A call without chunks, under a cursor. -/
def underCursor (t : TrajectoryContext) : VerifyArgs where
  chunks := .items []
  signer := none
  policy := .absent
  fingerprinter := none
  trajectory := some t
  stepKind := none
  agentId := none
  outputText := ""
  requestContext := none
  chunkMetadata := none
  chunkMetadataBinding := bindingAtEvaluate
  callerHashSalt := none
  contentSource := none

/-- The call returns, with a receipt of the given id that names the cursor's parents. -/
theorem underCursor_emits (t : TrajectoryContext) (id : String) : ∃ out,
    verifyChunks gatePy emptyIndex (underCursor t) ⟨id, "now"⟩ Sqlite.Connection.init =
      .ok out Sqlite.Connection.init ∧
    out.receipt.receiptId = id ∧ out.receipt.trajectory = some t.toDict ∧
    out.nextTrajectory = some ⟨t.trajectoryId, t.stepIndex + 1, t.trajectoryStartedAt, [id], none,
      t.agentId, t.sessionId⟩ := by
  refine ⟨_, rfl, rfl, rfl, ?_⟩
  cases t.agentId <;> cases t.sessionId <;> rfl

end Sample

/-- Two receipts, the second issued under the cursor that came with the first: they audit clean, and
the second alone does not. -/
theorem emitted_audits_sample : ∃ first after : ProvenanceReceipt,
    (∃ res, auditTrajectoryDag Sample.gatePy ([first, after].map (·.toDict)) = .ok res ∧
      res.ok = true) ∧
    ∃ res, auditTrajectoryDag Sample.gatePy ([after].map (·.toDict)) = .ok res ∧
      res.ok = false := by
  obtain ⟨out, hout, hid, -, hnext⟩ := Sample.underCursor_emits Sample.root "a"
  obtain ⟨out', hout', hid', hblock', -⟩ := Sample.underCursor_emits Sample.second "b"
  let s₀ : RunState Unit := ⟨[Sample.root], [], none⟩
  let s₁ : RunState Unit := ⟨[Sample.root, Sample.second], [out.receipt], none⟩
  have hfirst : Calls Sample.gatePy s₀ s₁ := by
    have h := Calls.verifyChunks (s := s₀) (t := Sample.root) (by simp [s₀]) rfl hout
    rwa [hnext] at h
  have hsecond := Calls.verifyChunks (s := s₁) (t := Sample.second) (by simp [s₁]) rfl hout'
  have hrun := (ReflTransGen.single hfirst).tail hsecond
  have hdistinct : ([out.receipt, out'.receipt].map (·.receiptId)).Nodup := by
    simp [hid, hid']
  obtain ⟨hall, -, hlacks⟩ := emitted_audits Sample.gatePy (.started "trj_0" "now" none none none)
    hrun hdistinct
  refine ⟨out.receipt, out'.receipt, hall (by simp), hlacks [out'.receipt] ?_ ?_⟩
  · exact List.Sublist.subperm (List.sublist_append_right [out.receipt] [out'.receipt])
  · refine ⟨out'.receipt, by simp, out.receipt, by simp [s₁], ?_, fun hin => ?_⟩
    · rw [linksTo_iff hblock', hid]
      simp [Sample.second]
    · have heq := congrArg ProvenanceReceipt.receiptId (List.mem_singleton.mp hin)
      rw [hid, hid'] at heq
      exact absurd heq (by decide)

end Provenex
