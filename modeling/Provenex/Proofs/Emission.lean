import Provenex.Integrations.CrewAI
import Provenex.Integrations.LangGraph
import Provenex.Proofs.Gate

/-! What each way of issuing a receipt puts into its trajectory block, and into the
cursor it hands back. -/

namespace Provenex

open Guard Effect

/-- A receipt whose block follows a cursor, with the cursor for the step after it. The two may
carry different sessions. -/
structure Follows (t : TrajectoryContext) (receipt : ProvenanceReceipt) (next : TrajectoryContext)
    (session nextSession : Option String) : Prop where
  block : ∃ e : TrajectoryContext, receipt.trajectory = some e.toDict ∧
    e.trajectoryId = t.trajectoryId ∧ e.parentStepIds = t.parentStepIds ∧ e.sessionId = session
  trajectoryId : next.trajectoryId = t.trajectoryId
  parents : next.parentStepIds = [receipt.receiptId]
  sessionId : next.sessionId = nextSession

/-- The next step from a cursor, with the receipts it is given as parents. -/
theorem nextStep_links (t : TrajectoryContext) (parents : List ProvenanceReceipt)
    (parentStepIds : List String) (stepKind agentId session : Option String) :
    ∃ n, t.nextStep (parents.map fun r => some r.receiptId) parentStepIds stepKind agentId session =
        .ok n ∧ n.trajectoryId = t.trajectoryId ∧
      n.parentStepIds = parents.map (·.receiptId) ++ parentStepIds ∧
      n.sessionId = session.or t.sessionId := by
  have hids : (parents.map fun r => some r.receiptId).mapM id = some (parents.map (·.receiptId)) := by
    induction parents with
    | nil => rfl
    | cons r parents ih =>
      rw [List.map_cons, List.mapM_cons, ih]
      rfl
  rw [TrajectoryContext.nextStep, hids]
  exact ⟨_, rfl, rfl, rfl, rfl⟩

section

variable {py : Stdlib} {t : TrajectoryContext}

/-- The overrides of a call leave the links of the cursor. -/
theorem emitTrajectory_links (stepKind agentId session : Option String) :
    ∃ e, emitTrajectory (some t) stepKind agentId session = some e ∧
      e.trajectoryId = t.trajectoryId ∧ e.parentStepIds = t.parentStepIds ∧
      e.sessionId = session.or t.sessionId := by
  unfold emitTrajectory
  rw [Option.map_some]
  split_ifs with h
  · exact ⟨_, rfl, rfl, rfl, rfl⟩
  · push Not at h
    obtain ⟨-, -, rfl⟩ := h
    exact ⟨t, rfl, rfl, rfl, rfl⟩

theorem emitToolTrajectory_links (stepKind agentId session : Option String) :
    ∃ e, emitToolTrajectory (some t) stepKind agentId session = some e ∧
      e.trajectoryId = t.trajectoryId ∧ e.parentStepIds = t.parentStepIds ∧
      e.sessionId = session.or t.sessionId := by
  unfold emitToolTrajectory
  rw [Option.map_some]
  dsimp only
  split_ifs with h
  · exact ⟨_, rfl, rfl, rfl, rfl⟩
  · push Not at h
    exact ⟨t, rfl, rfl, rfl, h.2.2.symm⟩

theorem advance_links {id : String} {agentId session : Option String}
    {next : Option TrajectoryContext} (h : advance (some t) id agentId session = .ok next) :
    ∃ n, next = some n ∧ n.trajectoryId = t.trajectoryId ∧ n.parentStepIds = [id] ∧
      n.sessionId = session.or t.sessionId := by
  obtain rfl := Except.ok.inj h
  refine ⟨_, rfl, rfl, rfl, ?_⟩
  change (session.or t.sessionId).or t.sessionId = _
  rw [Option.or_assoc, Option.or_self]

/-! ## The two functions -/

/-- The builder of an admission, which holds its one action. -/
def admissionBuilder (policy : Policy) (tool : ToolCallContext) (args : AdmissionArgs)
    (paramsHash : String) : ReceiptBuilder :=
  ((ReceiptBuilder.init policy.verification).addAction tool.name tool.operation paramsHash
    (if args.redactParameters then none else some tool.parameters) tool.targetSystem
    tool.invocationId).2

/-- The decision block of an admission. -/
def admissionControl (policy : Policy) (d : PolicyDecision) : Option ControlMetadata :=
  policy.toolCallControl.map fun evaluator =>
    buildToolCallControlMetadata evaluator [admissionEntry 0 d]

/-- What a check goes through, and hands back. -/
structure Admitted (py : Stdlib) (tool : ToolCallContext) (request : RequestContext)
    (args : AdmissionArgs) (issue : Issue) (result : AdmissionResult) (policy : Policy)
    (d : PolicyDecision) (paramsHash callerHash : String) : Prop where
  coerced : coercePolicy args.policy = .ok policy
  decided : decideToolCall py policy tool request args.redactInputs = .ok d
  hashed : computeParametersHash py tool.parameters = .ok paramsHash
  caller : computeCallerHash py request.caller args.callerHashSalt = .ok callerHash
  receipt : (admissionBuilder policy tool args paramsHash).finalize py args.outputText args.signer none
    (emitToolTrajectory args.trajectory args.stepKind args.agentId request.sessionId) none
    (admissionControl policy d) (some callerHash) issue = .ok result.receipt
  next : advance args.trajectory result.receipt.receiptId args.agentId request.sessionId =
    .ok result.nextTrajectory
  decision : result.decision = d.decision
  rulesFired : result.rulesFired = d.rulesFired

theorem admissionCheck_ok {tool : ToolCallContext} {request : RequestContext}
    {args : AdmissionArgs} {issue : Issue} {result : AdmissionResult}
    (h : admissionCheck py tool request args issue = .ok result) :
    ∃ policy d paramsHash callerHash,
      Admitted py tool request args issue result policy d paramsHash callerHash := by
  unfold admissionCheck at h
  obtain ⟨policy, hpolicy, h⟩ := Guard.bind_ok.mp h
  obtain ⟨d, hd, h⟩ := Guard.bind_ok.mp h
  obtain ⟨paramsHash, hhash, h⟩ := Guard.bind_ok.mp h
  obtain ⟨callerHash, hcaller, h⟩ := Guard.bind_ok.mp h
  obtain ⟨receipt, hreceipt, h⟩ := Guard.bind_ok.mp h
  obtain ⟨next, hnext, h⟩ := Guard.bind_ok.mp h
  obtain rfl := Except.ok.inj h
  exact ⟨policy, d, paramsHash, callerHash, hpolicy, hd, hhash, hcaller, hreceipt, hnext, rfl, rfl⟩

theorem verifyChunks_follows {σ : Type} {index : ProvenanceIndex σ} {args : VerifyArgs}
    {issue : Issue} {s s' : σ} {out : VerifiedChunks} (ht : args.trajectory = some t)
    (h : verifyChunks py index args issue s = .ok out s') :
    ∃ next, out.nextTrajectory = some next ∧ Follows t out.receipt next
      ((args.requestContext.bind (·.sessionId)).or t.sessionId)
      ((args.requestContext.bind (·.sessionId)).or t.sessionId) := by
  obtain ⟨policy, texts, gathered, -, -, -, -, h⟩ := verifyChunks_ok.mp h
  have hemitted := emitReceipt_ok h
  have hnext := hemitted.next
  rw [ht] at hnext
  obtain ⟨n, hn, htraj, hparents, hsession⟩ := advance_links hnext
  obtain ⟨e, he, hlinks⟩ := emitTrajectory_links (t := t) args.stepKind args.agentId
    (args.requestContext.bind (·.sessionId))
  refine ⟨n, hn, ⟨e, ?_, hlinks⟩, htraj, hparents, hsession⟩
  rw [hemitted.finalized.trajectory, ht, he, Option.map_some]

theorem admissionCheck_follows {tool : ToolCallContext} {request : RequestContext}
    {args : AdmissionArgs} {issue : Issue} {result : AdmissionResult}
    (ht : args.trajectory = some t) (h : admissionCheck py tool request args issue = .ok result) :
    ∃ next, result.nextTrajectory = some next ∧ Follows t result.receipt next
      (request.sessionId.or t.sessionId) (request.sessionId.or t.sessionId) := by
  obtain ⟨policy, d, hash, callerHash, hadmitted⟩ := admissionCheck_ok h
  have hnext := hadmitted.next
  rw [ht] at hnext
  obtain ⟨n, hn, htraj, hparents, hsession⟩ := advance_links hnext
  obtain ⟨e, he, hlinks⟩ := emitToolTrajectory_links (t := t) args.stepKind args.agentId
    request.sessionId
  refine ⟨n, hn, ⟨e, ?_, hlinks⟩, htraj, hparents, hsession⟩
  rw [(finalize_ok hadmitted.receipt).trajectory, ht, he, Option.map_some]

/-! ## Around them -/

namespace ProvenexCrewSession

variable {σ : Type} {c c' : ProvenexCrewSession σ}

theorem verifyChunks_follows {chunks : Chunks} {stepKind outputText : String}
    {agentId : Option String} {issue : Issue} {s s' : σ} {out : VerifiedChunks}
    (h : c.verifyChunks py chunks stepKind agentId outputText issue s = .ok (out, c') s') :
    Follows c.trajectory out.receipt c'.trajectory c.trajectory.sessionId c.trajectory.sessionId ∧
      c'.receipts = c.receipts ++ [out.receipt] := by
  obtain ⟨result, u, hresult, h⟩ := bind_ok.mp h
  obtain ⟨heq, -⟩ := pure_ok.mp h
  obtain ⟨rfl, rfl⟩ := Prod.mk.inj heq
  obtain ⟨next, hnext, hfollows⟩ := Provenex.verifyChunks_follows (t := c.trajectory) rfl hresult
  refine ⟨?_, rfl⟩
  rw [thread, hnext]
  exact hfollows

theorem admissionCheck_follows {tool : ToolCallContext} {request : RequestContext}
    {stepKind outputText : String} {agentId : Option String} {redactParameters redactInputs : Bool}
    {issue : Issue} {result : AdmissionResult}
    (h : c.admissionCheck py tool request stepKind agentId outputText redactParameters redactInputs
      issue = .ok (result, c')) :
    Follows c.trajectory result.receipt c'.trajectory (request.sessionId.or c.trajectory.sessionId)
      (request.sessionId.or c.trajectory.sessionId) ∧
      c'.receipts = c.receipts ++ [result.receipt] := by
  obtain ⟨result, hresult, h⟩ := Guard.bind_ok.mp h
  obtain ⟨rfl, rfl⟩ := Prod.mk.inj (Except.ok.inj h)
  obtain ⟨next, hnext, hfollows⟩ := Provenex.admissionCheck_follows (t := c.trajectory) rfl hresult
  refine ⟨?_, rfl⟩
  rw [thread, hnext]
  exact hfollows

/-- A wrapped tool changes the session as the check of its output does. -/
theorem wrapTool_ok {raw : Chunks} {stepKind : String} {agentId : Option String}
    {returnBlocked : Bool} {issue : Issue} {s s' : σ} {output : ToolOutput}
    (h : c.wrapTool py raw stepKind agentId returnBlocked issue s = .ok (output, c') s') :
    ∃ out, c.verifyChunks py raw stepKind agentId "" issue s = .ok (out, c') s' := by
  obtain ⟨⟨out, c₁⟩, u, hout, h⟩ := bind_ok.mp h
  obtain ⟨heq, rfl⟩ := pure_ok.mp h
  obtain ⟨-, rfl⟩ := Prod.mk.inj heq
  exact ⟨out, hout⟩

/-- A gated tool changes the session as the check of the call does, whether it is let through or
not. -/
theorem wrapToolAdmission_ok {tool : GatedTool} {args : List PyVal} {kwargs : PyDict}
    {issue : Issue} {call : GatedCall}
    (h : c.wrapToolAdmission py tool args kwargs issue = .ok (call, c')) :
    ∃ toolCtx request result,
      tool.requestFactory args
        (without kwargs ["__operation__", "__target_system__", "__invocation_id__"]) = .ok request ∧
      c.admissionCheck py toolCtx request tool.stepKind tool.agentId ""
        tool.redactParameters false issue = .ok (result, c') := by
  obtain ⟨toolCtx, -, h⟩ := Guard.bind_ok.mp h
  obtain ⟨request, hrequest, h⟩ := Guard.bind_ok.mp h
  obtain ⟨⟨result, c₁⟩, hresult, h⟩ := Guard.bind_ok.mp h
  obtain ⟨-, rfl⟩ := Prod.mk.inj (Except.ok.inj h)
  exact ⟨toolCtx, request, result, hrequest, hresult⟩

/-- A manual step keeps the links of the cursor, or takes those it is given. -/
theorem advance_links {parentReceipts : Option (List ProvenanceReceipt)}
    {stepKind agentId : Option String} {next : TrajectoryContext}
    (h : c.advance parentReceipts stepKind agentId = .ok (next, c')) :
    c' = { c with trajectory := next } ∧ next.trajectoryId = c.trajectory.trajectoryId ∧
      next.sessionId = c.trajectory.sessionId ∧
      next.parentStepIds = (parentReceipts.map fun rs => rs.map (·.receiptId)).getD
        c.trajectory.parentStepIds := by
  unfold advance at h
  cases parentReceipts with
  | none =>
    obtain ⟨n, hn, hid, hparents, hsession⟩ := nextStep_links c.trajectory []
      c.trajectory.parentStepIds stepKind agentId none
    obtain ⟨m, hm, h⟩ := Guard.bind_ok.mp h
    obtain rfl := Except.ok.inj (hn.symm.trans hm)
    obtain ⟨rfl, rfl⟩ := Prod.mk.inj (Except.ok.inj h)
    exact ⟨rfl, hid, hsession, hparents⟩
  | some parents =>
    obtain ⟨n, hn, hid, hparents, hsession⟩ := nextStep_links c.trajectory parents [] stepKind
      agentId none
    obtain ⟨m, hm, h⟩ := Guard.bind_ok.mp h
    obtain rfl := Except.ok.inj (hn.symm.trans hm)
    obtain ⟨rfl, rfl⟩ := Prod.mk.inj (Except.ok.inj h)
    exact ⟨rfl, hid, hsession, by rw [hparents, List.append_nil]; rfl⟩

end ProvenexCrewSession

theorem AdmissionNode.run_follows {node : AdmissionNode} {state : ToolState}
    {started : String × String} {issue : Issue} {delta : ToolDelta}
    (ht : state.trajectory = some t) (h : node.run py state started issue = .ok delta) :
    ∃ toolCtx request receipt, node.toolContext state = .ok toolCtx ∧
      node.requestFactory state = .ok request ∧ delta.receipts = state.receipts ++ [receipt] ∧
      Follows t receipt delta.trajectory (request.sessionId.or t.sessionId)
        (request.sessionId.or t.sessionId) := by
  obtain ⟨toolCtx, htool, h⟩ := Guard.bind_ok.mp h
  obtain ⟨request, hrequest, h⟩ := Guard.bind_ok.mp h
  obtain ⟨result, hresult, h⟩ := Guard.bind_ok.mp h
  obtain rfl := Except.ok.inj h
  rw [ht] at hresult
  obtain ⟨next, hnext, hfollows⟩ := admissionCheck_follows (t := t) rfl hresult
  refine ⟨toolCtx, request, result.receipt, htool, hrequest, rfl, ?_⟩
  rw [hnext]
  exact hfollows

end

end Provenex
