import Provenex.Proofs.Emission
import Provenex.Proofs.Fields

/-! A session follows the cursors that are derived from its own, whatever issues the
receipts. It reaches the receipts of all ways to issue one but the two retrieval
wrappers, which copy the cursor without it. -/

namespace Provenex

open Guard Relation

/-- The ways to issue a receipt under a cursor. -/
inductive EmissionPath
  | verifyChunks
  | admissionCheck
  | langchainRetriever
  | langgraphRetrieval
  | langgraphAdmission
  | crewVerify
  | crewAdmission
  | crewTool
  | crewGatedTool
  deriving DecidableEq, Repr

/-- Not one of the two wrappers around a retriever. -/
def EmissionPath.CarriesSession (path : EmissionPath) : Prop :=
  path ≠ .langchainRetriever ∧ path ≠ .langgraphRetrieval

instance (path : EmissionPath) : Decidable path.CarriesSession := instDecidableAnd

/-- `trajectory.session_id` of the receipt. -/
def ProvenanceReceipt.sessionId (r : ProvenanceReceipt) : Option PyVal :=
  r.trajectory.bind fun d => getKey d "session_id"

/-- A call under the cursor that returns, with no session on its request: the receipt it issues,
and the cursor it hands back. -/
inductive Emits (py : Stdlib) (t : TrajectoryContext) :
    EmissionPath → ProvenanceReceipt → Option TrajectoryContext → Prop
  | verifyChunks {σ : Type} {index : ProvenanceIndex σ} {args : VerifyArgs} {issue : Issue}
    {s s' : σ} {out : VerifiedChunks} (ht : args.trajectory = some t)
    (hrequest : args.requestContext.bind (·.sessionId) = none)
    (h : Provenex.verifyChunks py index args issue s = .ok out s') :
    Emits py t .verifyChunks out.receipt out.nextTrajectory
  | admissionCheck {tool : ToolCallContext} {request : RequestContext} {args : AdmissionArgs}
    {issue : Issue} {result : AdmissionResult} (ht : args.trajectory = some t)
    (hrequest : request.sessionId = none)
    (h : Provenex.admissionCheck py tool request args issue = .ok result) :
    Emits py t .admissionCheck result.receipt result.nextTrajectory
  | langchainRetriever {σ : Type} {r : ProvenexRetriever σ} {query outputText stepKind : String}
    {agentId : Option String} {issue : Issue} {s s' : σ} {result : RetrievalResult}
    (h : r.getRelevantDocumentsWithReceipt py query outputText (some t) stepKind agentId issue s =
      .ok result s') :
    Emits py t .langchainRetriever result.receipt none
  | langgraphRetrieval {σ : Type} {node : RetrievalNode σ} {queryKey : String} {state : GraphState}
    {started : String × String} {issue : Issue} {s s' : σ} {delta : GraphDelta}
    {receipt : ProvenanceReceipt} (ht : state.trajectory = some t)
    (h : node.run py queryKey state started issue s = .ok delta s')
    (hreceipt : delta.receipts = state.receipts ++ [receipt]) :
    Emits py t .langgraphRetrieval receipt (some delta.trajectory)
  | langgraphAdmission {node : AdmissionNode} {state : ToolState} {started : String × String}
    {issue : Issue} {request : RequestContext} {delta : ToolDelta} {receipt : ProvenanceReceipt}
    (ht : state.trajectory = some t) (hfactory : node.requestFactory state = .ok request)
    (hrequest : request.sessionId = none) (h : node.run py state started issue = .ok delta)
    (hreceipt : delta.receipts = state.receipts ++ [receipt]) :
    Emits py t .langgraphAdmission receipt (some delta.trajectory)
  | crewVerify {σ : Type} {c c' : ProvenexCrewSession σ} {chunks : Chunks}
    {stepKind outputText : String} {agentId : Option String} {issue : Issue} {s s' : σ}
    {out : VerifiedChunks} (ht : c.trajectory = t)
    (h : c.verifyChunks py chunks stepKind agentId outputText issue s = .ok (out, c') s') :
    Emits py t .crewVerify out.receipt (some c'.trajectory)
  | crewAdmission {σ : Type} {c c' : ProvenexCrewSession σ} {tool : ToolCallContext}
    {request : RequestContext} {stepKind outputText : String} {agentId : Option String}
    {redactParameters redactInputs : Bool} {issue : Issue} {result : AdmissionResult}
    (ht : c.trajectory = t) (hrequest : request.sessionId = none)
    (h : c.admissionCheck py tool request stepKind agentId outputText redactParameters redactInputs
      issue = .ok (result, c')) :
    Emits py t .crewAdmission result.receipt (some c'.trajectory)
  | crewTool {σ : Type} {c c' : ProvenexCrewSession σ} {raw : Chunks} {stepKind : String}
    {agentId : Option String} {returnBlocked : Bool} {issue : Issue} {s s' : σ}
    {output : ToolOutput} {receipt : ProvenanceReceipt} (ht : c.trajectory = t)
    (h : c.wrapTool py raw stepKind agentId returnBlocked issue s = .ok (output, c') s')
    (hreceipt : c'.receipts = c.receipts ++ [receipt]) :
    Emits py t .crewTool receipt (some c'.trajectory)
  | crewGatedTool {σ : Type} {c c' : ProvenexCrewSession σ} {tool : GatedTool} {args : List PyVal}
    {kwargs : PyDict} {request : RequestContext} {issue : Issue} {call : GatedCall}
    {receipt : ProvenanceReceipt} (ht : c.trajectory = t)
    (hfactory : tool.requestFactory args
      (without kwargs ["__operation__", "__target_system__", "__invocation_id__"]) = .ok request)
    (hrequest : request.sessionId = none)
    (h : c.wrapToolAdmission py tool args kwargs issue = .ok (call, c'))
    (hreceipt : c'.receipts = c.receipts ++ [receipt]) :
    Emits py t .crewGatedTool receipt (some c'.trajectory)

/-- A cursor that a call hands back, or a step that names no session. -/
inductive Derives (py : Stdlib) (t : TrajectoryContext) : TrajectoryContext → Prop
  | emission {path : EmissionPath} {receipt : ProvenanceReceipt} {next : TrajectoryContext}
    (h : Emits py t path receipt (some next)) : Derives py t next
  | nextStep {parents : List (Option String)} {parentStepIds : List String}
    {stepKind agentId : Option String} {next : TrajectoryContext}
    (h : t.nextStep parents parentStepIds stepKind agentId none = .ok next) : Derives py t next
  | recordStepReceipt {receipts receipts' : List ProvenanceReceipt} {receipt : ProvenanceReceipt}
    {stepKind agentId : Option String} {started : String × String} {next : TrajectoryContext}
    (h : Provenex.recordStepReceipt receipts (some t) receipt stepKind agentId started =
      .ok (receipts', next)) : Derives py t next
  | crewAdvance {σ : Type} {c c' : ProvenexCrewSession σ}
    {parents : Option (List ProvenanceReceipt)} {stepKind agentId : Option String}
    {next : TrajectoryContext} (ht : c.trajectory = t)
    (h : c.advance parents stepKind agentId = .ok (next, c')) : Derives py t next

/-! ## What a call does -/

theorem toDict_session (e : TrajectoryContext) :
    getKey e.toDict "session_id" = e.sessionId.map .str := by
  have hlast : getKey e.toDict "session_id" =
      getKey (optionalItem "session_id" (.ofOption e.sessionId)) "session_id" := by
    simp [TrajectoryContext.toDict, getKey_append, getKey_cons, getKey_optionalItem]
  rw [hlast]
  cases e.sessionId with
  | none => rfl
  | some session => simp [optionalItem, PyVal.ofOption, getKey_cons]

theorem nextStep_session {t next : TrajectoryContext} {parents : List (Option String)}
    {parentStepIds : List String} {stepKind agentId session : Option String}
    (h : t.nextStep parents parentStepIds stepKind agentId session = .ok next) :
    next.sessionId = session.or t.sessionId := by
  unfold TrajectoryContext.nextStep at h
  split at h
  · cases h
  · obtain rfl := Except.ok.inj h
    rfl

section

variable {py : Stdlib} {t next : TrajectoryContext} {receipt : ProvenanceReceipt}

theorem Follows.receipt_session {session nextSession : Option String}
    (h : Follows t receipt next session nextSession) :
    receipt.sessionId = session.map .str := by
  obtain ⟨e, he, -, -, rfl⟩ := h.block
  rw [ProvenanceReceipt.sessionId, he, Option.bind_some, toDict_session]

theorem retriever_session {σ : Type} {r : ProvenexRetriever σ}
    {query outputText stepKind : String} {agentId : Option String} {issue : Issue} {s s' : σ}
    {result : RetrievalResult}
    (h : r.getRelevantDocumentsWithReceipt py query outputText (some t) stepKind agentId issue s =
      .ok result s') : result.receipt.sessionId = none := by
  obtain ⟨retrieved, _, -, h⟩ := Effect.bind_ok.mp h
  obtain ⟨gathered, _, -, h⟩ := Effect.bind_ok.mp h
  obtain ⟨receipt, _, hreceipt, h⟩ := Effect.bind_ok.mp h
  obtain ⟨rfl, -⟩ := Effect.pure_ok.mp h
  have hblock := (finalize_ok (Effect.lift_ok.mp hreceipt).1).trajectory
  rw [ProvenanceReceipt.sessionId, hblock]
  exact toDict_session _

theorem RetrievalNode.run_session {σ : Type} {node : RetrievalNode σ} {queryKey : String}
    {state : GraphState} {started : String × String} {issue : Issue} {s s' : σ}
    {delta : GraphDelta} (ht : state.trajectory = some t)
    (h : node.run py queryKey state started issue s = .ok delta s')
    (hdelta : delta.receipts = state.receipts ++ [receipt]) :
    receipt.sessionId = none ∧ delta.trajectory.sessionId = t.sessionId := by
  obtain ⟨query, _, -, h⟩ := Effect.bind_ok.mp h
  obtain ⟨retrieved, _, -, h⟩ := Effect.bind_ok.mp h
  obtain ⟨gathered, _, -, h⟩ := Effect.bind_ok.mp h
  obtain ⟨r, _, hreceipt, h⟩ := Effect.bind_ok.mp h
  obtain ⟨next, _, hnext, h⟩ := Effect.bind_ok.mp h
  obtain ⟨rfl, -⟩ := Effect.pure_ok.mp h
  obtain rfl := List.singleton_inj.mp (List.append_cancel_left hdelta)
  constructor
  · have hblock := (finalize_ok (Effect.lift_ok.mp hreceipt).1).trajectory
    rw [ProvenanceReceipt.sessionId, hblock]
    exact toDict_session _
  · rw [nextStep_session (Effect.lift_ok.mp hnext).1, ht]
    rfl

/-- A call hands its cursor's session on, and writes it on the receipt unless it wraps a
retriever. -/
theorem Emits.session {path : EmissionPath} {next : Option TrajectoryContext}
    (h : Emits py t path receipt next) :
    (receipt.sessionId = if path.CarriesSession then t.sessionId.map .str else none) ∧
      ∀ n ∈ next, n.sessionId = t.sessionId := by
  cases h with
  | verifyChunks ht hrequest h =>
    obtain ⟨n, hn, hfollows⟩ := verifyChunks_follows ht h
    rw [hrequest] at hfollows
    refine ⟨hfollows.receipt_session, fun m hm => ?_⟩
    obtain rfl := Option.some.inj (hn.symm.trans hm)
    exact hfollows.sessionId
  | admissionCheck ht hrequest h =>
    obtain ⟨n, hn, hfollows⟩ := admissionCheck_follows ht h
    rw [hrequest] at hfollows
    refine ⟨hfollows.receipt_session, fun m hm => ?_⟩
    obtain rfl := Option.some.inj (hn.symm.trans hm)
    exact hfollows.sessionId
  | langchainRetriever h => exact ⟨retriever_session h, by simp⟩
  | langgraphRetrieval ht h hreceipt =>
    obtain ⟨hsession, hnext⟩ := RetrievalNode.run_session ht h hreceipt
    exact ⟨hsession, by simpa using hnext⟩
  | langgraphAdmission ht hfactory hrequest h hreceipt =>
    obtain ⟨_, request, r, -, hrequest', hr, hfollows⟩ := AdmissionNode.run_follows ht h
    obtain rfl := Except.ok.inj (hfactory.symm.trans hrequest')
    obtain rfl := List.singleton_inj.mp (List.append_cancel_left (hreceipt.symm.trans hr))
    rw [hrequest] at hfollows
    exact ⟨hfollows.receipt_session, by simpa using hfollows.sessionId⟩
  | crewVerify ht h =>
    obtain ⟨hfollows, -⟩ := ProvenexCrewSession.verifyChunks_follows h
    rw [ht] at hfollows
    exact ⟨hfollows.receipt_session, by simpa using hfollows.sessionId⟩
  | crewAdmission ht hrequest h =>
    obtain ⟨hfollows, -⟩ := ProvenexCrewSession.admissionCheck_follows h
    rw [ht, hrequest] at hfollows
    exact ⟨hfollows.receipt_session, by simpa using hfollows.sessionId⟩
  | crewTool ht h hreceipt =>
    obtain ⟨out, h⟩ := ProvenexCrewSession.wrapTool_ok h
    obtain ⟨hfollows, hr⟩ := ProvenexCrewSession.verifyChunks_follows h
    obtain rfl := List.singleton_inj.mp (List.append_cancel_left (hreceipt.symm.trans hr))
    rw [ht] at hfollows
    exact ⟨hfollows.receipt_session, by simpa using hfollows.sessionId⟩
  | crewGatedTool ht hfactory hrequest h hreceipt =>
    obtain ⟨_, request, result, hrequest', h⟩ := ProvenexCrewSession.wrapToolAdmission_ok h
    obtain rfl := Except.ok.inj (hfactory.symm.trans hrequest')
    obtain ⟨hfollows, hr⟩ := ProvenexCrewSession.admissionCheck_follows h
    obtain rfl := List.singleton_inj.mp (List.append_cancel_left (hreceipt.symm.trans hr))
    rw [ht, hrequest] at hfollows
    exact ⟨hfollows.receipt_session, by simpa using hfollows.sessionId⟩

theorem Derives.session (h : Derives py t next) : next.sessionId = t.sessionId := by
  cases h with
  | emission h => exact h.session.2 next rfl
  | nextStep h => exact nextStep_session h
  | recordStepReceipt h =>
    obtain ⟨n, hn, h⟩ := Guard.bind_ok.mp h
    obtain ⟨-, rfl⟩ := Prod.mk.inj (Except.ok.inj h)
    exact nextStep_session hn
  | crewAdvance ht h =>
    obtain ⟨-, -, hsession, -⟩ := ProvenexCrewSession.advance_links h
    rw [hsession, ht]

/-- However many steps lie between two cursors, they carry one session. -/
theorem derived_session (h : ReflTransGen (Derives py) t next) : next.sessionId = t.sessionId := by
  induction h with
  | refl => rfl
  | tail _ hstep ih => rw [hstep.session, ih]

end

/-- Every cursor derived from one with a session carries that session, and a receipt issued under
it shows the session exactly when no retrieval wrapper issued it. -/
theorem session_propagates_iff (py : Stdlib) {start t : TrajectoryContext} {sessionId : String}
    (hstart : start.sessionId = some sessionId) (hderived : ReflTransGen (Derives py) start t) :
    t.sessionId = some sessionId ∧
      ∀ path receipt next, Emits py t path receipt next →
        (receipt.sessionId = some (.str sessionId) ↔ path.CarriesSession) ∧
          ∀ n ∈ next, n.sessionId = some sessionId := by
  have ht : t.sessionId = some sessionId := (derived_session hderived).trans hstart
  refine ⟨ht, fun path receipt next h => ?_⟩
  obtain ⟨hreceipt, hnext⟩ := h.session
  rw [ht] at hreceipt
  refine ⟨?_, fun n hn => (hnext n hn).trans ht⟩
  by_cases hpath : path.CarriesSession <;> simp [hreceipt, hpath]

namespace Sample

def sessionCursor : TrajectoryContext := .start "t" "now" none none (some "s")

def sessionArgs : VerifyArgs := { gateArgs with trajectory := some sessionCursor }

def emptyRetriever : ProvenexRetriever Sqlite.Connection :=
  ⟨⟨some fun _ => .ok [], none⟩, emptyIndex, none, none, none⟩

end Sample

theorem session_propagates_sample :
    ∃ out, verifyChunks Sample.gatePy Sample.emptyIndex Sample.sessionArgs ⟨"r", "now"⟩
        Sqlite.Connection.init = .ok out Sqlite.Connection.init ∧
      out.receipt.sessionId = some (.str "s") := by
  have hrun : verifyChunks Sample.gatePy Sample.emptyIndex Sample.sessionArgs ⟨"r", "now"⟩
      Sqlite.Connection.init = .ok _ Sqlite.Connection.init := rfl
  have hstart : Sample.sessionCursor.sessionId = some "s" := rfl
  obtain ⟨-, hemits⟩ := session_propagates_iff Sample.gatePy hstart .refl
  exact ⟨_, hrun, (hemits .verifyChunks _ _ (.verifyChunks rfl rfl hrun)).1.mpr (by decide)⟩

/-- The wrapper around a base retriever copies the cursor without its session. -/
theorem retriever_drops_session :
    Sample.sessionCursor.sessionId = some "s" ∧
      ∃ receipt, Emits Sample.gatePy Sample.sessionCursor .langchainRetriever receipt none ∧
        receipt.sessionId ≠ some (.str "s") := by
  have hrun : Sample.emptyRetriever.getRelevantDocumentsWithReceipt Sample.gatePy "q" ""
      (some Sample.sessionCursor) "retrieval" none ⟨"r", "now"⟩ Sqlite.Connection.init =
        .ok _ Sqlite.Connection.init := rfl
  refine ⟨rfl, _, .langchainRetriever hrun, ?_⟩
  rw [retriever_session hrun]
  exact (Option.some_ne_none _).symm

end Provenex
