import Provenex.Proofs.Recorded
import Provenex.ToolCall.Admission

/-! Two requests that differ in the session. Where no path of a policy shows the
session to a rule, both calls go alike, and their receipts differ in what is issued
afresh and in the session of the trajectory. -/

namespace Provenex

open Guard

def RequestContext.withSession (r : RequestContext) (s : Option String) : RequestContext :=
  { r with sessionId := s }

/-- The session is no part of the recorded inputs. -/
theorem requestInputs_withSession (r : RequestContext) (s : Option String) :
    requestInputs (r.withSession s) = requestInputs r := rfl

def View.withSession (view : View) (s : Option String) : View :=
  { view with request := view.request.withSession s }

/-! ## Receipts -/

def TrajectoryContext.sansSession (t : TrajectoryContext) : TrajectoryContext :=
  { t with sessionId := none }

/-- The receipt without its id, its time, its signature value and the session of its
trajectory. -/
def ProvenanceReceipt.sansSession (r : ProvenanceReceipt) : ProvenanceReceipt :=
  { r with
    receiptId := ""
    issuedAt := ""
    signature := r.signature.map fun s => (s.1, "")
    trajectory := r.trajectory.map fun d => d.filter fun e => e.1 ≠ .str "session_id" }

def ProvenanceReceipt.sansTrajectory (r : ProvenanceReceipt) : ProvenanceReceipt :=
  { r with trajectory := none }

theorem toDict_sansSession (t : TrajectoryContext) :
    (t.toDict.filter fun e => e.1 ≠ .str "session_id") = t.sansSession.toDict := by
  have hkey (k : String) (h : k ≠ "session_id") (o : Option String) :
      ((optionalItem k (.ofOption o)).filter fun e => e.1 ≠ .str "session_id") =
        optionalItem k (.ofOption o) := by
    cases o with
    | none => rfl
    | some s => simp [optionalItem, PyVal.ofOption, h]
  have hsession (o : Option String) :
      ((optionalItem "session_id" (.ofOption o)).filter fun e => e.1 ≠ .str "session_id") = [] := by
    cases o with
    | none => rfl
    | some s => simp [optionalItem, PyVal.ofOption]
  unfold TrajectoryContext.toDict
  simp only [List.filter_append, hkey _ (by decide : "step_kind" ≠ "session_id"),
    hkey _ (by decide : "agent_id" ≠ "session_id"), hsession]
  rfl

/-- The keys of a mapping, each with what is raised in writing its value. -/
def faults (d : PyDict) : List (PyAtom × Option PyErr) := d.map fun e => (e.1, jsonFault true e.2)

theorem jsonFault_congr {d d' : PyDict} (h : faults d = faults d') :
    jsonFault true (.dict d) = jsonFault true (.dict d') := by
  have hkeys : keysOf d = keysOf d' := by
    simpa [faults, keysOf, Function.comp_def] using congrArg (List.map Prod.fst) h
  have hentries : jsonFaultEntries true d = jsonFaultEntries true d' := by
    rw [jsonFaultEntries_eq, jsonFaultEntries_eq]
    simpa [faults, Function.comp_def] using congrArg (List.map fun e => (e.1, e.1.jsonFault.or e.2)) h
  rw [jsonFault, jsonFault, hkeys, hentries]

/-- What is raised of a mapping with texts for keys is raised of one of its values. -/
theorem StrKeys.fault_mem {d : PyDict} (hk : StrKeys d) {e : PyErr}
    (h : jsonFault true (.dict d) = some e) : ∃ x ∈ d, jsonFault true x.2 = some e := by
  rw [jsonFault, if_neg (by simp), if_pos (StrKeys.sortable_keysOf hk), jsonFaultEntries_eq] at h
  obtain ⟨y, hy, hf⟩ := List.exists_of_findSome?_eq_some h
  obtain ⟨x, hx, rfl⟩ := List.mem_map.mp ((List.perm_insertionSort _ _).mem_iff.mp hy)
  obtain ⟨s, hs⟩ := hk x.1 (List.mem_map_of_mem hx)
  refine ⟨x, hx, ?_⟩
  simpa [hs, PyAtom.jsonFault] using hf

theorem trajectory_strKeys (t : TrajectoryContext) : StrKeys t.toDict := by
  unfold TrajectoryContext.toDict
  exact .append (.append (.append (by simp [StrKeys, keysOf]) (.optionalItem _ _))
    (.optionalItem _ _)) (.optionalItem _ _)

/-- Of a trajectory's block, only the number of the step can fail to be written. -/
theorem trajectory_value (t : TrajectoryContext) :
    ∀ e ∈ t.toDict, e.2 = .int t.stepIndex ∨ jsonFault true e.2 = none := by
  have hstr (k : String) (o : Option String) :
      ∀ e ∈ optionalItem k (.ofOption o), e.2 = .int t.stepIndex ∨ jsonFault true e.2 = none := by
    cases o with
    | none => simp [optionalItem, PyVal.ofOption]
    | some s => simp [optionalItem, PyVal.ofOption, jsonFault, PyAtom.jsonFault]
  have hlist : jsonFault true (strList t.parentStepIds) = none := by
    simp [jsonFault_none, jsonable, strList, jsonableList_iff]
  unfold TrajectoryContext.toDict
  simp only [List.forall_mem_append]
  refine ⟨⟨⟨?_, hstr _ _⟩, hstr _ _⟩, hstr _ _⟩
  simp [hlist, jsonFault, PyAtom.jsonFault]

theorem trajectory_fault (t : TrajectoryContext) :
    jsonFault true (.dict t.toDict) = (PyAtom.int t.stepIndex).jsonFault := by
  cases hf : jsonFault true (.dict t.toDict) with
  | none =>
    have hj := jsonable_entry ((jsonFault_none _).mp hf) (.str "step_index", .int t.stepIndex)
      (by simp [TrajectoryContext.toDict])
    exact (PyAtom.jsonFault_none.mpr (by simpa [jsonable] using hj)).symm
  | some e =>
    obtain ⟨x, hx, he⟩ := (trajectory_strKeys t).fault_mem hf
    rcases trajectory_value t x hx with h | h
    · rw [h, jsonFault] at he
      exact he.symm
    · rw [h] at he
      cases he

theorem faults_body (r : ProvenanceReceipt) : faults r.body =
    faults r.sansSession.sansTrajectory.body ++
      faults (optionalItem "trajectory" (orNull .dict r.trajectory)) := by
  unfold ProvenanceReceipt.body
  simp only [faults, ProvenanceReceipt.sansSession, ProvenanceReceipt.sansTrajectory,
    ProvenanceReceipt.policyBlock, List.map_append, List.map_cons, List.map_nil, jsonFault,
    PyAtom.jsonFault]
  simp [optionalItem, orNull]

section

variable {py : Stdlib}

theorem canonicalPayload_session {r r' : ProvenanceReceipt}
    {trajectory trajectory' : Option TrajectoryContext}
    (h : r.sansSession.sansTrajectory = r'.sansSession.sansTrajectory)
    (ht : r.trajectory = trajectory.map (·.toDict))
    (ht' : r'.trajectory = trajectory'.map (·.toDict))
    (hs : trajectory.map (·.sansSession) = trajectory'.map (·.sansSession)) :
    SameOutcome (fun _ _ => True) (r.canonicalPayload py) (r'.canonicalPayload py) := by
  have hlast : faults (optionalItem "trajectory" (orNull .dict r.trajectory)) =
      faults (optionalItem "trajectory" (orNull .dict r'.trajectory)) := by
    rw [ht, ht']
    cases trajectory with
    | none =>
      obtain rfl := Option.map_eq_none_iff.mp hs.symm
      rfl
    | some t =>
      obtain ⟨t', rfl, hsans⟩ := Option.map_eq_some_iff.mp hs.symm
      have hstep : t'.stepIndex = t.stepIndex := congrArg (·.stepIndex) hsans
      simp [optionalItem, orNull, faults, trajectory_fault, hstep]
  have hf : jsonFault true (.dict r.body) = jsonFault true (.dict r'.body) :=
    jsonFault_congr (by rw [faults_body, faults_body r', h, hlast])
  have hj : jsonable (.dict r.body) = jsonable (.dict r'.body) := by
    rw [Bool.eq_iff_iff, ← jsonFault_none, ← jsonFault_none, hf]
  unfold ProvenanceReceipt.canonicalPayload canonicalBytes dumps
  rw [hj, hf]
  split_ifs
  · exact .ok trivial
  · exact .error _

theorem finalize_session {b : ReceiptBuilder} {outputText : String} {signer : Option ReceiptSigner}
    {log : Option PyDict} {trajectory trajectory' : Option TrajectoryContext}
    {accessControl toolCallControl : Option ControlMetadata} {callerHash : Option String}
    {issue issue' : Issue}
    (h : trajectory.map (·.sansSession) = trajectory'.map (·.sansSession)) :
    SameOutcome (fun r r' => r.sansSession = r'.sansSession)
      (b.finalize py outputText signer log trajectory accessControl toolCallControl callerHash issue)
      (b.finalize py outputText signer log trajectory' accessControl toolCallControl callerHash
        issue') := by
  have hblocks : (trajectory.map (·.toDict)).map (List.filter fun e => e.1 ≠ .str "session_id") =
      (trajectory'.map (·.toDict)).map (List.filter fun e => e.1 ≠ .str "session_id") := by
    simpa only [Option.map_map, Function.comp_def, toDict_sansSession] using
      congrArg (Option.map TrajectoryContext.toDict) h
  cases signer with
  | none =>
    refine .ok ?_
    simp only [ProvenanceReceipt.sansSession, hblocks]
  | some signer =>
    refine SameOutcome.map (canonicalPayload_session ?_ rfl rfl h) ?_
    · rfl
    · intro payload payload' _
      simp only [ProvenanceReceipt.sansSession, hblocks]
      rfl

/-! ## Policies that do not ask for the session -/

structure Policy.IgnoresSession (p : Policy) : Prop where
  access : ∀ ev, p.accessControl = some ev → ∀ chunk request s,
    ev.evaluate chunk (request.withSession s) = ev.evaluate chunk request
  toolCall : ∀ ev, p.toolCallControl = some ev → ∀ tool request s,
    ev.evaluate tool (request.withSession s) = ev.evaluate tool request

/-- Two admissions alike in all but the session. -/
structure SameAdmission (a b : AdmissionResult) : Prop where
  decision : a.decision = b.decision
  rulesFired : a.rulesFired = b.rulesFired
  receipt : a.receipt.sansSession = b.receipt.sansSession
  policyId : a.policyId = b.policyId

structure SameVerification (a b : VerifiedChunks) : Prop where
  kept : a.kept = b.kept
  blocked : a.blocked = b.blocked
  receipt : a.receipt.sansSession = b.receipt.sansSession

/-- Requests that differ in the session only are admitted and verified alike: with one error, or
with results alike, and over the same states of the index. -/
structure Policy.SessionFree (py : Stdlib) (p : Policy) : Prop where
  admission : ∀ tool request s args issue issue', coercePolicy args.policy = .ok p →
    SameOutcome SameAdmission (admissionCheck py tool request args issue)
      (admissionCheck py tool (request.withSession s) args issue')
  verification : ∀ (σ : Type) (index : ProvenanceIndex σ) args request s st issue issue',
    coercePolicy args.policy = .ok p → args.requestContext = some request →
    Effect.Related SameVerification (verifyChunks py index args issue st)
      (verifyChunks py index { args with requestContext := some (request.withSession s) } issue' st)

theorem emitTrajectory_session (trajectory : Option TrajectoryContext)
    (stepKind agentId s s' : Option String) :
    (emitTrajectory trajectory stepKind agentId s).map (·.sansSession) =
      (emitTrajectory trajectory stepKind agentId s').map (·.sansSession) := by
  have hsame (r : Option String) :
      (emitTrajectory trajectory stepKind agentId r).map (·.sansSession) =
        trajectory.map fun t => { t with
          stepKind := stepKind.or t.stepKind, agentId := agentId.or t.agentId, sessionId := none } := by
    cases trajectory with
    | none => rfl
    | some t =>
      simp only [emitTrajectory, Option.map_some]
      split_ifs with h
      · rfl
      · push Not at h
        obtain ⟨rfl, rfl, -⟩ := h
        rfl
  rw [hsame, hsame]

theorem emitToolTrajectory_session (trajectory : Option TrajectoryContext)
    (stepKind agentId s s' : Option String) :
    (emitToolTrajectory trajectory stepKind agentId s).map (·.sansSession) =
      (emitToolTrajectory trajectory stepKind agentId s').map (·.sansSession) := by
  have hsame (r : Option String) :
      (emitToolTrajectory trajectory stepKind agentId r).map (·.sansSession) =
        trajectory.map fun t => { t with
          stepKind := some (stepKind.getD (strOr t.stepKind "tool_call"))
          agentId := agentId.or t.agentId
          sessionId := none } := by
    cases trajectory with
    | none => rfl
    | some t =>
      simp only [emitToolTrajectory, Option.map_some]
      split_ifs with h
      · rfl
      · push Not at h
        obtain ⟨hkind, hagent, -⟩ := h
        simp only [TrajectoryContext.sansSession, hkind, hagent]
  rw [hsame, hsame]

/-- The receipt has an id, so the cursor always advances. -/
theorem advance_ok (trajectory : Option TrajectoryContext) (id : String)
    (agentId sessionId : Option String) : ∃ t, advance trajectory id agentId sessionId = .ok t := by
  cases trajectory with
  | none => exact ⟨_, rfl⟩
  | some t => exact ⟨_, rfl⟩

variable {p : Policy}

theorem decideToolCall_session (h : p.IgnoresSession) (tool : ToolCallContext)
    (request : RequestContext) (s : Option String) (redact : Bool) :
    decideToolCall py p tool (request.withSession s) redact =
      decideToolCall py p tool request redact := by
  unfold decideToolCall
  cases hp : p.toolCallControl with
  | none => rfl
  | some ev => simp only [h.toolCall ev hp]

theorem admissionCheck_session (h : p.IgnoresSession) {tool : ToolCallContext}
    {request : RequestContext} {s : Option String} {args : AdmissionArgs} {issue issue' : Issue}
    (hp : coercePolicy args.policy = .ok p) :
    SameOutcome SameAdmission (admissionCheck py tool request args issue)
      (admissionCheck py tool (request.withSession s) args issue') := by
  unfold admissionCheck
  refine .bind_same _ fun p' hp' => ?_
  obtain rfl := Except.ok.inj (hp.symm.trans hp')
  rw [decideToolCall_session h]
  refine .bind_same _ fun d _ => .bind_same _ fun hash _ => .bind_same _ fun callerHash _ => ?_
  refine .bind (finalize_session (emitToolTrajectory_session _ _ _ _ _)) fun r r' hr => ?_
  obtain ⟨next, hnext⟩ := advance_ok args.trajectory r.receiptId args.agentId request.sessionId
  obtain ⟨next', hnext'⟩ := advance_ok args.trajectory r'.receiptId args.agentId s
  rw [hnext, show (request.withSession s).sessionId = s from rfl, hnext']
  exact .ok ⟨rfl, rfl, hr, rfl⟩

theorem verifyChunk_session {σ : Type} {index : ProvenanceIndex σ} (h : p.IgnoresSession)
    {args : VerifyArgs} {request : RequestContext} (hreq : args.requestContext = some request)
    (s : Option String) (fp : Fingerprinter) :
    verifyChunk py index p fp { args with requestContext := some (request.withSession s) } =
      verifyChunk py index p fp args := by
  funext acc item
  unfold verifyChunk
  cases hp : p.accessControl with
  | none => rfl
  | some ev => simp only [hreq, h.access ev hp]

theorem emitReceipt_session {args : VerifyArgs} {request : RequestContext}
    (hreq : args.requestContext = some request) (s : Option String) (gathered : Gathered)
    (issue issue' : Issue) :
    SameOutcome SameVerification (emitReceipt py p args gathered issue)
      (emitReceipt py p { args with requestContext := some (request.withSession s) } gathered
        issue') := by
  have hcaller : emitCallerHash py { args with requestContext := some (request.withSession s) } =
      emitCallerHash py args := by
    simp only [emitCallerHash, hreq]
    rfl
  unfold emitReceipt
  rw [hcaller]
  refine .bind_same _ fun callerHash _ => ?_
  refine .bind (finalize_session (emitTrajectory_session _ _ _ _ _)) fun r r' hr => ?_
  obtain ⟨next, hnext⟩ := advance_ok args.trajectory r.receiptId args.agentId
    (args.requestContext.bind (·.sessionId))
  obtain ⟨next', hnext'⟩ := advance_ok args.trajectory r'.receiptId args.agentId s
  simp only [hnext]
  change SameOutcome _ _ (advance args.trajectory r'.receiptId args.agentId s >>= _)
  rw [hnext']
  exact .ok ⟨rfl, rfl, hr⟩

theorem verifyChunks_session {σ : Type} {index : ProvenanceIndex σ} (h : p.IgnoresSession)
    {args : VerifyArgs} {request : RequestContext} {s : Option String} {st : σ}
    {issue issue' : Issue} (hp : coercePolicy args.policy = .ok p)
    (hreq : args.requestContext = some request) :
    Effect.Related SameVerification (verifyChunks py index args issue st)
      (verifyChunks py index { args with requestContext := some (request.withSession s) } issue'
        st) := by
  unfold verifyChunks
  refine .bind _ fun p' st hlift => ?_
  obtain rfl := Except.ok.inj (hp.symm.trans (Effect.lift_ok.mp hlift).1)
  refine .bind _ fun texts st _ => ?_
  have hcheck : checkVerifyArgs py p { args with requestContext := some (request.withSession s) }
      texts = checkVerifyArgs py p args texts := by
    simp only [checkVerifyArgs, hreq]
    rfl
  simp only [hcheck, verifyChunk_session h hreq]
  refine .bind _ fun _ st _ => .bind _ fun gathered st _ => .lift st ?_
  exact emitReceipt_session hreq s gathered issue issue'

theorem Policy.IgnoresSession.sessionFree (h : p.IgnoresSession) : p.SessionFree py where
  admission _ _ _ _ _ _ hp := admissionCheck_session h hp
  verification _ _ _ _ _ _ _ _ hp hreq := verifyChunks_session h hp hreq

end

/-! ## Paths that do not show the session -/

section

variable {Ω : Type} {rt : Runtime Ω}

/-- On no request that can be recorded does the path show the session to a rule. -/
def SessionBlind (rt : Runtime Ω) (k : PyAtom) : Prop :=
  ∀ (view : View) s, jsonable (.dict (requestInputs view.request)) = true →
    ObservedAlike rt (resolvePath rt k (view.withSession s)) (resolvePath rt k view)

theorem evaluateView_session {roots : List String} {ev : NativeYaml}
    (hev : Accepted rt.toStdlib roots ev) (hblind : ∀ k ∈ ev.paths, SessionBlind rt k)
    {inputs : PyDict} (view : View) (s : Option String)
    (hinputs : jsonable (.dict inputs) = true →
      jsonable (.dict (requestInputs view.request)) = true) :
    ev.evaluateView rt inputs (view.withSession s) = ev.evaluateView rt inputs view := by
  by_cases hj : jsonable (.dict inputs) = true
  · have htime : (view.withSession s).request.timestamp.str? = view.request.timestamp.str? := rfl
    have hrules := hev.evaluateRules_alike htime (fun k hk => hblind k hk view s (hinputs hj))
      ev.defaults.unknownMetadata []
    unfold NativeYaml.evaluateView
    rw [hrules]
  · rw [evaluateView_unrecorded rt hj, evaluateView_unrecorded rt hj]

structure LoadedPolicy.Accepted (py : Stdlib) (p : LoadedPolicy) : Prop where
  access : ∀ ev, p.accessControl = some ev → Provenex.Accepted py chunkDomainRoots ev
  toolCall : ∀ ev, p.toolCallControl = some ev → Provenex.Accepted py toolCallDomainRoots ev

/-- The rules of both evaluators mention these paths only. -/
structure LoadedPolicy.Within (p : LoadedPolicy) (paths : Set PyAtom) : Prop where
  access : ∀ ev, p.accessControl = some ev → ∀ k ∈ ev.paths, k ∈ paths
  toolCall : ∀ ev, p.toolCallControl = some ev → ∀ k ∈ ev.paths, k ∈ paths

theorem loaded_accepted {bundle : PyVal} {source : String} {p : LoadedPolicy}
    (h : Policy.fromBundle rt bundle source = .ok p) : p.Accepted rt.toStdlib := by
  obtain ⟨d, rfl, hl⟩ := Policy.fromBundle_ok.mp h
  refine ⟨?_, ?_⟩
  · intro ev hev
    obtain ⟨sec, -, hchecked⟩ := loaded_section (hev ▸ hl.accessControl)
    exact ⟨_, source, NativeYaml.init_ok.mpr ⟨_, rfl, hchecked⟩⟩
  · intro ev hev
    obtain ⟨sec, -, hchecked⟩ := loaded_section (hev ▸ hl.toolCallControl)
    exact ⟨_, source, NativeYaml.init_ok.mpr ⟨_, rfl, hchecked⟩⟩

theorem ignoresSession {p : LoadedPolicy} (hp : p.Accepted rt.toStdlib) {paths : Set PyAtom}
    (hw : p.Within paths) (hblind : ∀ k ∈ paths, SessionBlind rt k) :
    (p.asPolicy rt).IgnoresSession := by
  refine ⟨?_, ?_⟩
  · intro e he chunk request s
    obtain ⟨ev, hev, rfl⟩ := Option.map_eq_some_iff.mp he
    exact evaluateView_session (hp.access ev hev) (fun k hk => hblind k (hw.access ev hev k hk))
      ⟨some chunk, none, request⟩ s fun h => jsonable_entry h
        (.str "request_context", .dict (requestInputs request)) 
        (by simp [buildInputs, requestInputs_withSession])
  · intro e he tool request s
    obtain ⟨ev, hev, rfl⟩ := Option.map_eq_some_iff.mp he
    exact evaluateView_session (hp.toolCall ev hev) (fun k hk => hblind k (hw.toolCall ev hev k hk))
      ⟨none, some tool, request⟩ s fun h => jsonable_entry h
        (.str "request_context", .dict (requestInputs request)) 
        (by simp [buildToolCallInputs, requestInputs_withSession])

theorem View.root_session {root : String} (h : root ≠ "request") (view : View)
    (s : Option String) : View.root (view.withSession s) root = (view.root root :
      Option (Option (PyObj Ω))) := by
  unfold View.root
  split
  · rfl
  · rfl
  · exact absurd rfl h
  · rfl

/-- Only a path that starts from the request can show its session. -/
theorem sessionBlind_root {p : String} (h : beforeDot p ≠ "request") :
    SessionBlind rt (.str p) := by
  intro view s _
  rw [resolvePath_str, resolvePath_str, View.root_session h]
  exact .refl _

theorem sessionBlind_field {p f : String} {rest : List String}
    (hp : splitDots p = "request" :: f :: rest)
    (hf : f ∈ ["caller", "jurisdiction", "purpose", "timestamp"]) : SessionBlind rt (.str p) := by
  intro view s _
  obtain ⟨v, hv, hstep⟩ := request_field rt hf (view.request.withSession s)
  obtain ⟨v', hv', hstep'⟩ := request_field rt hf view.request
  obtain rfl := Option.some.inj (hv.symm.trans hv')
  rw [resolvePath_segs hp rfl, resolvePath_segs hp rfl]
  simp only [View.withSession, Option.bind_some, PyObj.walk, hstep, hstep']
  exact .refl _

/-- The request itself equals no value and is no string. -/
theorem sessionBlind_request : SessionBlind rt (.str "request") := by
  intro view s _
  have hp : splitDots "request" = ["request"] := by decide +kernel
  rw [resolvePath_segs hp rfl, resolvePath_segs hp rfl]
  exact .found ⟨rfl, fun _ _ => rfl⟩

theorem session_id_shown : ¬ SessionBlind rt (.str "request.session_id") := by
  intro h
  have hp : splitDots "request.session_id" = ["request", "session_id"] := by decide +kernel
  have halike := h ⟨none, none, Sample.request⟩ (some "a") rfl
  rw [resolvePath_segs hp rfl, resolvePath_segs hp rfl] at halike
  cases halike with
  | found hi => cases hi.str

/-! ## Paths that do -/

namespace Sample

def tool : ToolCallContext := ⟨.none, .none, [], .none, .none⟩

end Sample

def unsignedCall (p : Policy) : AdmissionArgs :=
  ⟨.policy p, none, none, none, none, "", false, false, none⟩

theorem toolInputs_jsonable {request : RequestContext}
    (h : jsonable (.dict (requestInputs request)) = true) :
    jsonable (.dict (buildToolCallInputs Sample.tool request)) = true := by
  rw [jsonable_strKeys (by simp [StrKeys, keysOf, buildToolCallInputs]), buildToolCallInputs]
  intro e he
  rcases List.mem_pair.mp he with rfl | rfl
  · rfl
  · exact h

/-- The decision of the evaluator is that of the call. -/
theorem unsignedCall_decision {p : Policy} {ev : ToolCallPolicyEvaluator}
    (hev : p.toolCallControl = some ev) {request : RequestContext} {d : PolicyDecision}
    (hd : ev.evaluate Sample.tool request = .ok d)
    (hj : jsonable (.dict (requestInputs request)) = true) (issue : Issue) (py : Stdlib) :
    ∃ r, admissionCheck py Sample.tool request (unsignedCall p) issue = .ok r ∧
      r.decision = d.decision := by
  have hcaller : jsonable (.dict request.caller) = true :=
    jsonable_entry hj (.str "caller", .dict request.caller) (by simp [requestInputs])
  obtain ⟨payload, hpayload⟩ := (canonicalBytes_ok py).mpr hcaller
  obtain ⟨empty, hempty⟩ := (canonicalBytes_ok py).mpr (rfl : jsonable (.dict []) = true)
  have hdecide : decideToolCall py p Sample.tool request false =
      .ok { d with metadataBinding := some toolCallBinding } := by
    simp [decideToolCall, hev, hd, bind, Except.bind]
  have hparams : computeParametersHash py Sample.tool.parameters = .ok (sha256Hex py empty) := by
    rw [computeParametersHash, show Sample.tool.parameters = [] from rfl, hempty]
    rfl
  simp only [admissionCheck, unsignedCall, coercePolicy, bind, Except.bind, hdecide, hparams,
    computeCallerHash, hpayload, Except.map, ReceiptBuilder.finalize, advance]
  exact ⟨_, rfl, rfl⟩

theorem resolvePath_request {p : String} (h : beforeDot p = "request") (view : View) :
    resolvePath rt (.str p) view = resolvePath rt (.str p) ⟨none, some Sample.tool, view.request⟩ := by
  rw [resolvePath_str, resolvePath_str, h]
  rfl

/-- The evaluator of one rule with one constraint, put in charge of tool calls. -/
theorem probe_admission {ev : NativeYaml} {path : String} {op : Operator} {operand : PyVal}
    (hrules : ev.rules = [probeRule path op operand]) (hdeny : ev.defaults.unknownMetadata = "deny")
    {request : RequestContext} {b : Bool} (hj : jsonable (.dict (requestInputs request)) = true)
    (hb : requireEntryHolds rt "deny" ⟨none, some Sample.tool, request⟩
      (.str path, .dict [(.str op.key, operand)]) = .ok b) :
    ∃ r, admissionCheck rt.toStdlib Sample.tool request
        (unsignedCall (LoadedPolicy.asPolicy rt ⟨.default, none, some ev⟩)) ⟨"", ""⟩ = .ok r ∧
      r.decision = if b then .allow else .deny := by
  obtain ⟨hash, hhash⟩ := (canonicalBytes_ok rt.toStdlib).mpr (toolInputs_jsonable hj)
  have hd : (NativeYamlToolCallEvaluator.asToolCallPolicyEvaluator rt ev).evaluate Sample.tool
      request = .ok ⟨if b then .allow else .deny, ["probe"], sha256Hex rt.toStdlib hash,
        some (buildToolCallInputs Sample.tool request), none⟩ := by
    change ev.evaluateView rt _ _ = _
    rw [NativeYaml.evaluateView, computeInputsHash, hhash, hrules, hdeny, evaluateRules_probe hb]
    rfl
  exact unsignedCall_decision rfl hd hj ⟨"", ""⟩ rt.toStdlib

/-- Where a path shows the session, some accepted policy with that one path asks for it. -/
theorem sessionBlind_of_free {k : PyAtom}
    (h : ∀ p : LoadedPolicy, p.Accepted rt.toStdlib → p.Within {k} →
      (p.asPolicy rt).SessionFree rt.toStdlib) : SessionBlind rt k := by
  intro view s hj
  by_contra hnot
  obtain ⟨path, -, -, -, rfl, -⟩ := separates_of_not_alike hnot
  have hroot : beforeDot path = "request" := by
    by_contra hne
    exact hnot (sessionBlind_root hne view s hj)
  have hallowed : RootAllowed toolCallDomainRoots (.str path) := by
    intro p hp _
    rw [← PyAtom.str.inj hp, hroot]
    decide
  rw [resolvePath_request hroot, resolvePath_request hroot view] at hnot
  obtain ⟨path', op, operand, b, heq, hres, hsep⟩ := separates_of_not_alike hnot
  obtain rfl := PyAtom.str.inj heq
  obtain ⟨ev, hev, hrules, hdeny⟩ :=
    probe_accepted rt.toStdlib hallowed hres hsep.accepts hsep.jsonable
  have hpaths : ∀ k ∈ ev.paths, k ∈ ({.str path} : Set PyAtom) := by
    simp [NativeYaml.paths, hrules, probeRule, keysOf]
  let p : LoadedPolicy := ⟨.default, none, some ev⟩
  have hfree := h p ⟨by simp [p], by simp [p, hev]⟩ ⟨by simp [p], by simpa [p] using hpaths⟩
  have hj' : jsonable (.dict (requestInputs (view.request.withSession s))) = true := hj
  obtain ⟨r, hr, hdr⟩ := probe_admission hrules hdeny hj' hsep.left
  obtain ⟨r', hr', hdr'⟩ := probe_admission hrules hdeny hj hsep.right
  have hsame := hfree.admission Sample.tool view.request s (unsignedCall (p.asPolicy rt)) ⟨"", ""⟩
    ⟨"", ""⟩ rfl
  rw [hr, hr'] at hsame
  cases hsame with
  | ok hsame =>
    have hdec := hsame.decision
    rw [hdr, hdr'] at hdec
    cases b <;> simp at hdec

/-- Policies over a set of paths never let the session into a decision or a receipt if and only if
no path of the set shows it. The one declared field that does is `session_id` itself. -/
theorem session_free_iff (rt : Runtime Ω) :
    (∀ paths : Set PyAtom, (∀ p : LoadedPolicy, p.Accepted rt.toStdlib → p.Within paths →
        (p.asPolicy rt).SessionFree rt.toStdlib) ↔ ∀ k ∈ paths, SessionBlind rt k) ∧
    (∀ bundle source p, Policy.fromBundle rt bundle source = .ok p → p.Accepted rt.toStdlib) ∧
    (∀ p, beforeDot p ≠ "request" → SessionBlind rt (.str p)) ∧
    (∀ p f rest, splitDots p = "request" :: f :: rest →
      f ∈ ["caller", "jurisdiction", "purpose", "timestamp"] → SessionBlind rt (.str p)) ∧
    SessionBlind rt (.str "request") ∧ ¬ SessionBlind rt (.str "request.session_id") := by
  refine ⟨fun paths => ⟨?_, ?_⟩, ?_, ?_, ?_, sessionBlind_request, session_id_shown⟩
  · intro h k hk
    apply sessionBlind_of_free
    intro p hp hw
    refine h p hp ⟨?_, ?_⟩
    · intro ev hev k' hk'
      rwa [hw.access ev hev k' hk']
    · intro ev hev k' hk'
      rwa [hw.toolCall ev hev k' hk']
  · intro hblind p hp hw
    exact (ignoresSession hp hw hblind).sessionFree
  · intro bundle source p h
    exact loaded_accepted h
  · intro p h
    exact sessionBlind_root h
  · intro p f rest hp hf
    exact sessionBlind_field hp hf

end

namespace Sample

/-- A tool-call policy of one rule, on this path. -/
def pathBundle (path : String) : PyVal :=
  .dict [(.str "version", .int 1), (.str "policy_id", .str "session"),
    (.str "tool_call_control", .dict [(.str "rules", .list [.dict [(.str "name", .str "one"),
      (.str "require", .dict [(.str path, .str "a")])]])])]

end Sample

theorem session_free_iff_sample :
    ∃ p, Policy.fromBundle Runtime.blank (Sample.pathBundle "request.caller.role") "policy.yaml" =
        .ok p ∧ (p.asPolicy Runtime.blank).SessionFree Stdlib.blank := by
  obtain ⟨hiff, hloaded, -, hfield, -⟩ := session_free_iff Runtime.blank
  refine ⟨_, rfl, (hiff {.str "request.caller.role"}).mpr ?_ _ (hloaded
    (Sample.pathBundle "request.caller.role") "policy.yaml" _ rfl) ⟨nofun, ?_⟩⟩
  · rintro _ rfl
    exact hfield _ "caller" ["role"] (by decide +kernel) (by decide)
  · rintro _ ⟨⟩ k hk
    exact List.mem_singleton.mp hk

/-- Two admissions of one call, in two sessions. -/
theorem session_id_decides :
    ∃ p, Policy.fromBundle Runtime.blank (Sample.pathBundle "request.session_id") "policy.yaml" =
        .ok p ∧
      ∃ a b, admissionCheck Stdlib.blank Sample.tool (Sample.request.withSession (some "a"))
          (unsignedCall (p.asPolicy Runtime.blank)) ⟨"r", "now"⟩ = .ok a ∧
        admissionCheck Stdlib.blank Sample.tool (Sample.request.withSession (some "b"))
          (unsignedCall (p.asPolicy Runtime.blank)) ⟨"r", "now"⟩ = .ok b ∧
        a.decision = .allow ∧ b.decision = .deny :=
  ⟨_, rfl, _, _, rfl, rfl, rfl, rfl⟩

end Provenex
