import Provenex.Proofs.Emission
import Provenex.Proofs.Fields
import Provenex.ToolCall.Integrations

/-! The three wrappers around a tool derive what is checked and what is handed on
from the same call. Whatever the tool receives was allowed; it was checked too,
but for positional arguments beside keywords, and for empty non-mappings. -/

namespace Provenex

open Guard

/-! ## What a check evaluates and records -/

/-- The decision is what this policy says of this call, and the parameters of the call are what the
receipt hashes. -/
structure Evaluated (py : Stdlib) (policy : PolicyArg) (tool : ToolCallContext)
    (request : RequestContext) (redactParameters redactInputs : Bool) (decision : Decision)
    (receipt : ProvenanceReceipt) : Prop where
  decided : ∃ p d, coercePolicy policy = .ok p ∧
    decideToolCall py p tool request redactInputs = .ok d ∧ d.decision = decision
  recorded : ∃ a : ActionRecord, receipt.actions = [a] ∧
    computeParametersHash py tool.parameters = .ok a.parametersHash ∧
    a.parameters = if redactParameters then none else some tool.parameters

/-- Every value is one of the parameters. -/
def Covers (parameters : PyDict) (values : List PyVal) : Prop :=
  ∀ v ∈ values, v ∈ parameters.map Prod.snd

/-- The values that an input carries. -/
def argumentValues : PyVal → List PyVal
  | .dict d => d.map Prod.snd
  | v => [v]

/-- The same, of what may be left out. -/
def givenValues : PyVal → List PyVal
  | .none => []
  | v => argumentValues v

/-- The argument values of a request. -/
def McpRequest.argumentValues (request : McpRequest) : List PyVal :=
  givenValues request.params.arguments

variable {py : Stdlib}

theorem admissionCheck_evaluated {tool : ToolCallContext} {request : RequestContext}
    {args : AdmissionArgs} {issue : Issue} {result : AdmissionResult}
    (h : admissionCheck py tool request args issue = .ok result) :
    Evaluated py args.policy tool request args.redactParameters args.redactInputs result.decision
      result.receipt := by
  obtain ⟨policy, d, hash, callerHash, hadmitted⟩ := admissionCheck_ok h
  exact ⟨⟨policy, d, hadmitted.coerced, hadmitted.decided, hadmitted.decision.symm⟩,
    ⟨_, (finalize_ok hadmitted.receipt).actions, hadmitted.hashed, rfl⟩⟩

theorem allowed_iff {result : AdmissionResult} :
    result.allowed = true ↔ result.decision = .allow := by
  simp [AdmissionResult.allowed]

theorem Covers.self (d : PyDict) : Covers d (d.map Prod.snd) := fun _ h => h

theorem covers_append {d : PyDict} {xs ys : List PyVal} :
    Covers d (xs ++ ys) ↔ Covers d xs ∧ Covers d ys := by
  simp [Covers, or_imp, forall_and]

/-! ## CrewAI -/

/-- No keyword is passed besides the overrides, or the positional values repeat keyword values. -/
def PositionalCovered (args : List PyVal) (kwargs : PyDict) : Prop :=
  without kwargs reservedKeys = [] ∨ Covers (without kwargs reservedKeys) args

/-- The parameters of positional arguments alone. -/
theorem covers_positional (args : List PyVal) :
    Covers (args.zipIdx.map fun e => (.str ("arg" ++ toString e.2), e.1)) args := by
  intro v hv
  rw [List.map_map]
  have hfst : (Prod.snd ∘ fun e : PyVal × ℕ => (PyAtom.str ("arg" ++ toString e.2), e.1)) =
      Prod.fst := rfl
  rw [hfst, List.zipIdx_map_fst]
  exact hv

section

variable {tool : GatedTool} {args : List PyVal} {kwargs : PyDict} {toolCtx : ToolCallContext}

theorem toolContext_keywords (hdefault : tool.paramsExtractor = none)
    (hrest : without kwargs reservedKeys ≠ []) (h : tool.toolContext args kwargs = .ok toolCtx) :
    toolCtx.parameters = without kwargs reservedKeys := by
  unfold GatedTool.toolContext at h
  unfold reservedKeys at hrest
  rw [hdefault] at h
  dsimp only at h
  rw [if_pos hrest] at h
  obtain ⟨parameters, hparameters, h⟩ := bind_ok.mp h
  obtain rfl := Except.ok.inj hparameters
  obtain rfl := Except.ok.inj h
  rfl

theorem toolContext_positional (hdefault : tool.paramsExtractor = none)
    (hrest : without kwargs reservedKeys = []) (h : tool.toolContext args kwargs = .ok toolCtx) :
    Covers toolCtx.parameters args := by
  unfold GatedTool.toolContext at h
  unfold reservedKeys at hrest
  simp only [hdefault, hrest, ne_eq, not_true_eq_false, if_false] at h
  split at h
  all_goals
    obtain ⟨parameters, hparameters, h⟩ := bind_ok.mp h
    obtain rfl := Except.ok.inj hparameters
    obtain rfl := Except.ok.inj h
  · exact Covers.self [(.str "input", _)]
  · exact covers_positional args

theorem toolContext_covers (hdefault : tool.paramsExtractor = none)
    (h : tool.toolContext args kwargs = .ok toolCtx) :
    Covers toolCtx.parameters (args ++ (without kwargs reservedKeys).map Prod.snd) ↔
      PositionalCovered args kwargs := by
  unfold PositionalCovered
  by_cases hrest : without kwargs reservedKeys = []
  · have hargs := toolContext_positional hdefault hrest h
    rw [hrest, List.map_nil, List.append_nil]
    simp only [hargs, true_or]
  · rw [toolContext_keywords hdefault hrest h, covers_append, and_iff_left (Covers.self _),
      or_iff_right hrest]

end

theorem crew_covers {σ : Type} {c c' : ProvenexCrewSession σ} {tool : GatedTool}
    {args : List PyVal} {kwargs : PyDict} {issue : Issue} {call : GatedCall}
    (hdefault : tool.paramsExtractor = none)
    (h : c.wrapToolAdmission py tool args kwargs issue = .ok (call, c')) :
    ∃ toolCtx request decision receipt, tool.toolContext args kwargs = .ok toolCtx ∧
      tool.requestFactory args (without kwargs reservedKeys) = .ok request ∧
      c'.receipts = c.receipts ++ [receipt] ∧
      Evaluated py (.policy c.policy) toolCtx request tool.redactParameters false decision receipt ∧
      ∀ args' kwargs', call = .invoked args' kwargs' → decision = .allow ∧
        (Covers toolCtx.parameters (args' ++ kwargs'.map Prod.snd) ↔
          PositionalCovered args kwargs) := by
  obtain ⟨toolCtx, htool, h⟩ := bind_ok.mp h
  obtain ⟨request, hrequest, h⟩ := bind_ok.mp h
  obtain ⟨⟨result, c₁⟩, hresult, h⟩ := bind_ok.mp h
  obtain ⟨hcall, rfl⟩ := Prod.mk.inj (Except.ok.inj h)
  obtain ⟨result₀, hcheck, hresult⟩ := bind_ok.mp hresult
  obtain ⟨rfl, rfl⟩ := Prod.mk.inj (Except.ok.inj hresult)
  refine ⟨toolCtx, request, _, _, htool, hrequest, rfl, admissionCheck_evaluated hcheck,
    fun args' kwargs' hinvoked => ?_⟩
  rw [hinvoked] at hcall
  split_ifs at hcall with hallowed
  obtain ⟨rfl, rfl⟩ := GatedCall.invoked.inj hcall
  exact ⟨allowed_iff.mp hallowed, toolContext_covers hdefault htool⟩

/-! ## LangChain -/

namespace ProvenexToolWrapper

theorem splitInput_covers (w : ProvenexToolWrapper) (input : PyVal) :
    Covers (w.splitInput input).parameters (argumentValues (cleanInput input)) := by
  cases input with
  | dict d => exact Covers.self (without d reservedKeys)
  | atom a => exact Covers.self [(.str "input", .atom a)]
  | list xs => exact Covers.self [(.str "input", .list xs)]

theorem invoke_covers {w : ProvenexToolWrapper} {input : PyVal}
    {trajectory : Option TrajectoryContext} {issue : Issue} {run : Dispatch PyVal}
    {result : AdmissionResult} (h : w.invoke py input trajectory issue = .ok (run, result)) :
    ∃ request, w.requestFactory input = .ok request ∧
      Evaluated py w.policy (w.splitInput input) request w.redactParameters false result.decision
        result.receipt ∧
      ∀ input', run = .forwarded input' → result.decision = .allow ∧
        Covers (w.splitInput input).parameters (argumentValues input') := by
  obtain ⟨request, hrequest, h⟩ := bind_ok.mp h
  obtain ⟨result₀, hcheck, h⟩ := bind_ok.mp h
  obtain ⟨hrun, rfl⟩ := Prod.mk.inj (Except.ok.inj h)
  refine ⟨request, hrequest, admissionCheck_evaluated hcheck, fun input' hforwarded => ?_⟩
  rw [hforwarded] at hrun
  split_ifs at hrun with hallowed
  obtain rfl := Dispatch.forwarded.inj hrun
  exact ⟨allowed_iff.mp hallowed, w.splitInput_covers input⟩

end ProvenexToolWrapper

/-! ## MCP -/

theorem getOrNone_modifyItem {k : String} {f : PyVal → PyVal} (hf : f .none = .none) (d : PyDict) :
    getOrNone (modifyItem k f d) k = f (getOrNone d k) := by
  induction d with
  | nil => exact hf.symm
  | cons e rest ih =>
    unfold modifyItem
    split_ifs with he
    · rw [getOrNone, getOrNone, getKey, getKey, dictGet_cons, dictGet_cons, if_pos he, if_pos he]
      rfl
    · rw [getOrNone, getOrNone, getKey, getKey, dictGet_cons, dictGet_cons, if_neg he, if_neg he]
      exact ih

theorem plainField_popIn {k : String} {pop : PyVal → PyVal} (hpop : pop .none = .none)
    (v : PyVal) : plainField (popIn k pop v) k = pop (plainField v k) := by
  cases v with
  | dict d => exact getOrNone_modifyItem hpop d
  | atom a => exact hpop.symm
  | list xs => exact hpop.symm

theorem params_popOverrides (request : McpRequest) :
    request.popOverrides.params = request.params.popOverrides := by
  cases request with
  | plain v => exact congrArg McpParams.plain (plainField_popIn rfl v)
  | object params id => rfl

/-- The overrides are all that the request loses. -/
theorem arguments_popOverrides (request : McpRequest) :
    request.popOverrides.params.arguments = popReserved request.params.arguments := by
  rw [params_popOverrides]
  cases request.params with
  | plain v => exact plainField_popIn rfl v
  | object name arguments targetSystem => rfl

theorem plainField_falsy {v : PyVal} (h : v.truthy = false) (k : String) :
    plainField v k = .none := by
  cases v with
  | dict d =>
    obtain rfl : d = [] := by simpa [PyVal.truthy] using h
    rfl
  | atom a => rfl
  | list xs => rfl

/-- What is read off `params` does not depend on `or {}`. -/
theorem orEmpty_reads (params : McpParams) {p : McpParams}
    (h : p = if params.truthy then params else .plain (.dict [])) :
    p.name = params.name ∧ p.arguments = params.arguments ∧ p.targetSystem = params.targetSystem := by
  split_ifs at h with ht
  · exact h ▸ ⟨rfl, rfl, rfl⟩
  · cases params with
    | plain v =>
      have hv (k : String) := plainField_falsy (Bool.eq_false_of_not_eq_true ht : v.truthy = false) k
      exact h ▸ ⟨(hv _).symm, (hv _).symm, (hv _).symm⟩
    | object name arguments targetSystem => exact absurd rfl ht

/-- The arguments are absent, a mapping, or not empty. -/
def McpRequest.ArgumentsChecked (request : McpRequest) : Prop :=
  request.params.arguments = .none ∨ (∃ d, request.params.arguments = .dict d) ∨
    request.params.arguments.truthy = true

theorem givenValues_plain {v : PyVal} (hnone : v ≠ .none) (hdict : ¬ ∃ d, v = .dict d) :
    givenValues v = [v] := by
  unfold givenValues
  split
  · exact absurd rfl hnone
  · unfold argumentValues
    split
    · exact absurd ⟨_, rfl⟩ hdict
    · rfl

/-- The mapping that the decoder makes of the arguments. -/
def givenArguments (arguments : PyVal) : PyDict :=
  match pyOr arguments (.dict []) with
  | .dict d => d
  | v => [(.str "value", v)]

theorem givenArguments_dict (d : PyDict) : givenArguments (.dict d) = d := by
  unfold givenArguments pyOr
  split_ifs with h
  · rfl
  · obtain rfl : d = [] := by simpa [PyVal.truthy] using h
    rfl

theorem decode_context (defaultTargetSystem : PyVal) (request : McpRequest) :
    (decodeToolsCallRequest py defaultTargetSystem request).1 = {
      name := pyOr request.params.name (.str "")
      operation := getOr (givenArguments request.params.arguments) "__operation__"
        (getOr (givenArguments request.params.arguments) "operation" (.str "invoke"))
      parameters := without (givenArguments request.params.arguments) reservedKeys
      targetSystem := pyOr (pyOr (getOrNone (givenArguments request.params.arguments)
        "__target_system__") request.params.targetSystem) defaultTargetSystem
      invocationId := pyOr (pyOr (getOrNone (givenArguments request.params.arguments)
        "__invocation_id__") (.str (py.format (pyOr request.id (.str ""))))) .none } := by
  obtain ⟨hname, harguments, htarget⟩ := orEmpty_reads request.params rfl
  unfold decodeToolsCallRequest
  dsimp only
  rw [hname, harguments, htarget]
  unfold givenArguments
  cases pyOr request.params.arguments (.dict []) <;> rfl

theorem decode_covers (defaultTargetSystem : PyVal) (request : McpRequest) :
    Covers (decodeToolsCallRequest py defaultTargetSystem request).1.parameters
        request.popOverrides.argumentValues ↔ request.ArgumentsChecked := by
  rw [decode_context, McpRequest.argumentValues, arguments_popOverrides,
    McpRequest.ArgumentsChecked]
  dsimp only
  generalize request.params.arguments = v
  by_cases hnone : v = .none
  · rw [hnone]
    simp [popReserved, givenValues, Covers]
  by_cases hdict : ∃ d, v = .dict d
  · obtain ⟨d, rfl⟩ := hdict
    rw [givenArguments_dict]
    exact iff_of_true (Covers.self (without d reservedKeys)) (.inr (.inl ⟨d, rfl⟩))
  · have hpop : popReserved v = v := by
      unfold popReserved
      split
      · exact absurd ⟨_, rfl⟩ hdict
      · rfl
    have hvalues : Covers (without (givenArguments v) reservedKeys) [v] ↔ v.truthy = true := by
      unfold givenArguments pyOr
      split_ifs with h
      · split
        · exact absurd ⟨_, rfl⟩ hdict
        · exact iff_of_true (Covers.self [(.str "value", v)]) h
      · simp [h, Covers, without]
    rw [hpop, givenValues_plain hnone hdict, hvalues]
    exact ⟨fun h => .inr (.inr h), fun h => (h.resolve_left hnone).resolve_left hdict⟩

/-- The context that the middleware has checked. -/
def McpAdmission.checked (py : Stdlib) (m : McpAdmission) (request : McpRequest) : ToolCallContext :=
  (decodeToolsCallRequest py m.defaultTargetSystem request).1

/-- A check that returns decided on the context decoded of the request, and on what the factory makes
of the request without its overrides. -/
theorem wrapMcpRequest_ok {m : McpAdmission} {trajectory : Option TrajectoryContext} {issue : Issue}
    {request left : McpRequest} {result : AdmissionResult}
    (h : wrapMcpRequest py m trajectory issue request = .ok result left) :
    left = request.popOverrides ∧ ∃ context, m.requestFactory request.popOverrides = .ok context ∧
      Evaluated py m.policy (m.checked py request) context m.redactParameters false result.decision
        result.receipt := by
  obtain ⟨tool, _, hdecode, h⟩ := Effect.bind_ok.mp h
  obtain ⟨seen, _, hseen, h⟩ := Effect.bind_ok.mp h
  obtain ⟨context, _, hcontext, h⟩ := Effect.bind_ok.mp h
  obtain ⟨hcheck, rfl⟩ := Effect.lift_ok.mp h
  obtain ⟨hfactory, rfl⟩ := Effect.lift_ok.mp hcontext
  obtain ⟨rfl, rfl⟩ := EStateM.Result.ok.inj hdecode
  obtain ⟨rfl, rfl⟩ := EStateM.Result.ok.inj hseen
  exact ⟨rfl, context, hfactory, admissionCheck_evaluated hcheck⟩

theorem mcp_covers {m : McpAdmission} {issue : Issue} {request left : McpRequest}
    {run : Dispatch McpRequest} {result : AdmissionResult}
    (h : provenexMcpAdmission py m issue request = .ok (run, result) left) :
    ∃ context, m.requestFactory request.popOverrides = .ok context ∧
      Evaluated py m.policy (m.checked py request) context m.redactParameters false result.decision
        result.receipt ∧
      ∀ handled, run = .forwarded handled → result.decision = .allow ∧
        (Covers (m.checked py request).parameters handled.argumentValues ↔
          request.ArgumentsChecked) := by
  obtain ⟨result₀, _, hwrap, h⟩ := Effect.bind_ok.mp h
  obtain ⟨rfl, context, hcontext, hevaluated⟩ := wrapMcpRequest_ok hwrap
  obtain ⟨handled, _, hhandled, h⟩ := Effect.bind_ok.mp h
  obtain ⟨rfl, rfl⟩ := EStateM.Result.ok.inj hhandled
  obtain ⟨hpair, -⟩ := Effect.pure_ok.mp h
  obtain ⟨hrun, rfl⟩ := Prod.mk.inj hpair
  refine ⟨context, hcontext, hevaluated, fun handled hforwarded => ?_⟩
  rw [hforwarded] at hrun
  split_ifs at hrun with hallowed
  obtain rfl := Dispatch.forwarded.inj hrun
  exact ⟨allowed_iff.mp hallowed, decode_covers m.defaultTargetSystem request⟩

/-! ## All three -/

/-- A tool is run only where the wrapper's policy allows the call, as the context built of this call's
own arguments shows it. What the tool is run with was checked: by the LangChain wrapper always, by the
two others exactly under the conditions named. -/
theorem admission_covers_iff (py : Stdlib) :
    (∀ {σ : Type} {c c' : ProvenexCrewSession σ} {tool : GatedTool} {args : List PyVal}
        {kwargs : PyDict} {issue : Issue} {call : GatedCall}, tool.paramsExtractor = none →
        c.wrapToolAdmission py tool args kwargs issue = .ok (call, c') →
        ∃ toolCtx request decision receipt, tool.toolContext args kwargs = .ok toolCtx ∧
          tool.requestFactory args (without kwargs reservedKeys) = .ok request ∧
          c'.receipts = c.receipts ++ [receipt] ∧
          Evaluated py (.policy c.policy) toolCtx request tool.redactParameters false decision receipt ∧
          ∀ args' kwargs', call = .invoked args' kwargs' → decision = .allow ∧
            (Covers toolCtx.parameters (args' ++ kwargs'.map Prod.snd) ↔
              PositionalCovered args kwargs)) ∧
      (∀ {w : ProvenexToolWrapper} {input : PyVal} {trajectory : Option TrajectoryContext}
        {issue : Issue} {run : Dispatch PyVal} {result : AdmissionResult},
        w.invoke py input trajectory issue = .ok (run, result) →
        ∃ request, w.requestFactory input = .ok request ∧
          Evaluated py w.policy (w.splitInput input) request w.redactParameters false result.decision
            result.receipt ∧
          ∀ input', run = .forwarded input' → result.decision = .allow ∧
            Covers (w.splitInput input).parameters (argumentValues input')) ∧
      ∀ {m : McpAdmission} {issue : Issue} {request left : McpRequest}
        {run : Dispatch McpRequest} {result : AdmissionResult},
        provenexMcpAdmission py m issue request = .ok (run, result) left →
        ∃ context, m.requestFactory request.popOverrides = .ok context ∧
          Evaluated py m.policy (m.checked py request) context m.redactParameters false
            result.decision result.receipt ∧
          ∀ handled, run = .forwarded handled → result.decision = .allow ∧
            (Covers (m.checked py request).parameters handled.argumentValues ↔
              request.ArgumentsChecked) :=
  ⟨crew_covers, ProvenexToolWrapper.invoke_covers, mcp_covers⟩

namespace Sample

def anyone : RequestContext := ⟨[], .none, .none, .none, none⟩

def crew : ProvenexCrewSession Unit where
  index := ⟨fun _ => pure .unverified, fun _ => pure none⟩
  signer := none
  policy := ⟨.default, none, none⟩
  fingerprinter := .default
  agentId := none
  trajectory := .start "t" "now" none none none
  receipts := []

def shell : GatedTool where
  name := .str "shell"
  operation := .str "invoke"
  targetSystem := .none
  paramsExtractor := none
  requestFactory := fun _ _ => .ok anyone
  stepKind := "tool_call"
  agentId := none
  redactParameters := false

def wrapper : ProvenexToolWrapper :=
  ⟨.str "shell", .policy ⟨.default, none, none⟩, none, fun _ => .ok anyone, .str "invoke", .none, false⟩

def middleware : McpAdmission :=
  ⟨.policy ⟨.default, none, none⟩, none, fun _ => .ok anyone, .none, false⟩

/-- A request with these arguments. -/
def callTool (arguments : PyVal) : McpRequest :=
  .plain (.dict [(.str "method", .str "tools/call"),
    (.str "params", .dict [(.str "name", .str "shell"), (.str "arguments", arguments)])])

end Sample

theorem admission_covers_sample :
    (∃ c' toolCtx request receipt, Sample.crew.wrapToolAdmission Stdlib.blank Sample.shell
          [.str "ls"] [] ⟨"r", "now"⟩ = .ok (.invoked [.str "ls"] [], c') ∧
        Sample.shell.toolContext [.str "ls"] [] = .ok toolCtx ∧ c'.receipts = [receipt] ∧
        Evaluated Stdlib.blank (.policy Sample.crew.policy) toolCtx request false false .allow receipt ∧
        Covers toolCtx.parameters [.str "ls"]) ∧
      (∃ request result, Sample.wrapper.invoke Stdlib.blank (.str "ls") none ⟨"r", "now"⟩ =
          .ok (.forwarded (.str "ls"), result) ∧
        Evaluated Stdlib.blank Sample.wrapper.policy (Sample.wrapper.splitInput (.str "ls")) request
          false false result.decision result.receipt ∧
        Covers (Sample.wrapper.splitInput (.str "ls")).parameters [.str "ls"]) ∧
      ∃ handled left context result, provenexMcpAdmission Stdlib.blank Sample.middleware
          ⟨"r", "now"⟩ (Sample.callTool (.str "ls")) = .ok (.forwarded handled, result) left ∧
        Evaluated Stdlib.blank Sample.middleware.policy
          (Sample.middleware.checked Stdlib.blank (Sample.callTool (.str "ls"))) context false false
          result.decision result.receipt ∧
        Covers (Sample.middleware.checked Stdlib.blank (Sample.callTool (.str "ls"))).parameters
          handled.argumentValues := by
  obtain ⟨hcrew, hwrapper, hmcp⟩ := admission_covers_iff Stdlib.blank
  have hcall : Sample.crew.wrapToolAdmission Stdlib.blank Sample.shell [.str "ls"] []
      ⟨"r", "now"⟩ = .ok (.invoked [.str "ls"] [], _) := rfl
  have hrun : Sample.wrapper.invoke Stdlib.blank (.str "ls") none ⟨"r", "now"⟩ =
      .ok (.forwarded (.str "ls"), _) := rfl
  have hhandle : provenexMcpAdmission Stdlib.blank Sample.middleware ⟨"r", "now"⟩
      (Sample.callTool (.str "ls")) = .ok (.forwarded _, _) _ := rfl
  refine ⟨?_, ?_, ?_⟩
  · obtain ⟨toolCtx, request, decision, receipt, htool, -, hreceipts, hevaluated, hinvoked⟩ :=
      hcrew rfl hcall
    obtain ⟨rfl, hcovers⟩ := hinvoked _ _ rfl
    exact ⟨_, toolCtx, request, receipt, hcall, htool, hreceipts, hevaluated,
      hcovers.mpr (.inl rfl)⟩
  · obtain ⟨request, -, hevaluated, hforwarded⟩ := hwrapper hrun
    exact ⟨request, _, hrun, hevaluated, (hforwarded _ rfl).2⟩
  · obtain ⟨context, -, hevaluated, hforwarded⟩ := hmcp hhandle
    exact ⟨_, _, context, _, hhandle, hevaluated,
      (hforwarded _ rfl).2.mpr (.inr (.inr (by decide)))⟩

/-- A positional argument beside a keyword reaches the tool, and no check. -/
theorem positional_bypasses :
    ∃ toolCtx c', Sample.shell.toolContext [.str "rm -rf"] [(.str "dry_run", .bool true)] = .ok toolCtx ∧
      Sample.crew.wrapToolAdmission Stdlib.blank Sample.shell [.str "rm -rf"]
        [(.str "dry_run", .bool true)] ⟨"r", "now"⟩ =
          .ok (.invoked [.str "rm -rf"] [(.str "dry_run", .bool true)], c') ∧
      ¬ Covers toolCtx.parameters [.str "rm -rf"] := by
  refine ⟨_, _, rfl, rfl, fun h => ?_⟩
  simpa [without] using h (.str "rm -rf") List.mem_cons_self

end Provenex
