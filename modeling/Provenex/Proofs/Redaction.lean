import Provenex.Proofs.Emission
import Provenex.Proofs.Evaluate

/-! What a redacted receipt still shows of the parameters. The action record
holds their hash only; the inputs of the decision hold them verbatim, unless
these are redacted by the other switch. -/

namespace Provenex

open Guard

/-! ## What two redacted receipts may differ in -/

def blankInputsHash (entry : PyDict) : PyDict :=
  entry.map fun e => if e.1 = .str "inputs_hash" then (e.1, .str "") else e

/-- The receipt without the hashes of parameters and inputs, what identifies it, and the value of
its signature. -/
def ProvenanceReceipt.blanked (r : ProvenanceReceipt) : ProvenanceReceipt :=
  { r with
    receiptId := ""
    issuedAt := ""
    actions := r.actions.map fun a => { a with parametersHash := "" }
    toolCallControl := r.toolCallControl.map fun c =>
      { c with decisions := c.decisions.map blankInputsHash }
    signature := r.signature.map fun s => (s.1, "") }

theorem blankInputsHash_entry (i : ℕ) (d : PolicyDecision) :
    blankInputsHash (admissionEntry i d) = admissionEntry i { d with inputsHash := "" } := by
  simp [blankInputsHash, admissionEntry]

section

variable (py : Stdlib) (policy : Policy) (tool : ToolCallContext) (request : RequestContext)
  (args : AdmissionArgs)

/-- The `tool_call_control` block of a receipt, without the hash of the inputs. -/
def blankControl (decision : Decision) (rulesFired : List String) (inputs : Option PyDict) :
    Option ControlMetadata :=
  policy.toolCallControl.map fun evaluator => buildToolCallControlMetadata evaluator
    [admissionEntry 0 ⟨decision, rulesFired, "", inputs, some toolCallBinding⟩]

/-- The receipt of a call, blanked, from the decision on it. -/
def blankCall (callerHash : String) (decision : Decision) (rulesFired : List String)
    (inputs : Option PyDict) : ProvenanceReceipt :=
  let builder := ((ReceiptBuilder.init policy.verification).addAction tool.name tool.operation ""
    none tool.targetSystem tool.invocationId).2
  { receiptId := ""
    issuedAt := ""
    outputHash := hashOutput py args.outputText
    sources := []
    policy := policy.verification
    summary := builder.summary (blankControl policy decision rulesFired inputs)
    signature := args.signer.map fun s => (s.algorithm, "")
    transparencyLog := none
    trajectory := (emitToolTrajectory args.trajectory args.stepKind args.agentId
      request.sessionId).map (·.toDict)
    accessControl := none
    actions := builder.actions
    toolCallControl := blankControl policy decision rulesFired inputs
    callerHash := some callerHash }

end

section

variable {py : Stdlib} {policy : Policy} {tool : ToolCallContext} {request : RequestContext}
  {args : AdmissionArgs}

theorem finalize_blanked {b : ReceiptBuilder} {outputText : String} {signer : Option ReceiptSigner}
    {log : Option PyDict} {trajectory : Option TrajectoryContext}
    {accessControl toolCallControl : Option ControlMetadata} {callerHash : Option String}
    {issue : Issue} {r : ProvenanceReceipt}
    (h : b.finalize py outputText signer log trajectory accessControl toolCallControl callerHash
      issue = .ok r) :
    ∃ r₀, b.finalize py outputText none log trajectory accessControl toolCallControl callerHash
        issue = .ok r₀ ∧
      r.blanked = { r₀.blanked with signature := signer.map fun s => (s.algorithm, "") } := by
  obtain ⟨r₀, value, hr₀, rfl⟩ := finalize_unsigned h
  refine ⟨r₀, hr₀, ?_⟩
  cases signer <;> rfl

/-- Nothing of the parameters is left but what the decision records of them. -/
theorem admissionCheck_blanked {issue : Issue} {result : AdmissionResult}
    (hpolicy : coercePolicy args.policy = .ok policy) (hredact : args.redactParameters = true)
    (h : admissionCheck py tool request args issue = .ok result) :
    ∃ d callerHash, decideToolCall py policy tool request args.redactInputs = .ok d ∧
      computeCallerHash py request.caller args.callerHashSalt = .ok callerHash ∧
      result.decision = d.decision ∧ result.rulesFired = d.rulesFired ∧
      result.receipt.blanked =
        blankCall py policy tool request args callerHash d.decision d.rulesFired d.inputs := by
  obtain ⟨p, d, hash, callerHash, hadmitted⟩ := admissionCheck_ok h
  obtain rfl := Except.ok.inj (hpolicy.symm.trans hadmitted.coerced)
  have hd := hadmitted.decided
  have hreceipt := hadmitted.receipt
  rw [admissionBuilder, admissionControl, hredact, if_pos rfl] at hreceipt
  refine ⟨d, callerHash, hd, hadmitted.caller, hadmitted.decision, hadmitted.rulesFired, ?_⟩
  have hbinding : d.metadataBinding = some toolCallBinding := by
    unfold decideToolCall at hd
    split at hd
    · obtain ⟨inputsHash, -, hd⟩ := bind_ok.mp hd
      obtain rfl := Except.ok.inj hd
      rfl
    · obtain ⟨raw, -, hd⟩ := bind_ok.mp hd
      obtain rfl := Except.ok.inj hd
      rfl
  obtain ⟨r₀, hr₀, hblank⟩ := finalize_blanked hreceipt
  obtain rfl := Except.ok.inj hr₀
  rw [hblank]
  obtain ⟨decision, rulesFired, inputsHash, inputs, binding⟩ := d
  obtain rfl : binding = some toolCallBinding := hbinding
  unfold ProvenanceReceipt.blanked blankCall blankControl
  cases policy.toolCallControl with
  | none => rfl
  | some evaluator =>
    simp only [Option.map_some, buildToolCallControlMetadata, List.map_cons, List.map_nil,
      blankInputsHash_entry]
    rfl

theorem blankCall_inj {callerHash : String} {decision : Decision} {rulesFired : List String}
    {inputs inputs' : Option PyDict} :
    blankCall py policy tool request args callerHash decision rulesFired inputs =
        blankCall py policy tool request args callerHash decision rulesFired inputs' ↔
      policy.toolCallControl = none ∨ inputs = inputs' := by
  constructor
  · intro h
    have hcontrol : blankControl policy decision rulesFired inputs =
        blankControl policy decision rulesFired inputs' :=
      congrArg ProvenanceReceipt.toolCallControl h
    unfold blankControl at hcontrol
    cases hev : policy.toolCallControl with
    | none => exact .inl rfl
    | some evaluator =>
      rw [hev] at hcontrol
      have hentry := List.head_eq_of_cons_eq
        (congrArg ControlMetadata.decisions (Option.some.inj hcontrol))
      right
      have hinputs : orNull .dict inputs = orNull .dict inputs' := by
        simpa [admissionEntry] using hentry
      cases inputs <;> cases inputs' <;> simp_all [orNull]
  · rintro (h | rfl)
    · unfold blankCall blankControl
      rw [h]
      rfl
    · rfl

/-! ## Two calls -/

/-- The evaluator, if there is one, records the same inputs of the two calls. -/
def RecordedAlike (policy : Policy) (request : RequestContext) (tool tool' : ToolCallContext) :
    Prop :=
  ∀ evaluator, policy.toolCallControl = some evaluator →
    ∀ d d', evaluator.evaluate tool request = .ok d → evaluator.evaluate tool' request = .ok d' →
      d.inputs = d'.inputs

/-- The evaluator records the inputs that `build_tool_call_inputs` makes. -/
def ToolCallPolicyEvaluator.RecordsInputs (evaluator : ToolCallPolicyEvaluator) : Prop :=
  ∀ tool request d, evaluator.evaluate tool request = .ok d →
    d.inputs = some (buildToolCallInputs tool request)

theorem native_recordsInputs {Ω : Type} (rt : Runtime Ω) (ev : NativeYaml) :
    (NativeYamlToolCallEvaluator.asToolCallPolicyEvaluator rt ev).RecordsInputs := by
  intro tool request d h
  obtain ⟨hash, -, h⟩ := bind_ok.mp h
  obtain ⟨outcome, -, h⟩ := bind_ok.mp h
  obtain rfl := Except.ok.inj h
  rfl

theorem buildToolCallInputs_inj {parameters' : PyDict}
    (h : buildToolCallInputs tool request =
      buildToolCallInputs { tool with parameters := parameters' } request) :
    tool.parameters = parameters' := by
  have hblock := congrArg Prod.snd (List.head_eq_of_cons_eq h)
  simpa using hblock

/-- Evaluators that record the inputs record those of two calls alike where the parameters are
the same. -/
theorem recordedAlike_iff {parameters' : PyDict}
    (hrecords : ∀ evaluator, policy.toolCallControl = some evaluator → evaluator.RecordsInputs)
    {redact : Bool} {d d' : PolicyDecision} (hd : decideToolCall py policy tool request redact = .ok d)
    (hd' : decideToolCall py policy { tool with parameters := parameters' } request redact = .ok d') :
    RecordedAlike policy request tool { tool with parameters := parameters' } ↔
      policy.toolCallControl = none ∨ tool.parameters = parameters' := by
  constructor
  · intro h
    cases hev : policy.toolCallControl with
    | none => exact .inl rfl
    | some evaluator =>
      simp only [decideToolCall, hev] at hd hd'
      obtain ⟨raw, hraw, -⟩ := bind_ok.mp hd
      obtain ⟨raw', hraw', -⟩ := bind_ok.mp hd'
      have hinputs := h evaluator hev raw raw' hraw hraw'
      rw [hrecords evaluator hev tool request raw hraw,
        hrecords evaluator hev _ request raw' hraw'] at hinputs
      exact .inr (buildToolCallInputs_inj (Option.some.inj hinputs))
  · rintro (h | rfl) evaluator hev d d' hd hd'
    · rw [h] at hev
      cases hev
    · obtain rfl := Except.ok.inj (hd.symm.trans hd')
      rfl

/-- The inputs on the receipts, from those that the evaluator recorded. -/
theorem decideToolCall_inputs {tool' : ToolCallContext} {redact : Bool} {d d' : PolicyDecision}
    (hd : decideToolCall py policy tool request redact = .ok d)
    (hd' : decideToolCall py policy tool' request redact = .ok d') :
    policy.toolCallControl = none ∨ d.inputs = d'.inputs ↔
      redact = true ∨ RecordedAlike policy request tool tool' := by
  cases hev : policy.toolCallControl with
  | none => simp [RecordedAlike, hev]
  | some evaluator =>
    simp only [decideToolCall, hev] at hd hd'
    obtain ⟨raw, hraw, hd⟩ := bind_ok.mp hd
    obtain ⟨raw', hraw', hd'⟩ := bind_ok.mp hd'
    obtain rfl := Except.ok.inj hd
    obtain rfl := Except.ok.inj hd'
    have halike : RecordedAlike policy request tool tool' ↔ raw.inputs = raw'.inputs := by
      constructor
      · exact fun h => h evaluator hev raw raw' hraw hraw'
      · intro h e he d d' hd hd'
        obtain rfl := Option.some.inj (hev.symm.trans he)
        obtain rfl := Except.ok.inj (hraw.symm.trans hd)
        obtain rfl := Except.ok.inj (hraw'.symm.trans hd')
        exact h
    rw [halike]
    cases redact with
    | true => simp
    | false => simp

/-- Two calls that differ in the parameters only, and are decided alike, leave receipts that do
not tell them apart exactly where the decisions do not record the parameters. -/
theorem redaction_hides_iff (py : Stdlib) (policy : Policy) (tool : ToolCallContext)
    (parameters' : PyDict) (request : RequestContext) (args : AdmissionArgs) (issue issue' : Issue)
    (a b : AdmissionResult) (hpolicy : coercePolicy args.policy = .ok policy)
    (hredact : args.redactParameters = true)
    (ha : admissionCheck py tool request args issue = .ok a)
    (hb : admissionCheck py { tool with parameters := parameters' } request args issue' = .ok b)
    (hdecision : a.decision = b.decision) (hrules : a.rulesFired = b.rulesFired) :
    (a.receipt.blanked = b.receipt.blanked ↔ args.redactInputs = true ∨
      RecordedAlike policy request tool { tool with parameters := parameters' }) ∧
    ((∀ evaluator, policy.toolCallControl = some evaluator → evaluator.RecordsInputs) →
      (a.receipt.blanked = b.receipt.blanked ↔ args.redactInputs = true ∨
        policy.toolCallControl = none ∨ tool.parameters = parameters')) ∧
    ∀ {Ω : Type} (rt : Runtime Ω) (ev : NativeYaml),
      (NativeYamlToolCallEvaluator.asToolCallPolicyEvaluator rt ev).RecordsInputs := by
  obtain ⟨d, caller, hd, hcaller, hdec, hfired, hblank⟩ := admissionCheck_blanked hpolicy hredact ha
  obtain ⟨d', caller', hd', hcaller', hdec', hfired', hblank'⟩ :=
    admissionCheck_blanked hpolicy hredact hb
  obtain rfl := Except.ok.inj (hcaller.symm.trans hcaller')
  have hiff : a.receipt.blanked = b.receipt.blanked ↔ args.redactInputs = true ∨
      RecordedAlike policy request tool { tool with parameters := parameters' } := by
    rw [← decideToolCall_inputs hd hd', hblank, hblank', ← hdec, ← hfired, ← hdec', ← hfired',
      ← hdecision, ← hrules]
    exact blankCall_inj
  refine ⟨hiff, fun hrecords => ?_, fun rt ev => native_recordsInputs rt ev⟩
  rw [hiff, recordedAlike_iff hrecords hd hd']

end

namespace Sample

/-- A search, for this. -/
def search (query : String) : ToolCallContext :=
  ⟨.str "web_search", .str "query", [(.str "q", .str query)], .none, .none⟩

/-- A tool-call policy without rules. -/
def openBundle : PyVal :=
  .dict [(.str "version", .int 1), (.str "policy_id", .str "open"),
    (.str "tool_call_control", .dict [(.str "rules", .list [])])]

/-- The parameters are redacted, and with `redactInputs` the inputs too. -/
def redactedCall (p : Policy) (redactInputs : Bool) : AdmissionArgs :=
  ⟨.policy p, none, none, none, none, "", true, redactInputs, none⟩

end Sample

theorem redaction_hides_iff_sample :
    ∃ p a b, Policy.fromBundle Runtime.blank Sample.openBundle "policy.yaml" = .ok p ∧
      admissionCheck Stdlib.blank (Sample.search "a") Sample.request
        (Sample.redactedCall (p.asPolicy Runtime.blank) true) ⟨"r", "now"⟩ = .ok a ∧
      admissionCheck Stdlib.blank (Sample.search "b") Sample.request
        (Sample.redactedCall (p.asPolicy Runtime.blank) true) ⟨"s", "then"⟩ = .ok b ∧
      a.receipt.blanked = b.receipt.blanked := by
  obtain ⟨p, hp⟩ : ∃ p, Policy.fromBundle Runtime.blank Sample.openBundle "policy.yaml" = .ok p :=
    ⟨_, rfl⟩
  obtain ⟨a, ha⟩ : ∃ a, admissionCheck Stdlib.blank (Sample.search "a") Sample.request
      (Sample.redactedCall (p.asPolicy Runtime.blank) true) ⟨"r", "now"⟩ = .ok a := by
    obtain rfl := Except.ok.inj hp
    exact ⟨_, rfl⟩
  obtain ⟨b, hb⟩ : ∃ b, admissionCheck Stdlib.blank (Sample.search "b") Sample.request
      (Sample.redactedCall (p.asPolicy Runtime.blank) true) ⟨"s", "then"⟩ = .ok b := by
    obtain rfl := Except.ok.inj hp
    exact ⟨_, rfl⟩
  have hsame : a.decision = b.decision ∧ a.rulesFired = b.rulesFired := by
    obtain rfl := Except.ok.inj hp
    obtain rfl := Except.ok.inj ha
    obtain rfl := Except.ok.inj hb
    exact ⟨rfl, rfl⟩
  refine ⟨p, a, b, hp, ha, hb, ?_⟩
  exact (redaction_hides_iff Stdlib.blank (p.asPolicy Runtime.blank) (Sample.search "a")
    [(.str "q", .str "b")] Sample.request _ _ _ a b rfl rfl ha hb hsame.1 hsame.2).1.mpr (.inl rfl)

namespace Sample

/-- The query under the inputs of the first decision. -/
def shownQuery (r : ProvenanceReceipt) : Option PyVal := do
  let control ← r.toolCallControl
  let entry ← control.decisions.head?
  let .dict inputs ← getKey entry "inputs" | none
  let .dict call ← getKey inputs "tool_parameters" | none
  let .dict parameters ← getKey call "parameters" | none
  getKey parameters "q"

end Sample

/-- With the parameters redacted and the inputs not, the query stays on the receipt. -/
theorem redacted_parameters_shown :
    ∃ p a b, Policy.fromBundle Runtime.blank Sample.openBundle "policy.yaml" = .ok p ∧
      admissionCheck Stdlib.blank (Sample.search "a") Sample.request
        (Sample.redactedCall (p.asPolicy Runtime.blank) false) ⟨"r", "now"⟩ = .ok a ∧
      admissionCheck Stdlib.blank (Sample.search "b") Sample.request
        (Sample.redactedCall (p.asPolicy Runtime.blank) false) ⟨"s", "then"⟩ = .ok b ∧
      a.decision = b.decision ∧ a.rulesFired = b.rulesFired ∧
      a.receipt.blanked ≠ b.receipt.blanked := by
  refine ⟨_, _, _, rfl, rfl, rfl, rfl, rfl, fun h => ?_⟩
  have hshown : some (PyVal.str "a") = some (PyVal.str "b") := congrArg Sample.shownQuery h
  simp at hshown

end Provenex
