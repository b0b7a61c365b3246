import Provenex.Export.Ocsf
import Provenex.Proofs.Fields
import Provenex.Proofs.KeyOrder
import Provenex.ToolCall.Admission

/-! The exporter, event by event: what it builds of a receipt whose decisions are
records of the two gates. Sources and decisions are joined by a key, and of
several decisions on one key the last counts. -/

namespace Provenex

open Guard

/-! ## Labels -/

/-- The labels are a list, and these are among them. -/
def Labelled (xs : List String) (metadata : PyDict) : Prop :=
  ∃ labels, getKey metadata "labels" = some (.list labels) ∧ ∀ x ∈ xs, PyVal.str x ∈ labels

variable {xs : List String} {md : PyDict}

theorem appendLabel_ok (h : Labelled xs md) (label : String) :
    ∃ md', appendLabel md label = .ok md' ∧ Labelled (label :: xs) md' := by
  obtain ⟨labels, hlabels, hmem⟩ := h
  refine ⟨setItem md (.str "labels") (.list (labels ++ [.str label])), ?_, _, getKey_setItem_self, ?_⟩
  · rw [appendLabel, hlabels]
    rfl
  · rw [List.forall_mem_cons]
    exact ⟨by simp, fun x hx => List.mem_append_left _ (hmem x hx)⟩

theorem Labelled.tail {x : String} (h : Labelled (x :: xs) md) : Labelled xs md := by
  obtain ⟨labels, hlabels, hmem⟩ := h
  exact ⟨labels, hlabels, (List.forall_mem_cons.mp hmem).2⟩

theorem Labelled.setItem (h : Labelled xs md) {k : PyAtom} (hk : k ≠ .str "labels") (v : PyVal) :
    Labelled xs (setItem md k v) := by
  obtain ⟨labels, hlabels, hmem⟩ := h
  exact ⟨labels, (getKey_setItem_ne hk).trans hlabels, hmem⟩

/-- An event under construction, with these of its fields and labels written. -/
structure Event (fields : List (String × PyVal)) (xs : List String) (event : PyDict) : Prop where
  metadata : ∃ md, getKey event "metadata" = some (.dict md) ∧ Labelled xs md
  written : ∀ f ∈ fields, f.1 ≠ "metadata" ∧ getKey event f.1 = some f.2

variable {fields : List (String × PyVal)} {event : PyDict}

theorem Event.append (h : Event fields xs event) (more : PyDict) : Event fields xs (event ++ more) := by
  obtain ⟨md, hmd, hlabels⟩ := h.metadata
  refine ⟨⟨md, by rw [getKey_append, hmd, Option.some_or], hlabels⟩, fun f hf => ?_⟩
  obtain ⟨hne, hget⟩ := h.written f hf
  exact ⟨hne, by rw [getKey_append, hget, Option.some_or]⟩

theorem Event.write (h : Event fields xs event) {k : String} {v : PyVal} (hk : k ≠ "metadata")
    (hget : getKey event k = some v) : Event ((k, v) :: fields) xs event := by
  refine ⟨h.metadata, fun f hf => ?_⟩
  obtain rfl | hf := List.mem_cons.mp hf
  · exact ⟨hk, hget⟩
  · exact h.written f hf

theorem Event.get (h : Event fields xs event) {k : String} {v : PyVal} (hf : (k, v) ∈ fields) :
    getKey event k = some v :=
  (h.written _ hf).2

theorem onMetadata_ok {ys : List String} (h : Event fields xs event)
    {f : PyDict → Except PyErr PyDict}
    (hf : ∀ md, Labelled xs md → ∃ md', f md = .ok md' ∧ Labelled ys md') :
    ∃ event', onMetadata event f = .ok event' ∧ Event fields ys event' := by
  obtain ⟨md, hmd, hlabels⟩ := h.metadata
  obtain ⟨md', hmd', hlabels'⟩ := hf md hlabels
  refine ⟨setItem event (.str "metadata") (.dict md'), ?_, ⟨md', getKey_setItem_self, hlabels'⟩,
    fun g hg => ?_⟩
  · simp only [onMetadata, subscript, hmd, asMapping, bind, Except.bind, hmd']
  · obtain ⟨hne, hget⟩ := h.written g hg
    refine ⟨hne, (getKey_setItem_ne fun heq => hne ?_).trans hget⟩
    exact (PyAtom.str.inj heq).symm

theorem addLabelIf_ok (py : Stdlib) (h : Event fields xs event) (key : String) (value : PyVal) :
    ∃ event', addLabelIf py event key value = .ok event' ∧ Event fields xs event' := by
  unfold addLabelIf
  split_ifs
  · refine onMetadata_ok h fun md hmd => ?_
    obtain ⟨md', hmd', hlabels⟩ := appendLabel_ok hmd _
    exact ⟨md', hmd', hlabels.tail⟩
  · exact ⟨event, rfl, h⟩

/-! ## What a receipt has to be -/

/-- A receipt whose parts are what the exporter takes them for. -/
structure Exportable (receipt : PyDict) : Prop where
  issuer : ∃ s, getOrNone receipt "issuer" = .str s
  issuedAt : ∃ s, getOrNone receipt "issued_at" = .str s
  trajectory : ∃ o, getOrNone receipt "trajectory" = orNull PyVal.dict o
  policy : ∃ p, getOrNone receipt "policy" = .dict p ∧
    (∃ v, getOrNone p "verification" = .dict v) ∧
    ∀ k ∈ ["access_control", "tool_call_control"], ∃ o, getOrNone p k = orNull PyVal.dict o

/-- What is merged into the metadata leaves the labels alone. -/
def KeepsLabels (extra : Option PyDict) : Prop :=
  ∀ d, extra = some d → ∀ e ∈ d, e.1 ≠ .str "labels"

theorem exportable_toDict (r : ProvenanceReceipt) : Exportable r.toDict := by
  refine ⟨⟨_, r.get_issuer⟩, ⟨_, r.get_issuedAt⟩, ⟨_, r.get_trajectory⟩, _, r.get_policy,
    ⟨_, r.get_verification⟩, ?_⟩
  have hnull (o : Option ControlMetadata) : orNull (fun c => PyVal.dict c.toDict) o =
      orNull .dict (o.map (·.toDict)) := by cases o <;> rfl
  simp only [List.forall_mem_cons, List.not_mem_nil, false_imp_iff, implies_true, and_true]
  exact ⟨⟨_, r.get_accessControl.trans (hnull _)⟩, ⟨_, r.get_toolCallControl.trans (hnull _)⟩⟩

variable {receipt : PyDict}

theorem getFrom_optional (o : Option PyDict) (k : String) :
    ∃ v, getFrom ((orNull PyVal.dict o).orElse (.dict [])) k = .ok v := by
  cases o with
  | none => exact ⟨_, rfl⟩
  | some d =>
    unfold PyVal.orElse
    split_ifs <;> exact ⟨_, rfl⟩

theorem Exportable.trajectoryField (h : Exportable receipt) (k : String) :
    ∃ v, getFrom (trajectoryOf receipt) k = .ok v := by
  obtain ⟨o, ho⟩ := h.trajectory
  rw [trajectoryOf, ho]
  exact getFrom_optional o k

theorem orElse_dict {d : PyDict} : (PyVal.dict d).orElse (.dict []) = .dict d := by
  cases d <;> rfl

theorem orElse_list {vs : List PyVal} : (PyVal.list vs).orElse (.list []) = .list vs := by
  cases vs <;> rfl

theorem Exportable.control (h : Exportable receipt) {k : String}
    (hk : k ∈ ["access_control", "tool_call_control"]) :
    ∃ o, policyPart receipt k = .ok (orNull PyVal.dict o) := by
  obtain ⟨p, hp, -, hcontrol⟩ := h.policy
  obtain ⟨o, ho⟩ := hcontrol k hk
  refine ⟨o, ?_⟩
  rw [policyPart, hp, orElse_dict, ← ho]
  rfl

/-! ## Building one event -/

theorem labels_kept {extra : Option PyDict} (h : KeepsLabels extra) (hmd : Labelled xs md) :
    Labelled xs ((extra.getD []).foldl (fun md e => setItem md e.1 e.2) md) := by
  cases extra with
  | none => exact hmd
  | some d =>
    have hkeys := h d rfl
    clear h
    simp only [Option.getD_some]
    induction d generalizing md with
    | nil => exact hmd
    | cons e d ih =>
      obtain ⟨he, hrest⟩ := List.forall_mem_cons.mp hkeys
      exact ih (hmd.setItem he e.2) hrest

theorem buildMetadata_ok (h : Exportable receipt) {extra : Option PyDict} (hextra : KeepsLabels extra)
    (includeTrajectoryCorrelator : Bool) (eventCode : String) :
    ∃ md, buildMetadata receipt includeTrajectoryCorrelator extra eventCode = .ok md ∧
      Labelled [] md := by
  obtain ⟨s, hs⟩ := h.issuer
  obtain ⟨t, ht⟩ := h.trajectoryField "trajectory_id"
  obtain ⟨u, hu⟩ := h.trajectoryField "session_id"
  have hissuer : (PyVal.str s).orElse (.str "") = .str s := by
    unfold PyVal.orElse
    split_ifs with hempty
    · rfl
    · simp only [PyVal.truthy, bne_iff_ne, ne_eq, not_not] at hempty
      rw [hempty]
  simp only [buildMetadata, hs, hissuer, ht, hu, bind, Except.bind]
  refine ⟨_, rfl, labels_kept hextra ⟨[], ?_, by simp⟩⟩
  simp [getKey_cons]

/-- What the constants of a kind leave on an event of it. -/
def EventKind.written (kind : EventKind) : List (String × PyVal) :=
  [("class_uid", .int kind.classUid), ("severity_id", .int kind.severityId),
    ("severity", .str kind.severity)]

theorem baseEvent_ok (epochMs : String → ℤ) (h : Exportable receipt) {extra : Option PyDict}
    (hextra : KeepsLabels extra) (kind : EventKind) (includeTrajectoryCorrelator : Bool) :
    ∃ event, baseEvent epochMs receipt kind includeTrajectoryCorrelator extra = .ok event ∧
      Event kind.written [] event ∧
      ∀ k ∈ ["resources", "api", "finding_info"], getKey event k = none := by
  obtain ⟨md, hmd, hlabels⟩ :=
    buildMetadata_ok h hextra includeTrajectoryCorrelator kind.eventCode
  obtain ⟨agentId, hagent⟩ := h.trajectoryField "agent_id"
  obtain ⟨s, hs⟩ := h.issuedAt
  have hactor : ∃ actor, actorFromReceipt receipt = .ok actor := by
    rw [actorFromReceipt, hagent]
    exact ⟨_, rfl⟩
  obtain ⟨actor, hactor⟩ := hactor
  simp only [baseEvent, hmd, hactor, hs, bind, Except.bind]
  by_cases htime : (PyVal.str s).truthy = true
  · rw [if_pos htime]
    refine ⟨_, rfl, ⟨⟨md, ?_, hlabels⟩, ?_⟩, ?_⟩ <;>
      simp [EventKind.written, getKey_cons, getKey_nil]
  · rw [if_neg htime]
    refine ⟨_, rfl, ⟨⟨md, ?_, hlabels⟩, ?_⟩, ?_⟩ <;>
      simp [EventKind.written, getKey_cons, getKey_nil]

theorem joinStrings_names (sep : String) (names : List String) :
    joinStrings sep (strList names) = .ok (joinWith sep names) := by
  have hwords : buildAll (names.map PyVal.str) asText = .ok names := by
    rw [buildAll_ok, List.forall₂_map_left_iff]
    exact List.forall₂_same.mpr fun _ _ => rfl
  change (buildAll (names.map PyVal.str) asText >>= _) = _
  rw [hwords]
  rfl

/-- The rules that fired, as the entry of a decision has them. -/
def NamesRules (decision : PyDict) (names : List String) : Prop :=
  getOrNone decision "rules_fired" = strList names

theorem rules_orElse (names : List String) : (strList names).orElse (.list []) = strList names := by
  cases names <;> rfl

theorem rules_truthy (names : List String) : (strList names).truthy = !names.isEmpty := by
  cases names <;> rfl

theorem ruleNames_ok {decision : PyDict} {names : List String} (h : NamesRules decision names) :
    ruleNames decision = .ok (names.map .str) := by
  rw [ruleNames, h, rules_orElse]
  rfl

theorem titleWithRules_ok (title : String) (names : List String) :
    ∃ t, titleWithRules title (names.map .str) = .ok t := by
  unfold titleWithRules
  split_ifs
  · exact ⟨_, rfl⟩
  · exact ⟨_, map_ok.mpr ⟨_, joinStrings_names ", " names, rfl⟩⟩

/-- The label with the rules that fired, where any did. -/
def rulesLabel (names : List String) : List String :=
  if names.isEmpty then [] else ["rules_fired:" ++ joinWith "," names]

theorem addRules_ok (py : Stdlib) (h : Event fields xs event) {names : List String}
    (hnames : names.isEmpty = false) :
    ∃ event', (do
        let words ← joinStrings "," (strList names)
        addLabel py event "rules_fired" (.str words)) = .ok event' ∧
      Event fields (rulesLabel names ++ xs) event' := by
  obtain ⟨event', hevent', h'⟩ := onMetadata_ok h fun md hmd =>
    appendLabel_ok hmd ("rules_fired:" ++ joinWith "," names)
  rw [joinStrings_names, rulesLabel, hnames]
  exact ⟨event', hevent', h'⟩

theorem addRulesLabel_ok (py : Stdlib) (h : Event fields xs event) (names : List String) :
    ∃ event', addRulesLabel py event (names.map .str) = .ok event' ∧
      Event fields (rulesLabel names ++ xs) event' := by
  unfold addRulesLabel
  cases hnames : names.isEmpty with
  | true =>
    rw [List.isEmpty_iff] at hnames
    subst hnames
    exact ⟨event, rfl, h⟩
  | false =>
    rw [List.isEmpty_map, hnames]
    exact addRules_ok py h hnames

theorem Event.forget {ys : List String} (h : Event fields (ys ++ xs) event) : Event fields xs event := by
  obtain ⟨md, hmd, labels, hlabels, hmem⟩ := h.metadata
  exact ⟨⟨md, hmd, labels, hlabels, fun x hx => hmem x (List.mem_append_right _ hx)⟩, h.written⟩

/-- A decision, where there is one, has the names of its rules. -/
def RulesNamed (decision : Option PyDict) : Prop := ∀ d, decision = some d → ∃ names, NamesRules d names

theorem addFiredLabel_ok (py : Stdlib) {decision : Option PyDict} (hd : RulesNamed decision)
    (h : Event fields xs event) :
    ∃ event', addFiredLabel py event decision = .ok event' ∧ Event fields xs event' := by
  cases decision with
  | none => exact ⟨event, rfl, h⟩
  | some d =>
    obtain ⟨names, hnames⟩ := hd d rfl
    rw [addFiredLabel, hnames, rules_orElse, rules_truthy]
    cases hempty : names.isEmpty with
    | true => exact ⟨event, rfl, h⟩
    | false =>
      obtain ⟨event', hevent', h'⟩ := addRules_ok py h hempty
      exact ⟨event', hevent', h'.forget⟩

theorem attachDecision_ok (py : Stdlib) {decision : Option PyDict} (hd : RulesNamed decision)
    (h : Event fields xs event) :
    ∃ event', attachDecision py event decision = .ok event' ∧ Event fields xs event' := by
  cases decision with
  | none => exact ⟨event, rfl, h⟩
  | some d =>
    obtain ⟨names, hnames⟩ := hd d rfl
    refine onMetadata_ok h fun md hmd => ?_
    obtain ⟨md₁, hmd₁, hlabels₁⟩ : ∃ md₁, appendLabelIf md (getOrNone d "inputs_hash").truthy
        ("inputs_hash:" ++ py.format (getOrNone d "inputs_hash")) = .ok md₁ ∧ Labelled xs md₁ := by
      unfold appendLabelIf
      split_ifs
      · obtain ⟨md₁, hmd₁, hlabels⟩ := appendLabel_ok hmd _
        exact ⟨md₁, hmd₁, hlabels.tail⟩
      · exact ⟨md, rfl, hmd⟩
    rw [NamesRules] at hnames
    simp only [attachDecisionToMetadata, hnames, rules_orElse, hmd₁, joinStrings_names, bind,
      Except.bind]
    split_ifs
    · obtain ⟨md₂, hmd₂, hlabels₂⟩ := appendLabel_ok hlabels₁ _
      exact ⟨md₂, hmd₂, hlabels₂.tail⟩
    · exact ⟨md₁, rfl, hlabels₁⟩

theorem attachPolicy_ok (o : Option PyDict) (h : Event fields xs event) :
    ∃ event', onMetadata event (fun md => attachPolicyToMetadata md (orNull .dict o)) = .ok event' ∧
      Event fields xs event' := by
  have hset (md : PyDict) (h : Labelled xs md) (k : String) (hk : k ≠ "labels") (v : PyVal) :
      Labelled xs (if v.truthy = true then setItem md (.str k) v else md) := by
    split_ifs
    · exact h.setItem (fun heq => hk (PyAtom.str.inj heq)) v
    · exact h
  refine onMetadata_ok h fun md hmd => ?_
  unfold attachPolicyToMetadata
  split_ifs with ho
  · cases o with
    | none => cases ho
    | some d => exact ⟨_, rfl, hset _ (hset md hmd "policy_uid" (by decide) _) "policy_uid_alt"
        (by decide) _⟩
  · exact ⟨md, rfl, hmd⟩

/-- What an event says of the source it is about. -/
def resourcesOf (source : PyDict) : PyVal := .list [.dict (resourceFromSource source)]

/-- The fields and labels of an event, once it is built. -/
structure Built (fields : List (String × PyVal)) (xs : List String) (event : PyDict) : Prop where
  fields : ∀ f ∈ fields, getKey event f.1 = some f.2
  labels : ∃ md labels, getKey event "metadata" = some (.dict md) ∧
    getKey md "labels" = some (.list labels) ∧ ∀ x ∈ xs, PyVal.str x ∈ labels

theorem Event.built (h : Event fields xs event) : Built fields xs event := by
  obtain ⟨md, hmd, labels, hlabels, hmem⟩ := h.metadata
  exact ⟨fun f hf => (h.written f hf).2, md, labels, hmd, hlabels, hmem⟩

section

variable (py : Stdlib) (epochMs : String → ℤ) (includeTrajectoryCorrelator : Bool)
  {extra : Option PyDict}

theorem applicationActivity_ok (h : Exportable receipt) (hextra : KeepsLabels extra)
    (source : PyDict) {decision : Option PyDict} (hd : RulesNamed decision) :
    ∃ event, receiptToApplicationActivity py epochMs receipt includeTrajectoryCorrelator extra source
        decision = .ok event ∧
      Built (("resources", resourcesOf source) :: applicationActivity.written) [] event := by
  obtain ⟨base, hbase, hevent, hnone⟩ :=
    baseEvent_ok epochMs h hextra applicationActivity includeTrajectoryCorrelator
  have hevent := (hevent.append [(.str "resources", resourcesOf source)]).write
    (k := "resources") (v := resourcesOf source) (by decide)
    (by rw [getKey_append, hnone _ (by simp), Option.none_or, getKey_cons, if_pos rfl])
  obtain ⟨stepKind, hstep⟩ := h.trajectoryField "step_kind"
  obtain ⟨e₁, he₁, hevent⟩ := addLabelIf_ok py hevent "step_kind" stepKind
  obtain ⟨e₂, he₂, hevent⟩ := addLabelIf_ok py hevent "verification_outcome"
    (getOrNone source "verification_outcome")
  obtain ⟨e₃, he₃, hevent⟩ := attachDecision_ok py hd hevent
  obtain ⟨o, ho⟩ := h.control (k := "access_control") (by decide)
  obtain ⟨e₄, he₄, hevent⟩ := attachPolicy_ok o hevent
  refine ⟨e₄, bind_ok.mpr ⟨base, hbase, ?_⟩, hevent.built⟩
  refine bind_ok.mpr ⟨e₁, bind_ok.mpr ⟨stepKind, hstep, he₁⟩, ?_⟩
  exact bind_ok.mpr ⟨e₂, he₂, bind_ok.mpr ⟨e₃, he₃, bind_ok.mpr ⟨_, ho, he₄⟩⟩⟩

theorem apiActivity_ok (h : Exportable receipt) (hextra : KeepsLabels extra) (action : PyDict)
    {decision : Option PyDict} (hd : RulesNamed decision) :
    ∃ event, receiptToApiActivity py epochMs receipt includeTrajectoryCorrelator extra action
        decision = .ok event ∧
      Built (("api", .dict (apiBlock py action)) :: apiActivity.written) [] event := by
  obtain ⟨base, hbase, hevent, hnone⟩ :=
    baseEvent_ok epochMs h hextra apiActivity includeTrajectoryCorrelator
  have hevent := (hevent.append [(.str "api", .dict (apiBlock py action))]).write
    (k := "api") (v := .dict (apiBlock py action)) (by decide)
    (by rw [getKey_append, hnone _ (by simp), Option.none_or, getKey_cons, if_pos rfl])
  obtain ⟨stepKind, hstep⟩ := h.trajectoryField "step_kind"
  obtain ⟨e₁, he₁, hevent⟩ := addLabelIf_ok py hevent "step_kind" stepKind
  obtain ⟨e₂, he₂, hevent⟩ := addFiredLabel_ok py hd hevent
  obtain ⟨e₃, he₃, hevent⟩ := attachDecision_ok py hd hevent
  obtain ⟨o, ho⟩ := h.control (k := "tool_call_control") (by decide)
  obtain ⟨e₄, he₄, hevent⟩ := attachPolicy_ok o hevent
  refine ⟨e₄, bind_ok.mpr ⟨base, hbase, ?_⟩, hevent.built⟩
  refine bind_ok.mpr ⟨e₁, bind_ok.mpr ⟨stepKind, hstep, he₁⟩, ?_⟩
  exact bind_ok.mpr ⟨e₂, he₂, bind_ok.mpr ⟨e₃, he₃, bind_ok.mpr ⟨_, ho, he₄⟩⟩⟩

/-- What a finding says: its severity, its types, and the rules that fired. -/
structure Grounds where
  severityId : ℤ
  severity : String
  types : List PyVal
  rules : List String

/-- A finding on these grounds. -/
structure IsFinding (g : Grounds) (event : PyDict) : Prop where
  cls : getKey event "class_uid" = some (.int detectionFindingClass)
  severityId : getKey event "severity_id" = some (.int g.severityId)
  severity : getKey event "severity" = some (.str g.severity)
  types : ∃ info, getKey event "finding_info" = some (.dict info) ∧
    getKey info "types" = some (.list g.types)
  rules : ∃ md labels, getKey event "metadata" = some (.dict md) ∧
    getKey md "labels" = some (.list labels) ∧ ∀ x ∈ rulesLabel g.rules, PyVal.str x ∈ labels

theorem findingInfo_types (receipt : PyDict) (title : String) (types related : List PyVal) :
    getKey (findingInfo receipt title types related) "types" = some (.list types) := by
  simp [findingInfo, getKey_cons]

theorem Built.isFinding {g : Grounds} {eventCode title : String} {related : List PyVal}
    {subject : String × PyVal}
    (h : Built (subject :: ("finding_info", .dict (findingInfo receipt title g.types related)) ::
      (detectionFinding g.severityId g.severity eventCode).written) (rulesLabel g.rules) event) :
    IsFinding g event where
  cls := h.fields ("class_uid", .int detectionFindingClass)
    (by simp [EventKind.written, detectionFinding])
  severityId := h.fields ("severity_id", .int g.severityId)
    (by simp [EventKind.written, detectionFinding])
  severity := h.fields ("severity", .str g.severity) (by simp [EventKind.written, detectionFinding])
  types := ⟨_, h.fields ("finding_info", .dict (findingInfo receipt title g.types related)) (by simp),
    findingInfo_types _ _ _ _⟩
  rules := h.labels

/-- How the exporter grounds a finding: any outcome but `VERIFIED` counts as a block. -/
def groundsOf (outcome : VerificationOutcome) (rules : List String) : Grounds :=
  if outcome = .verified then ⟨4, "High", [.str "ACCESS_CONTROL_DENY"], rules⟩
  else ⟨5, "Critical", [.str outcome.value], []⟩

theorem blockedSourceFinding_ok (outcome : VerificationOutcome)
    {decision : Option PyDict} {names : List String}
    (hd : outcome = .verified → ∃ d, decision = some d ∧ ReceiptBuilder.isDenied d = true ∧
      NamesRules d names) :
    ∃ title, blockedSourceFinding py (.str outcome.value) decision =
      .ok ((groundsOf outcome names).severityId, (groundsOf outcome names).severity, title,
        (groundsOf outcome names).types, (groundsOf outcome names).rules.map .str) := by
  by_cases ho : outcome = .verified
  · obtain ⟨d, rfl, hdenied, hnames⟩ := hd ho
    obtain ⟨title, htitle⟩ := titleWithRules_ok "Access control denied chunk" names
    rw [groundsOf, if_pos ho, ho]
    refine ⟨title, ?_⟩
    have hout : inList (.str VerificationOutcome.verified.value)
        (["TAMPERED", "UNAUTHORIZED", "UNVERIFIED", "STALE"].map .str) = false := by decide
    refine bind_ok.mpr ⟨false, congrArg Except.ok hout, ?_⟩
    dsimp only
    rw [if_neg Bool.false_ne_true, Option.filter_some, if_pos hdenied]
    exact bind_ok.mpr ⟨_, ruleNames_ok hnames, bind_ok.mpr ⟨title, htitle, rfl⟩⟩
  · have hin : inList (.str outcome.value)
        (["TAMPERED", "UNAUTHORIZED", "UNVERIFIED", "STALE"].map .str) = true := by
      revert ho
      cases outcome <;> decide
    rw [groundsOf, if_neg ho]
    exact ⟨_, bind_ok.mpr ⟨true, congrArg Except.ok hin, if_pos rfl⟩⟩

theorem blockedSource_ok (h : Exportable receipt) (hextra : KeepsLabels extra) {source : PyDict}
    {outcome : VerificationOutcome}
    (hsource : getOrNone source "verification_outcome" = .str outcome.value)
    {decision : Option PyDict} {names : List String}
    (hd : outcome = .verified → ∃ d, decision = some d ∧ ReceiptBuilder.isDenied d = true ∧
      NamesRules d names) :
    ∃ event, receiptToDetectionFindingForBlockedSource py epochMs receipt includeTrajectoryCorrelator
        extra source decision = .ok event ∧
      getKey event "resources" = some (resourcesOf source) ∧
      IsFinding (groundsOf outcome names) event := by
  obtain ⟨title, hfinding⟩ := blockedSourceFinding_ok py outcome hd
  set grounds := groundsOf outcome names
  obtain ⟨base, hbase, hevent, hnone⟩ := baseEvent_ok epochMs h hextra
    (detectionFinding grounds.severityId grounds.severity "provenex.verification.block")
    includeTrajectoryCorrelator
  let info := findingInfo receipt title grounds.types ((decision.map fun d =>
    relatedEvent (getOrNone d "inputs_hash") "policy_inputs_hash").getD [])
  have hevent := hevent.append [(.str "finding_info", .dict info),
    (.str "resources", resourcesOf source)]
  have hevent := hevent.write (k := "finding_info") (v := .dict info) (by decide)
    (by simp [getKey_append, getKey_cons, hnone])
  have hevent := hevent.write (k := "resources") (v := resourcesOf source) (by decide)
    (by simp [getKey_append, getKey_cons, hnone])
  obtain ⟨stepKind, hstep⟩ := h.trajectoryField "step_kind"
  obtain ⟨e₁, he₁, hevent⟩ := addLabelIf_ok py hevent "step_kind" stepKind
  obtain ⟨e₂, he₂, hevent⟩ := addLabelIf_ok py hevent "verification_outcome"
    (getOrNone source "verification_outcome")
  obtain ⟨e₃, he₃, hevent⟩ := addRulesLabel_ok py hevent grounds.rules
  obtain ⟨o, ho⟩ := h.control (k := "access_control") (by decide)
  obtain ⟨e₄, he₄, hevent⟩ := attachPolicy_ok o hevent
  rw [List.append_nil] at hevent
  refine ⟨e₄, ?_, hevent.get (by simp), hevent.built.isFinding⟩
  unfold receiptToDetectionFindingForBlockedSource
  rw [hsource, hfinding]
  refine bind_ok.mpr ⟨_, rfl, bind_ok.mpr ⟨base, hbase, ?_⟩⟩
  refine bind_ok.mpr ⟨e₁, bind_ok.mpr ⟨stepKind, hstep, he₁⟩, ?_⟩
  exact bind_ok.mpr ⟨e₂, he₂, bind_ok.mpr ⟨e₃, he₃, bind_ok.mpr ⟨_, ho, he₄⟩⟩⟩

/-- The grounds of a finding on a denied action. -/
def admissionGrounds (rules : List String) : Grounds := ⟨4, "High", [.str "ADMISSION_DENY"], rules⟩

theorem deniedAction_ok (h : Exportable receipt) (hextra : KeepsLabels extra) (action : PyDict)
    {decision : PyDict} {names : List String} (hd : NamesRules decision names) :
    ∃ event, receiptToDetectionFindingForDeniedAction py epochMs receipt includeTrajectoryCorrelator
        extra action decision = .ok event ∧
      getKey event "api" = some (.dict (apiBlock py action)) ∧
      IsFinding (admissionGrounds names) event := by
  obtain ⟨title, htitle⟩ := titleWithRules_ok "Tool-call admission denied" names
  obtain ⟨base, hbase, hevent, hnone⟩ := baseEvent_ok epochMs h hextra
    (detectionFinding 4 "High" "provenex.admission.deny") includeTrajectoryCorrelator
  let info := findingInfo receipt title [.str "ADMISSION_DENY"]
    (relatedEvent (getOrNone decision "inputs_hash") "policy_inputs_hash" ++
      relatedEvent (getOrNone action "parameters_hash") "action_parameters_hash")
  have hevent := hevent.append [(.str "finding_info", .dict info),
    (.str "api", .dict (apiBlock py action))]
  have hevent := hevent.write (k := "finding_info") (v := .dict info) (by decide)
    (by simp [getKey_append, getKey_cons, hnone])
  have hevent := hevent.write (k := "api") (v := .dict (apiBlock py action)) (by decide)
    (by simp [getKey_append, getKey_cons, hnone])
  obtain ⟨stepKind, hstep⟩ := h.trajectoryField "step_kind"
  obtain ⟨e₁, he₁, hevent⟩ := addLabelIf_ok py hevent "step_kind" stepKind
  obtain ⟨e₂, he₂, hevent⟩ := addRulesLabel_ok py hevent names
  obtain ⟨o, ho⟩ := h.control (k := "tool_call_control") (by decide)
  obtain ⟨e₃, he₃, hevent⟩ := attachPolicy_ok o hevent
  rw [List.append_nil] at hevent
  refine ⟨e₃, ?_, hevent.get (by simp), hevent.built.isFinding (g := admissionGrounds names)⟩
  refine bind_ok.mpr ⟨_, ruleNames_ok hd, bind_ok.mpr ⟨title, htitle, bind_ok.mpr ⟨base, hbase, ?_⟩⟩⟩
  refine bind_ok.mpr ⟨e₁, bind_ok.mpr ⟨stepKind, hstep, he₁⟩, ?_⟩
  exact bind_ok.mpr ⟨e₂, he₂, bind_ok.mpr ⟨_, ho, he₃⟩⟩

end

/-! ## Which sources are blocked -/

theorem SourceRecord.get_fingerprint (s : SourceRecord) :
    getOrNone s.toDict "fingerprint" = .str s.fingerprint := by
  simp [getOrNone, SourceRecord.toDict, getKey_cons]

theorem SourceRecord.get_outcome (s : SourceRecord) :
    getOrNone s.toDict "verification_outcome" = .str s.verificationOutcome.value := by
  simp [getOrNone, SourceRecord.toDict, getKey_cons]

theorem ActionRecord.get_actionIndex (a : ActionRecord) :
    getOrNone a.toDict "action_index" = .int a.actionIndex := by
  simp [getOrNone, ActionRecord.toDict, getKey_cons]

theorem policyPart_toDict (r : ProvenanceReceipt) (k : String) :
    policyPart r.toDict k = .ok (getOrNone r.policyBlock k) := by
  rw [policyPart, r.get_policy, orElse_dict]
  rfl

theorem block_flag (p : VerificationPolicy) {o : VerificationOutcome} (ho : o ≠ .verified) :
    getOrNone p.toDict ("block_" ++ lower o.value) = .bool (p.shouldBlock o) := by
  cases o with
  | verified => exact absurd rfl ho
  | stale => rfl
  | unauthorized => rfl
  | unverified => rfl
  | tampered => rfl

/-- The flag of the outcome is that of the policy. -/
theorem isSourceBlocked_ok (r : ProvenanceReceipt) (s : SourceRecord) (decision : Option PyDict) :
    isSourceBlocked r.toDict s.toDict decision =
      .ok (r.policy.shouldBlock s.verificationOutcome || decision.any ReceiptBuilder.isDenied) := by
  unfold isSourceBlocked
  rw [s.get_outcome]
  by_cases ho : s.verificationOutcome = .verified
  · rw [ho]
    rfl
  · have hne : (PyVal.str s.verificationOutcome.value).eq (.str "VERIFIED") = false := by
      revert ho
      cases s.verificationOutcome <;> decide
    have htruthy : (PyVal.str s.verificationOutcome.value).truthy = true := by
      cases s.verificationOutcome <;> rfl
    simp only [hne, htruthy, policyPart_toDict, r.get_verification, bind, Except.bind, if_true,
      Bool.false_eq_true, if_false]
    rw [orElse_dict]
    simp only [getFrom, asMapping, bind, Except.bind, block_flag _ ho]
    rfl

/-! ## The join -/

/-- A policy decides, and not to allow. -/
def denies (o : Option PolicyDecision) : Bool := o.any fun d => d.decision ≠ .allow

theorem denies_iff {o : Option PolicyDecision} :
    denies o = true ↔ ∃ d, o = some d ∧ d.decision ≠ .allow := by
  cases o <;> simp [denies]

theorem PolicyDecision.isDenied (d : PolicyDecision) (fp : String) :
    ReceiptBuilder.isDenied (d.toDict fp) = decide (d.decision ≠ .allow) := by
  obtain ⟨decision, rulesFired, inputsHash, inputs, binding⟩ := d
  cases decision <;> rfl

theorem admissionEntry_isDenied (i : ℕ) (d : PolicyDecision) :
    ReceiptBuilder.isDenied (admissionEntry i d) = decide (d.decision ≠ .allow) := by
  obtain ⟨decision, rulesFired, inputsHash, inputs, binding⟩ := d
  cases decision <;> rfl

/-- What is joined with a key: of several decisions on it, the last. -/
def decisionOn {κ : Type} [DecidableEq κ] (ds : List (κ × PolicyDecision)) (k : κ) :
    Option PolicyDecision := ds.reverse.lookup k

theorem find?_byField {κ : Type} [DecidableEq κ] {atom : κ → PyAtom}
    (hatom : ∀ k k', (atom k).key = (atom k').key ↔ k = k') (entry : κ → PolicyDecision → PyDict)
    (ds : List (κ × PolicyDecision)) (k : κ) :
    (byField (ds.map fun p => (atom p.1, entry p.1 p.2))).find? (fun e => e.1.key = (atom k).key) =
      (decisionOn ds k).map fun d => (atom k, entry k d) := by
  unfold byField decisionOn
  induction ds using List.reverseRecOn with
  | nil => rfl
  | append_singleton ds p ih =>
    rw [List.map_append, List.foldl_append, List.reverse_append, List.reverse_singleton,
      List.singleton_append, Rows.lookup_cons_if, List.map_singleton, List.foldl_cons, List.foldl_nil,
      Rows.find?_put, ih]
    simp only [hatom]
    by_cases hp : p.1 = k
    · rw [if_pos hp, if_pos hp.symm, ← hp]
      rfl
    · rw [if_neg hp, if_neg (Ne.symm hp)]

theorem decisionsByFingerprint_ok {ds : List (String × PolicyDecision)} (hfp : ∀ p ∈ ds, p.1 ≠ "") :
    decisionsByFingerprint (ds.map fun p => .dict (p.2.toDict p.1)) =
      .ok (byField (ds.map fun p => (.str p.1, p.2.toDict p.1))) := by
  have hkeyed : buildAll (ds.map fun p => PyVal.dict (p.2.toDict p.1)) (fun d => do
      let d ← asMapping d .attributeError
      let fp := getOrNone d "chunk_fingerprint"
      if fp.truthy then (hashable fp).map fun k => [(k, d)] else .ok []) =
        .ok (ds.map fun p => [(.str p.1, p.2.toDict p.1)]) := by
    rw [buildAll_map, buildAll_ok, List.forall₂_map_right_iff, List.forall₂_same]
    intro p hp
    have htruthy : (PyVal.str p.1).truthy = true := by simpa [PyVal.truthy] using hfp p hp
    have hget : getOrNone (p.2.toDict p.1) "chunk_fingerprint" = .str p.1 := rfl
    simp only [asMapping, bind, Except.bind, hget, htruthy, if_true]
    rfl
  refine bind_ok.mpr ⟨_, hkeyed, ?_⟩
  rw [← List.flatMap_def, ← List.map_eq_flatMap]

theorem decisionsByActionIndex_ok (ads : List (ℕ × PolicyDecision)) :
    decisionsByActionIndex (ads.map fun p => .dict (admissionEntry p.1 p.2)) =
      .ok (byField (ads.map fun p => (.int p.1, admissionEntry p.1 p.2))) := by
  have hkeyed : buildAll (ads.map fun p => PyVal.dict (admissionEntry p.1 p.2)) (fun d => do
      if ← contains d "action_index" then
        let d ← asMapping d .attributeError
        (hashable (getOrNone d "action_index")).map fun k => [(k, d)]
      else .ok []) = .ok (ads.map fun p => [(.int p.1, admissionEntry p.1 p.2)]) := by
    rw [buildAll_map, buildAll_ok, List.forall₂_map_right_iff, List.forall₂_same]
    exact fun p _ => rfl
  refine bind_ok.mpr ⟨_, hkeyed, ?_⟩
  rw [← List.flatMap_def, ← List.map_eq_flatMap]

theorem lookup_fingerprint (ds : List (String × PolicyDecision)) (fp : String) :
    lookupField (byField (ds.map fun p => (.str p.1, p.2.toDict p.1))) (.str fp) =
      .ok ((decisionOn ds fp).map fun d => d.toDict fp) := by
  have hatom (a b : String) : (PyAtom.str a).key = (PyAtom.str b).key ↔ a = b :=
    ⟨fun h => PyAtom.str.inj h, fun h => by rw [h]⟩
  simp only [lookupField, hashable, bind, Except.bind,
    find?_byField hatom fun fp d => d.toDict fp, Option.map_map]
  rfl

theorem lookup_actionIndex (ads : List (ℕ × PolicyDecision)) (i : ℕ) :
    lookupField (byField (ads.map fun p => (.int p.1, admissionEntry p.1 p.2))) (.int i) =
      .ok ((decisionOn ads i).map (admissionEntry i)) := by
  have hatom (a b : ℕ) : (PyAtom.int a).key = (PyAtom.int b).key ↔ a = b :=
    ⟨fun h => Int.ofNat.inj (PyAtom.int.inj h), fun h => by rw [h]⟩
  have hfind := find?_byField hatom admissionEntry ads i
  simp only [lookupField, hashable, bind, Except.bind, hfind, Option.map_map]
  rfl

/-! ## The export of a receipt -/

/-- The decisions of a receipt are records of the two gates, on chunks and on actions. -/
structure Records (r : ProvenanceReceipt) (ds : List (String × PolicyDecision))
    (ads : List (ℕ × PolicyDecision)) : Prop where
  chunks : (r.accessControl.map (·.decisions)).getD [] = ds.map fun p => p.2.toDict p.1
  fingerprints : ∀ p ∈ ds, p.1 ≠ ""
  actions : (r.toolCallControl.map (·.decisions)).getD [] = ads.map fun p => admissionEntry p.1 p.2

theorem control_decisions (o : Option ControlMetadata) :
    ∃ v, getFrom ((orNull (fun c => PyVal.dict c.toDict) o).orElse (.dict [])) "decisions" = .ok v ∧
      iterate (v.orElse (.list [])) = .ok (((o.map (·.decisions)).getD []).map .dict) := by
  cases o with
  | none => exact ⟨.none, rfl, rfl⟩
  | some c =>
    refine ⟨.list (c.decisions.map .dict), rfl, ?_⟩
    rw [orElse_list]
    rfl

/-- The class of an event about a source. -/
def classOf (blocked : Bool) : ℤ := if blocked then detectionFindingClass else applicationActivityClass

theorem classOf_inj {a b : Bool} : classOf a = classOf b ↔ a = b := by
  cases a <;> cases b <;> decide

/-- One of the two gates blocks the source. -/
def sourceBlocked (policy : VerificationPolicy) (s : SourceRecord) (o : Option PolicyDecision) : Bool :=
  policy.shouldBlock s.verificationOutcome || denies o

/-- The rules that a decision names, where there is one. -/
def firedRules (o : Option PolicyDecision) : List String := (o.map (·.rulesFired)).getD []

/-- The event about a source that was decided so. -/
structure SourceEvent (policy : VerificationPolicy) (s : SourceRecord) (o : Option PolicyDecision)
    (event : PyDict) : Prop where
  resources : getKey event "resources" = some (resourcesOf s.toDict)
  cls : getKey event "class_uid" = some (.int (classOf (sourceBlocked policy s o)))
  finding : sourceBlocked policy s o = true →
    IsFinding (groundsOf s.verificationOutcome (firedRules o)) event

/-- The event about an action that was decided so. -/
structure ActionEvent (py : Stdlib) (a : ActionRecord) (o : Option PolicyDecision)
    (event : PyDict) : Prop where
  api : getKey event "api" = some (.dict (apiBlock py a.toDict))
  cls : getKey event "class_uid" =
    some (.int (if denies o then detectionFindingClass else apiActivityClass))
  finding : denies o = true → IsFinding (admissionGrounds (firedRules o)) event

theorem PolicyDecision.namesRules (d : PolicyDecision) (fp : String) :
    NamesRules (d.toDict fp) d.rulesFired := rfl

section

variable (py : Stdlib) (epochMs : String → ℤ) (includeTrajectoryCorrelator : Bool)
  {extra : Option PyDict}

theorem sourceEvent_ok (hextra : KeepsLabels extra) (r : ProvenanceReceipt)
    (ds : List (String × PolicyDecision)) (s : SourceRecord) :
    ∃ event, sourceEvent py epochMs r.toDict includeTrajectoryCorrelator extra
        (byField (ds.map fun p => (.str p.1, p.2.toDict p.1))) (.dict s.toDict) = .ok event ∧
      SourceEvent r.policy s (decisionOn ds s.fingerprint) event := by
  set o := decisionOn ds s.fingerprint
  have hblocked : isSourceBlocked r.toDict s.toDict (o.map fun d => d.toDict s.fingerprint) =
      .ok (sourceBlocked r.policy s o) := by
    rw [isSourceBlocked_ok, Option.any_map]
    simp only [sourceBlocked, denies, PolicyDecision.isDenied]
  have hturn (event : PyDict) (h : (if sourceBlocked r.policy s o then
        receiptToDetectionFindingForBlockedSource py epochMs r.toDict includeTrajectoryCorrelator extra
          s.toDict (o.map fun d => d.toDict s.fingerprint)
      else receiptToApplicationActivity py epochMs r.toDict includeTrajectoryCorrelator extra s.toDict
        (o.map fun d => d.toDict s.fingerprint)) = .ok event) :
      sourceEvent py epochMs r.toDict includeTrajectoryCorrelator extra
        (byField (ds.map fun p => (.str p.1, p.2.toDict p.1))) (.dict s.toDict) = .ok event := by
    refine bind_ok.mpr ⟨s.toDict, rfl, bind_ok.mpr ⟨_, ?_, bind_ok.mpr ⟨_, hblocked, h⟩⟩⟩
    rw [s.get_fingerprint]
    exact lookup_fingerprint ds s.fingerprint
  cases hb : sourceBlocked r.policy s o with
  | false =>
    have hnamed : RulesNamed (o.map fun d => d.toDict s.fingerprint) := by
      intro d hd
      obtain ⟨d, -, rfl⟩ := Option.map_eq_some_iff.mp hd
      exact ⟨_, d.namesRules s.fingerprint⟩
    obtain ⟨event, hevent, hbuilt⟩ := applicationActivity_ok py epochMs includeTrajectoryCorrelator
      (exportable_toDict r) hextra s.toDict hnamed
    refine ⟨event, hturn event (by rw [hb]; exact hevent),
      hbuilt.fields ("resources", resourcesOf s.toDict) (by simp), ?_, by rw [hb]; nofun⟩
    rw [hb]
    exact hbuilt.fields ("class_uid", .int applicationActivityClass)
      (by simp [EventKind.written, applicationActivity])
  | true =>
    have hd : s.verificationOutcome = .verified → ∃ d,
        (o.map fun d => d.toDict s.fingerprint) = some d ∧ ReceiptBuilder.isDenied d = true ∧
          NamesRules d (firedRules o) := by
      intro hv
      have hdenies : denies o = true := by
        rw [sourceBlocked, hv] at hb
        exact hb
      obtain ⟨d, ho, hd⟩ := denies_iff.mp hdenies
      rw [ho]
      exact ⟨_, rfl, by rw [d.isDenied]; exact decide_eq_true hd, d.namesRules s.fingerprint⟩
    obtain ⟨event, hevent, hresources, hfinding⟩ := blockedSource_ok py epochMs
      includeTrajectoryCorrelator (exportable_toDict r) hextra s.get_outcome hd
    refine ⟨event, hturn event (by rw [hb]; exact hevent), hresources, ?_, fun _ => hfinding⟩
    rw [hb]
    exact hfinding.cls

theorem actionEvent_ok (hextra : KeepsLabels extra) (r : ProvenanceReceipt)
    (ads : List (ℕ × PolicyDecision)) (a : ActionRecord) :
    ∃ event, actionEvent py epochMs r.toDict includeTrajectoryCorrelator extra
        (byField (ads.map fun p => (.int p.1, admissionEntry p.1 p.2))) (.dict a.toDict) = .ok event ∧
      ActionEvent py a (decisionOn ads a.actionIndex) event := by
  set o := decisionOn ads a.actionIndex
  have hlookup : lookupField (byField (ads.map fun p => (.int p.1, admissionEntry p.1 p.2)))
      (getOrNone a.toDict "action_index") = .ok (o.map (admissionEntry a.actionIndex)) := by
    rw [a.get_actionIndex]
    exact lookup_actionIndex ads a.actionIndex
  have hnames (d : PolicyDecision) : NamesRules (admissionEntry a.actionIndex d) d.rulesFired := rfl
  cases hb : denies o with
  | true =>
    obtain ⟨d, ho, hd⟩ := denies_iff.mp hb
    replace hd := (admissionEntry_isDenied a.actionIndex d).trans (decide_eq_true hd)
    obtain ⟨event, hevent, hapi, hfinding⟩ := deniedAction_ok py epochMs includeTrajectoryCorrelator
      (exportable_toDict r) hextra a.toDict (hnames d)
    refine ⟨event, bind_ok.mpr ⟨a.toDict, rfl, bind_ok.mpr ⟨_, hlookup, ?_⟩⟩, hapi, ?_, fun _ => ?_⟩
    · rw [ho, Option.map_some, Option.filter_some, if_pos hd]
      exact hevent
    · rw [hb]
      exact hfinding.cls
    · rw [ho]
      exact hfinding
  | false =>
    have hnamed : RulesNamed (o.map (admissionEntry a.actionIndex)) := by
      intro d hd
      obtain ⟨d, -, rfl⟩ := Option.map_eq_some_iff.mp hd
      exact ⟨_, hnames d⟩
    have hfilter : (o.map (admissionEntry a.actionIndex)).filter ReceiptBuilder.isDenied = none := by
      rw [Option.filter_eq_none_iff]
      intro d hd
      obtain ⟨d, ho, rfl⟩ := Option.map_eq_some_iff.mp hd
      rw [admissionEntry_isDenied]
      rw [ho] at hb
      simpa [denies] using hb
    obtain ⟨event, hevent, hbuilt⟩ := apiActivity_ok py epochMs includeTrajectoryCorrelator
      (exportable_toDict r) hextra a.toDict hnamed
    refine ⟨event, bind_ok.mpr ⟨a.toDict, rfl, bind_ok.mpr ⟨_, hlookup, ?_⟩⟩,
      hbuilt.fields ("api", .dict (apiBlock py a.toDict)) (by simp), ?_, by rw [hb]; nofun⟩
    · rw [hfilter]
      exact hevent
    · rw [hb]
      exact hbuilt.fields ("class_uid", .int apiActivityClass)
        (by simp [EventKind.written, apiActivity])

/-- The export of a receipt: an event for each source, then one for each action. -/
theorem receiptToOcsf_ok (hextra : KeepsLabels extra) {r : ProvenanceReceipt}
    {ds : List (String × PolicyDecision)} {ads : List (ℕ × PolicyDecision)} (h : Records r ds ads) :
    ∃ sourceEvents actionEvents,
      receiptToOcsf py epochMs r.toDict includeTrajectoryCorrelator extra =
        .ok (sourceEvents ++ actionEvents) ∧
      List.Forall₂ (fun s event => SourceEvent r.policy s (decisionOn ds s.fingerprint) event)
        r.sources sourceEvents ∧
      List.Forall₂ (fun a event => ActionEvent py a (decisionOn ads a.actionIndex) event)
        r.actions actionEvents := by
  obtain ⟨sourceEvents, hsources, hsrel⟩ := buildAll_total fun s (_ : s ∈ r.sources) =>
    sourceEvent_ok py epochMs includeTrajectoryCorrelator hextra r ds s
  obtain ⟨actionEvents, hactions, harel⟩ := buildAll_total fun a (_ : a ∈ r.actions) =>
    actionEvent_ok py epochMs includeTrajectoryCorrelator hextra r ads a
  refine ⟨sourceEvents, actionEvents, ?_, hsrel, harel⟩
  obtain ⟨v, hv, hchunks⟩ := control_decisions r.accessControl
  obtain ⟨w, hw, htools⟩ := control_decisions r.toolCallControl
  rw [h.chunks, List.map_map] at hchunks
  rw [h.actions, List.map_map] at htools
  have hrecords : iterate ((getOrNone r.toDict "sources").orElse (.list [])) =
      .ok (r.sources.map fun s => .dict s.toDict) := by
    rw [r.get_sources, orElse_list]
    rfl
  have hcalls : iterate ((getOrNone r.toDict "actions").orElse (.list [])) =
      .ok (r.actions.map fun a => .dict a.toDict) := by
    rw [r.get_actions]
    cases r.actions <;> rfl
  unfold receiptToOcsf
  refine bind_ok.mpr ⟨_, policyPart_toDict _ _, bind_ok.mpr ⟨_, policyPart_toDict _ _, ?_⟩⟩
  rw [r.get_accessControl, r.get_toolCallControl]
  refine bind_ok.mpr ⟨v, hv, bind_ok.mpr ⟨_, hchunks, ?_⟩⟩
  refine bind_ok.mpr ⟨_, decisionsByFingerprint_ok h.fingerprints, bind_ok.mpr ⟨_, hrecords, ?_⟩⟩
  refine bind_ok.mpr ⟨sourceEvents, buildAll_map.trans hsources, ?_⟩
  refine bind_ok.mpr ⟨w, hw, bind_ok.mpr ⟨_, htools, ?_⟩⟩
  refine bind_ok.mpr ⟨_, decisionsByActionIndex_ok ads, bind_ok.mpr ⟨_, hcalls, ?_⟩⟩
  exact bind_ok.mpr ⟨actionEvents, buildAll_map.trans hactions, rfl⟩

end

end Provenex
