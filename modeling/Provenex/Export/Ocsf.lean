import Provenex.Core.Receipt
import Provenex.Core.TrajectoryAudit

/-! `export/ocsf.py`. A receipt comes in as the mapping it serialises to, and
every event goes out as one; where the parsing of a time falls back to the
clock, it is an argument. -/

namespace Provenex

open Guard

/-! ## Mappings -/

/-- `v.get(k)`, of what may be no mapping. -/
def getFrom (v : PyVal) (k : String) : Except PyErr PyVal := do
  let d ← asMapping v .attributeError
  .ok (getOrNone d k)

/-- `if v: d[k] = f(v)`, for a new key. -/
def truthyItem (k : String) (v : PyVal) (f : PyVal → PyVal) : PyDict :=
  if v.truthy then [(.str k, f v)] else []

/-- `s.lower()`, of ASCII. -/
def lower (s : String) : String := String.ofList (s.toList.map Char.toLower)

/-- `s.partition("/")`, without the separator. -/
def partitionSlash (s : String) : String × String :=
  (String.ofList (s.toList.takeWhile fun c => c ≠ '/'),
    String.ofList (s.toList.dropWhile fun c => c ≠ '/').tail)

/-- A string, as `join` takes it. -/
def asText : PyVal → Except PyErr String
  | .str s => .ok s
  | _ => .error (.typeError none)

/-- `sep.join(v)` -/
def joinStrings (sep : String) (v : PyVal) : Except PyErr String := do
  let words ← buildAll (← iterate v) asText
  .ok (joinWith sep words)

/-- `"action_index" in v`, of what may be no mapping. -/
def contains (v : PyVal) (k : String) : Except PyErr Bool :=
  match v with
  | .dict d => .ok (hasKey d k)
  | .list xs => .ok (inList (.str k) xs)
  | .str s => .ok (k.toList <:+: s.toList)
  | _ => .error (.typeError none)

/-! ## Events -/

/-- The constants of one kind of event. -/
structure EventKind where
  classUid : ℤ
  className : String
  categoryUid : ℤ
  categoryName : String
  activityId : ℤ
  activityName : String
  severityId : ℤ
  severity : String
  eventCode : String

/-- `OCSF_CLASS_APPLICATION_ACTIVITY` -/
def applicationActivityClass : ℤ := 6005

/-- `OCSF_CLASS_API_ACTIVITY` -/
def apiActivityClass : ℤ := 6003

/-- `OCSF_CLASS_DETECTION_FINDING` -/
def detectionFindingClass : ℤ := 2004

def applicationActivity : EventKind :=
  ⟨applicationActivityClass, "Application Activity", 6, "Application Activity", 1, "Access", 1,
    "Informational", "provenex.verification.allow"⟩

def apiActivity : EventKind :=
  ⟨apiActivityClass, "API Activity", 6, "Application Activity", 1, "Create", 1, "Informational",
    "provenex.admission.allow"⟩

def detectionFinding (severityId : ℤ) (severity eventCode : String) : EventKind :=
  ⟨detectionFindingClass, "Detection Finding", 2, "Findings", 1, "Create", severityId, severity,
    eventCode⟩

/-- `receipt.get("trajectory") or {}` -/
def trajectoryOf (receipt : PyDict) : PyVal := (getOrNone receipt "trajectory").orElse (.dict [])

/-- `(receipt.get("policy") or {}).get(k)` -/
def policyPart (receipt : PyDict) (k : String) : Except PyErr PyVal :=
  getFrom ((getOrNone receipt "policy").orElse (.dict [])) k

/-- `_build_metadata` -/
def buildMetadata (receipt : PyDict) (includeTrajectoryCorrelator : Bool)
    (extraMetadata : Option PyDict) (eventCode : String) : Except PyErr PyDict := do
  let issuer ← match (getOrNone receipt "issuer").orElse (.str "") with
    | .str s => .ok s
    | _ => .error .attributeError
  let (productName, productVersion) := partitionSlash issuer
  let product : PyDict := [
    (.str "name", (PyVal.str productName).orElse (.str "provenex-core")),
    (.str "version", .str productVersion), (.str "vendor_name", .str "Provenex")] ++
    truthyItem "feature" (getOrNone receipt "schema_version") fun v =>
      .dict [(.str "name", .str "provenex-receipt"), (.str "version", v)]
  let trajectoryId ← getFrom (trajectoryOf receipt) "trajectory_id"
  let sessionId ← getFrom (trajectoryOf receipt) "session_id"
  let md : PyDict := [(.str "uid", getOrNone receipt "receipt_id"),
    (.str "event_code", .str eventCode), (.str "version", .str "1.3.0"),
    (.str "product", .dict product), (.str "labels", .list [])] ++
    truthyItem "correlation_uid" (if includeTrajectoryCorrelator then trajectoryId else .none) id ++
    truthyItem "session_uid" sessionId id
  .ok ((extraMetadata.getD []).foldl (fun md e => setItem md e.1 e.2) md)

/-- `_actor_from_receipt` -/
def actorFromReceipt (receipt : PyDict) : Except PyErr PyDict := do
  let agentId ← getFrom (trajectoryOf receipt) "agent_id"
  .ok (truthyItem "user" (getOrNone receipt "caller_hash") (fun v =>
      .dict [(.str "uid", v), (.str "type_id", .int 1)]) ++
    truthyItem "process" agentId fun v => .dict [(.str "name", v)])

/-- `_base_event`, and the status that every event has. -/
def baseEvent (epochMs : String → ℤ) (receipt : PyDict) (kind : EventKind)
    (includeTrajectoryCorrelator : Bool) (extraMetadata : Option PyDict) : Except PyErr PyDict := do
  let metadata ← buildMetadata receipt includeTrajectoryCorrelator extraMetadata kind.eventCode
  let actor ← actorFromReceipt receipt
  let issuedAt := getOrNone receipt "issued_at"
  let time ← if issuedAt.truthy then
      match issuedAt with
      | .str s => .ok [(PyAtom.str "time", PyVal.int (epochMs s)), (.str "time_dt", .str s)]
      | _ => .error .attributeError
    else .ok []
  let event : PyDict := [(.str "class_uid", .int kind.classUid),
    (.str "class_name", .str kind.className), (.str "category_uid", .int kind.categoryUid),
    (.str "category_name", .str kind.categoryName), (.str "activity_id", .int kind.activityId),
    (.str "activity_name", .str kind.activityName),
    (.str "type_uid", .int (kind.classUid * 100 + kind.activityId)),
    (.str "severity_id", .int kind.severityId), (.str "severity", .str kind.severity),
    (.str "metadata", .dict metadata), (.str "actor", .dict actor)]
  .ok (event ++ time ++ [(.str "status_id", .int 1), (.str "status", .str "Success")])

/-- `_resource_from_source` -/
def resourceFromSource (source : PyDict) : PyDict :=
  let data : PyDict := [(.str "fingerprint", getOrNone source "fingerprint")] ++
    truthyItem "document_version" (getOrNone source "document_version") id ++
    truthyItem "content_source" (getOrNone source "content_source") id
  [(.str "uid", (getOrNone source "document_id").orElse
      ((getOrNone source "fingerprint").orElse (.str ""))),
    (.str "type", .str "document_chunk"), (.str "data", .dict data)]

section

variable (py : Stdlib)

/-- `_service_from_action` -/
def serviceFromAction (action : PyDict) : PyDict :=
  [(.str "name", (getOrNone action "name").orElse (.str ""))] ++
    truthyItem "labels" (getOrNone action "target_system") fun v =>
      .list [.str ("target_system:" ++ py.format v)]

/-- `metadata.setdefault("labels", []).append(label)` -/
def appendLabel (metadata : PyDict) (label : String) : Except PyErr PyDict :=
  match (getKey metadata "labels").getD (.list []) with
  | .list labels => .ok (setItem metadata (.str "labels") (.list (labels ++ [.str label])))
  | _ => .error .attributeError

def appendLabelIf (metadata : PyDict) (c : Bool) (label : String) : Except PyErr PyDict :=
  if c then appendLabel metadata label else .ok metadata

/-- A change to `event["metadata"]`. -/
def onMetadata (event : PyDict) (f : PyDict → Except PyErr PyDict) : Except PyErr PyDict := do
  let metadata ← asMapping (← subscript event "metadata") .attributeError
  let metadata ← f metadata
  .ok (setItem event (.str "metadata") (.dict metadata))

/-- `_add_label` -/
def addLabel (event : PyDict) (key : String) (value : PyVal) : Except PyErr PyDict :=
  onMetadata event fun md => appendLabel md (key ++ ":" ++ py.format value)

/-- The label is added where the value is truthy. -/
def addLabelIf (event : PyDict) (key : String) (value : PyVal) : Except PyErr PyDict :=
  if value.truthy then addLabel py event key value else .ok event

/-- `_add_step_kind_label` -/
def addStepKindLabel (event receipt : PyDict) : Except PyErr PyDict := do
  let stepKind ← getFrom (trajectoryOf receipt) "step_kind"
  addLabelIf py event "step_kind" stepKind

/-- `_add_verification_outcome_label` -/
def addVerificationOutcomeLabel (event source : PyDict) : Except PyErr PyDict :=
  addLabelIf py event "verification_outcome" (getOrNone source "verification_outcome")

/-- `_attach_access_control_decision_to_metadata`, which the one for tool calls calls too. -/
def attachDecisionToMetadata (metadata decision : PyDict) : Except PyErr PyDict := do
  let inputsHash := getOrNone decision "inputs_hash"
  let metadata ← appendLabelIf metadata inputsHash.truthy ("inputs_hash:" ++ py.format inputsHash)
  let rules := (getOrNone decision "rules_fired").orElse (.list [])
  if rules.truthy then
    let words ← joinStrings "," rules
    appendLabel metadata ("rules_fired:" ++ words)
  else .ok metadata

/-- The decision goes to the metadata, where there is one. -/
def attachDecision (event : PyDict) (decision : Option PyDict) : Except PyErr PyDict :=
  match decision with
  | some d => onMetadata event fun md => attachDecisionToMetadata py md d
  | none => .ok event

/-- `_attach_access_control_policy_to_metadata` and `_attach_tool_call_control_policy_to_metadata`:
the two differ in the block they are given. -/
def attachPolicyToMetadata (metadata : PyDict) (control : PyVal) : Except PyErr PyDict :=
  if control.truthy then do
    let policyId ← getFrom control "policy_id"
    let metadata := if policyId.truthy then setItem metadata (.str "policy_uid") policyId else metadata
    let versionHash ← getFrom control "policy_version_hash"
    .ok (if versionHash.truthy then setItem metadata (.str "policy_uid_alt") versionHash
      else metadata)
  else .ok metadata

/-- `rules_fired`, as a list of names. -/
def ruleNames (decision : PyDict) : Except PyErr (List PyVal) :=
  iterate ((getOrNone decision "rules_fired").orElse (.list []))

/-- A title, with the names of the rules where there are any. -/
def titleWithRules (title : String) (rules : List PyVal) : Except PyErr String :=
  if rules.isEmpty then .ok title
  else (joinStrings ", " (.list rules)).map fun words => title ++ "; rules: " ++ words

/-- The label with the rules that fired, where any did. -/
def addRulesLabel (event : PyDict) (rules : List PyVal) : Except PyErr PyDict :=
  if rules.isEmpty then .ok event
  else do
    let words ← joinStrings "," (.list rules)
    addLabel py event "rules_fired" (.str words)

/-- The label with the rules of a decision, where there is one and any fired. -/
def addFiredLabel (event : PyDict) (decision : Option PyDict) : Except PyErr PyDict :=
  match decision with
  | none => .ok event
  | some d =>
    let rules := (getOrNone d "rules_fired").orElse (.list [])
    if rules.truthy then do
      let words ← joinStrings "," rules
      addLabel py event "rules_fired" (.str words)
    else .ok event

/-- An entry of `related_events`, where there is a hash. -/
def relatedEvent (hash : PyVal) (type : String) : List PyVal :=
  if hash.truthy then [.dict [(.str "uid", hash), (.str "type", .str type)]] else []

/-- `finding_info` -/
def findingInfo (receipt : PyDict) (title : String) (types related : List PyVal) : PyDict :=
  [(.str "uid", getOrNone receipt "receipt_id"), (.str "title", .str title),
    (.str "types", .list types)] ++
    if related.isEmpty then [] else [(.str "related_events", .list related)]

/-! ## One event -/

variable (epochMs : String → ℤ) (receipt : PyDict) (includeTrajectoryCorrelator : Bool)
  (extraMetadata : Option PyDict)

def receiptToApplicationActivity (source : PyDict) (decision : Option PyDict) :
    Except PyErr PyDict := do
  let event ← baseEvent epochMs receipt applicationActivity includeTrajectoryCorrelator extraMetadata
  let event := event ++ [(.str "resources", .list [.dict (resourceFromSource source)])]
  let event ← addStepKindLabel py event receipt
  let event ← addVerificationOutcomeLabel py event source
  let event ← attachDecision py event decision
  let control ← policyPart receipt "access_control"
  onMetadata event fun md => attachPolicyToMetadata md control

/-- Severity, title, types and rules of the finding on a blocked source. -/
def blockedSourceFinding (outcome : PyVal) (decision : Option PyDict) :
    Except PyErr (ℤ × String × String × List PyVal × List PyVal) := do
  let blockedByVerification ← match outcome with
    | .atom _ => .ok (inList outcome (["TAMPERED", "UNAUTHORIZED", "UNVERIFIED", "STALE"].map .str))
    | _ => .error (.typeError none)
  if blockedByVerification then
    .ok (5, "Critical", "Verification block: " ++ py.format outcome, [outcome], [])
  else match decision.filter ReceiptBuilder.isDenied with
    | some d => do
      let rules ← ruleNames d
      let title ← titleWithRules "Access control denied chunk" rules
      .ok (4, "High", title, [.str "ACCESS_CONTROL_DENY"], rules)
    | none => .ok (3, "Medium", "Source blocked (unspecified)", [outcome.orElse (.str "UNKNOWN")], [])

def receiptToDetectionFindingForBlockedSource (source : PyDict) (decision : Option PyDict) :
    Except PyErr PyDict := do
  let (severityId, severity, title, types, rules) ←
    blockedSourceFinding py (getOrNone source "verification_outcome") decision
  let event ← baseEvent epochMs receipt
    (detectionFinding severityId severity "provenex.verification.block") includeTrajectoryCorrelator
    extraMetadata
  let related := (decision.map fun d =>
    relatedEvent (getOrNone d "inputs_hash") "policy_inputs_hash").getD []
  let event := event ++ [(.str "finding_info", .dict (findingInfo receipt title types related)),
    (.str "resources", .list [.dict (resourceFromSource source)])]
  let event ← addStepKindLabel py event receipt
  let event ← addVerificationOutcomeLabel py event source
  let event ← addRulesLabel py event rules
  let control ← policyPart receipt "access_control"
  onMetadata event fun md => attachPolicyToMetadata md control

/-- The `api` block of an action. -/
def apiBlock (action : PyDict) : PyDict :=
  [(.str "operation", getOrNone action "operation"),
    (.str "service", .dict (serviceFromAction py action)),
    (.str "request", .dict [(.str "uid", getOrNone action "parameters_hash")])]

def receiptToApiActivity (action : PyDict) (decision : Option PyDict) : Except PyErr PyDict := do
  let event ← baseEvent epochMs receipt apiActivity includeTrajectoryCorrelator extraMetadata
  let event := event ++ [(.str "api", .dict (apiBlock py action))]
  let event ← addStepKindLabel py event receipt
  -- the rules are written twice: here, and with the inputs hash
  let event ← addFiredLabel py event decision
  let event ← attachDecision py event decision
  let control ← policyPart receipt "tool_call_control"
  onMetadata event fun md => attachPolicyToMetadata md control

def receiptToDetectionFindingForDeniedAction (action decision : PyDict) : Except PyErr PyDict := do
  let rules ← ruleNames decision
  let title ← titleWithRules "Tool-call admission denied" rules
  let event ← baseEvent epochMs receipt (detectionFinding 4 "High" "provenex.admission.deny")
    includeTrajectoryCorrelator extraMetadata
  let related := relatedEvent (getOrNone decision "inputs_hash") "policy_inputs_hash" ++
    relatedEvent (getOrNone action "parameters_hash") "action_parameters_hash"
  let event := event ++
    [(.str "finding_info", .dict (findingInfo receipt title [.str "ADMISSION_DENY"] related)),
      (.str "api", .dict (apiBlock py action))]
  let event ← addStepKindLabel py event receipt
  let event ← addRulesLabel py event rules
  let control ← policyPart receipt "tool_call_control"
  onMetadata event fun md => attachPolicyToMetadata md control

/-! ## All of them -/

/-- `_is_source_blocked` -/
def isSourceBlocked (source : PyDict) (decision : Option PyDict) : Except PyErr Bool := do
  let outcome := getOrNone source "verification_outcome"
  let blockedByVerification ← if outcome.eq (.str "VERIFIED") then .ok false
    else do
      let verification := (← policyPart receipt "verification").orElse (.dict [])
      let flag ← if outcome.truthy then
          match outcome with
          | .str s => .ok ("block_" ++ lower s)
          | _ => .error .attributeError
        else .ok ""
      let blocks ← getFrom verification flag
      .ok blocks.truthy
  .ok (blockedByVerification || decision.any ReceiptBuilder.isDenied)

/-- A mapping from one field of the entries to the entries; of two with one key, the later. -/
def byField (entries : List (PyAtom × PyDict)) : List (PyAtom × PyDict) :=
  entries.foldl (Rows.put fun e => e.1.key) []

def lookupField (table : List (PyAtom × PyDict)) (v : PyVal) : Except PyErr (Option PyDict) := do
  let k ← hashable v
  .ok ((table.find? fun e => e.1.key = k.key).map Prod.snd)

/-- `{d.get("chunk_fingerprint"): d for d in entries if d.get("chunk_fingerprint")}` -/
def decisionsByFingerprint (entries : List PyVal) : Except PyErr (List (PyAtom × PyDict)) := do
  let keyed ← buildAll entries fun d => do
    let d ← asMapping d .attributeError
    let fp := getOrNone d "chunk_fingerprint"
    if fp.truthy then (hashable fp).map fun k => [(k, d)] else .ok []
  .ok (byField keyed.flatten)

/-- `{d.get("action_index"): d for d in entries if "action_index" in d}` -/
def decisionsByActionIndex (entries : List PyVal) : Except PyErr (List (PyAtom × PyDict)) := do
  let keyed ← buildAll entries fun d => do
    if ← contains d "action_index" then
      let d ← asMapping d .attributeError
      (hashable (getOrNone d "action_index")).map fun k => [(k, d)]
    else .ok []
  .ok (byField keyed.flatten)

/-- The turn of the loop over the sources. -/
def sourceEvent (decisions : List (PyAtom × PyDict)) (source : PyVal) : Except PyErr PyDict := do
  let source ← asMapping source .attributeError
  let decision ← lookupField decisions (getOrNone source "fingerprint")
  if ← isSourceBlocked receipt source decision then
    receiptToDetectionFindingForBlockedSource py epochMs receipt includeTrajectoryCorrelator
      extraMetadata source decision
  else
    receiptToApplicationActivity py epochMs receipt includeTrajectoryCorrelator extraMetadata
      source decision

/-- The turn of the loop over the actions. -/
def actionEvent (decisions : List (PyAtom × PyDict)) (action : PyVal) : Except PyErr PyDict := do
  let action ← asMapping action .attributeError
  let decision ← lookupField decisions (getOrNone action "action_index")
  match decision.filter ReceiptBuilder.isDenied with
  | some d =>
    receiptToDetectionFindingForDeniedAction py epochMs receipt includeTrajectoryCorrelator
      extraMetadata action d
  | none =>
    receiptToApiActivity py epochMs receipt includeTrajectoryCorrelator extraMetadata action
      decision

/-- `receipt_to_ocsf` -/
def receiptToOcsf : Except PyErr (List PyDict) := do
  let accessControl := (← policyPart receipt "access_control").orElse (.dict [])
  let toolCallControl := (← policyPart receipt "tool_call_control").orElse (.dict [])
  let entries ← iterate ((← getFrom accessControl "decisions").orElse (.list []))
  let decisions ← decisionsByFingerprint entries
  let sources ← iterate ((getOrNone receipt "sources").orElse (.list []))
  let sourceEvents ← buildAll sources
    (sourceEvent py epochMs receipt includeTrajectoryCorrelator extraMetadata decisions)
  let entries ← iterate ((← getFrom toolCallControl "decisions").orElse (.list []))
  let decisions ← decisionsByActionIndex entries
  let actions ← iterate ((getOrNone receipt "actions").orElse (.list []))
  let actionEvents ← buildAll actions
    (actionEvent py epochMs receipt includeTrajectoryCorrelator extraMetadata decisions)
  .ok (sourceEvents ++ actionEvents)

end

end Provenex
