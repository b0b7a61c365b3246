import Provenex.Core.Signature
import Provenex.Proofs.RoundTrip
import Provenex.Proofs.Session

/-! A signed receipt that is written as JSON, read back and checked. The signature
is checked over the canonical text of what was read, which is the text that was
signed only where every mapping in it keeps its order. -/

namespace Provenex

/-! ## Mappings whose keys are named in the source -/

/-- The keys are among the names, each at most once. -/
def Named (names : List String) (d : PyDict) : Prop := (keysOf d).Sublist (names.map .str)

theorem Named.append {xs ys : List String} {d e : PyDict} (hd : Named xs d) (he : Named ys e) :
    Named (xs ++ ys) (d ++ e) := by
  rw [Named, keysOf, List.map_append, List.map_append]
  exact List.Sublist.append hd he

theorem Named.of_keys {names : List String} {d : PyDict} (h : keysOf d = names.map .str) :
    Named names d := by
  rw [Named, h]

theorem Named.cons {names : List String} {d : PyDict} (h : Named names d) (k : String) (v : PyVal) :
    Named (k :: names) ((.str k, v) :: d) :=
  List.Sublist.cons_cons _ h

theorem Named.item (k : String) (v : PyVal) : Named [k] (optionalItem k v) := by
  unfold optionalItem Named
  split
  · exact List.nil_sublist _
  · exact List.Sublist.refl _

theorem Named.strKeys {names : List String} {d : PyDict} (h : Named names d) : StrKeys d := by
  intro k hk
  obtain ⟨s, -, rfl⟩ := List.mem_map.mp (h.subset hk)
  exact ⟨s, rfl⟩

theorem Named.nodup {names : List String} {d : PyDict} (h : Named names d) (hn : names.Nodup) :
    (keysOf d).Nodup :=
  List.Sublist.nodup h (hn.map fun _ _ hst => PyAtom.str.inj hst)

theorem Named.missing {names : List String} {d : PyDict} (h : Named names d) {k : String}
    (hk : k ∉ names) : ∀ e ∈ d, e.1.eq (.str k) = false := by
  intro e he
  rw [← Bool.not_eq_true, PyAtom.eq_str]
  intro heq
  obtain ⟨s, hs, hse⟩ := List.mem_map.mp (h.subset (List.mem_map_of_mem he))
  exact hk (PyAtom.str.inj (hse.trans heq) ▸ hs)

/-! ## Properties of all values inside -/

/-- A value has it where all values inside have it, and texts have it. -/
structure Structural (P : PyVal → Prop) : Prop where
  null : P .none
  bool : ∀ b, P (.bool b)
  str : ∀ s, P (.str s)
  list : ∀ {xs}, P (.list xs) ↔ ∀ x ∈ xs, P x
  dict : ∀ {d}, StrKeys d → (keysOf d).Nodup → (P (.dict d) ↔ ∀ e ∈ d, P e.2)

/-- Integers have it as well. -/
structure Hereditary (P : PyVal → Prop) : Prop extends Structural P where
  int : ∀ i, P (.int i)

theorem jsonable_structural : Structural fun v => jsonable v = true where
  null := rfl
  bool := fun _ => rfl
  str := fun _ => rfl
  list := by
    intro xs
    rw [jsonable, jsonableList_iff]
  dict := fun hs _ => jsonable_strKeys hs

theorem floatFree_hereditary : Hereditary FloatFree where
  null := .atom nofun
  bool := fun _ => .atom nofun
  int := fun _ => .atom nofun
  str := fun _ => .atom nofun
  list := ⟨fun h => by cases h with | list items => exact items, .list⟩
  dict := by
    intro d hs hn
    refine ⟨fun h => by cases h with | dict _ _ values => exact values,
      fun values => .dict ?_ ?_ values⟩
    · rintro k hk f rfl
      obtain ⟨s, hs⟩ := hs _ hk
      cases hs
    · refine hn.imp_of_mem fun {k l} _ hl hne => ?_
      obtain ⟨s, rfl⟩ := hs l hl
      rw [← Bool.not_eq_true, PyAtom.eq_str]
      exact hne

theorem textOrdered_hereditary (py : Stdlib) : Hereditary (TextOrdered py) where
  null := .atom _
  bool := fun _ => .atom _
  int := fun _ => .atom _
  str := fun _ => .atom _
  list := textOrdered_list
  dict := by
    intro d hs _
    refine ⟨fun h => by cases h with | dict _ values => exact values,
      .dict fun e he f hf hle => ?_⟩
    obtain ⟨s, hse⟩ := hs e.1 (List.mem_map_of_mem he)
    obtain ⟨t, htf⟩ := hs f.1 (List.mem_map_of_mem hf)
    rw [leKey, hse, htf] at hle
    rw [leToken, hse, htf]
    exact decide_eq_true_iff.mp hle

section

variable {P : PyVal → Prop} (hP : Structural P)

include hP

theorem Structural.optional (o : Option String) : P (.ofOption o) := by
  cases o with
  | none => exact hP.null
  | some s => exact hP.str s

theorem Structural.nullable {α : Type} {f : α → PyVal} {o : Option α} :
    P (orNull f o) ↔ ∀ a ∈ o, P (f a) := by
  cases o with
  | none => simp [orNull, hP.null]
  | some a => simp [orNull]

theorem Structural.texts (xs : List String) : P (strList xs) := by
  rw [strList, hP.list, List.forall_mem_map]
  exact fun x _ => hP.str x

theorem Structural.item {k : String} {v : PyVal} :
    (∀ e ∈ optionalItem k v, P e.2) ↔ P v := by
  unfold optionalItem
  split
  · simp [hP.null]
  · simp

theorem Structural.named {names : List String} {d : PyDict} (h : Named names d)
    (hn : names.Nodup) : P (.dict d) ↔ ∀ e ∈ d, P e.2 :=
  hP.dict h.strKeys (h.nodup hn)

end

/-! ## The values a receipt takes as they come -/

section

variable {P : PyVal → Prop} (hP : Hereditary P)

include hP

theorem Hereditary.claim (c : Claim) : P (.dict c.toDict) ↔ P c.value := by
  have hnamed : Named (["type", "asserted_by"] ++ ["value"] ++ ["reason"]) c.toDict :=
    .append (.append (.of_keys rfl) (.item _ _)) (.item _ _)
  rw [hP.named hnamed (by decide)]
  simp only [Claim.toDict, List.forall_mem_append, List.forall_mem_cons, hP.item,
    hP.str, hP.optional]
  simp

theorem Hereditary.source (s : SourceRecord) :
    P (.dict s.toDict) ↔ ∀ c ∈ s.claims.getD [], P c.value := by
  have hnamed : Named (["chunk_index", "fingerprint", "document_id", "document_version",
      "ingested_at", "chunk_offset", "chunk_length", "authorized", "verification_outcome",
      "normalization_applied"] ++ ["leaf_index"] ++ ["inclusion_proof"] ++ ["claims"] ++
      ["content_source"]) s.toDict :=
    .append (.append (.append (.append (.of_keys rfl) (.item _ _)) (.item _ _))
      (.item _ _)) (.item _ _)
  have hclaims : P (orNull (fun cs => .list (cs.map fun c => .dict c.toDict))
      (s.claims.filter fun cs => ! cs.isEmpty)) ↔ ∀ c ∈ s.claims.getD [], P c.value := by
    cases s.claims with
    | none => exact iff_of_true hP.null (by simp)
    | some cs =>
      cases cs with
      | nil => exact iff_of_true hP.null (by simp)
      | cons c cs =>
        have hkept : (! (c :: cs).isEmpty) = true := rfl
        rw [Option.filter_some, if_pos hkept, orNull, hP.list, List.forall_mem_map]
        simp only [hP.claim]
        rfl
  have hints (o : Option ℤ) : P (orNull .int o) := hP.nullable.mpr fun i _ => hP.int i
  have hbools (o : Option Bool) : P (orNull .bool o) := hP.nullable.mpr fun b _ => hP.bool b
  have hproof : P (orNull strList s.inclusionProof) := hP.nullable.mpr fun xs _ => hP.texts xs
  rw [hP.named hnamed (by decide)]
  simp only [SourceRecord.toDict, List.forall_mem_append, List.forall_mem_cons, hP.item,
    hP.int, hP.str, hP.optional, hP.texts, hints, hbools, hproof, hclaims]
  simp

theorem Hereditary.action (a : ActionRecord) : P (.dict a.toDict) ↔ P a.name ∧ P a.operation ∧
    P (orNull .dict a.parameters) ∧ P a.targetSystem ∧ P a.invocationId := by
  have hnamed : Named (["action_index", "name", "operation", "parameters_hash", "parameters"] ++
      ["target_system"] ++ ["invocation_id"]) a.toDict :=
    .append (.append (.of_keys rfl) (.item _ _)) (.item _ _)
  rw [hP.named hnamed (by decide)]
  simp only [ActionRecord.toDict, List.forall_mem_append, List.forall_mem_cons, hP.item,
    hP.int, hP.str]
  simp [and_assoc]

theorem Hereditary.control (c : ControlMetadata) :
    P (.dict c.toDict) ↔ ∀ d ∈ c.decisions, P (.dict d) := by
  have hnamed : Named ["evaluator", "policy_id", "policy_version_hash",
      "policy_in_transparency_log", "decisions"] c.toDict := .of_keys rfl
  rw [hP.named hnamed (by decide)]
  simp only [ControlMetadata.toDict, List.forall_mem_cons, hP.str, hP.bool, hP.list]
  simp

theorem Hereditary.trajectory (t : TrajectoryContext) : P (.dict t.toDict) := by
  have hnamed : Named (["trajectory_id", "step_index", "parent_step_ids",
      "trajectory_started_at"] ++ ["step_kind"] ++ ["agent_id"] ++ ["session_id"]) t.toDict :=
    .append (.append (.append (.of_keys rfl) (.item _ _)) (.item _ _))
      (.item _ _)
  rw [hP.named hnamed (by decide)]
  simp only [TrajectoryContext.toDict, List.forall_mem_append, List.forall_mem_cons,
    hP.item, hP.int, hP.str, hP.texts, hP.optional]
  simp

theorem Hereditary.verification (p : VerificationPolicy) : P (.dict p.toDict) := by
  have hnamed : Named ["block_stale", "block_unauthorized", "block_unverified", "block_tampered",
      "flag_stale", "flag_unauthorized", "flag_unverified", "flag_tampered"] p.toDict :=
    .of_keys rfl
  rw [hP.named hnamed (by decide)]
  simp [VerificationPolicy.toDict, hP.bool]

theorem Hereditary.policyBlock (r : ProvenanceReceipt) : P (.dict r.policyBlock) ↔
    (∀ c ∈ r.accessControl, ∀ d ∈ c.decisions, P (.dict d)) ∧
      ∀ c ∈ r.toolCallControl, ∀ d ∈ c.decisions, P (.dict d) := by
  have hnamed : Named (["verification", "access_control"] ++ ["tool_call_control"])
      r.policyBlock :=
    .append (.cons (.item _ _) _ _) (.item _ _)
  rw [hP.named hnamed (by decide)]
  simp only [ProvenanceReceipt.policyBlock, List.cons_append, List.forall_mem_cons,
    List.forall_mem_append, hP.item, hP.verification, hP.nullable, hP.control, true_and]

theorem Hereditary.summary (b : ReceiptBuilder) (toolCallControl : Option ControlMetadata) :
    P (.dict (b.summary toolCallControl)) := by
  have hactions : Named ["total_actions", "actions_allowed", "actions_denied"]
      (if b.actions.isEmpty then [] else
        [(.str "total_actions", .int b.actions.length),
          (.str "actions_allowed", .int (b.actionsAllowed toolCallControl)),
          (.str "actions_denied", .int (ReceiptBuilder.actionsDenied toolCallControl))]) := by
    split_ifs
    · exact List.nil_sublist _
    · exact .of_keys rfl
  have hnamed : Named (["total_chunks", "verified", "stale", "unauthorized", "unverified",
      "tampered"] ++ ["total_actions", "actions_allowed", "actions_denied"] ++ ["overall_status"])
      (b.summary toolCallControl) := .append (.append (.of_keys rfl) hactions) (.of_keys rfl)
  rw [hP.named hnamed (by decide)]
  unfold ReceiptBuilder.summary ReceiptBuilder.countOutcome
  simp only [List.forall_mem_append, List.forall_mem_cons, hP.int, hP.str]
  split_ifs <;> simp [hP.int]

end

def SourceRecord.freeValues (s : SourceRecord) : List PyVal := (s.claims.getD []).map (·.value)

def ActionRecord.freeValues (a : ActionRecord) : List PyVal :=
  [a.name, a.operation, orNull .dict a.parameters, a.targetSystem, a.invocationId]

/-- The decisions, with the inputs they record. -/
def decisionValues (c : Option ControlMetadata) : List PyVal :=
  (c.elim [] (·.decisions)).map .dict

/-- What a receipt holds of its callers' own values. -/
def ReceiptBuilder.freeValues (b : ReceiptBuilder) (transparencyLog : Option PyDict)
    (accessControl toolCallControl : Option ControlMetadata) : List PyVal :=
  b.sources.flatMap (·.freeValues) ++ b.actions.flatMap (·.freeValues) ++
    orNull .dict transparencyLog :: (decisionValues accessControl ++ decisionValues toolCallControl)

theorem body_named (r : ProvenanceReceipt) :
    Named (["receipt_id", "schema_version", "issued_at", "issuer"] ++ ["caller_hash"] ++
      ["output", "sources", "policy", "summary"] ++ ["actions"] ++ ["transparency_log"] ++
      ["trajectory"]) r.body := by
  refine .append (.append (.append (.append (.append (.of_keys rfl) (.item _ _)) (.of_keys rfl)) ?_)
    (.item _ _)) (.item _ _)
  split_ifs
  · exact List.nil_sublist _
  · exact .of_keys rfl

theorem toDict_named (r : ProvenanceReceipt) :
    Named ((["receipt_id", "schema_version", "issued_at", "issuer"] ++ ["caller_hash"] ++
      ["output", "sources", "policy", "summary"] ++ ["actions"] ++ ["transparency_log"] ++
      ["trajectory"]) ++ ["signature"]) r.toDict :=
  .append (body_named r) (.item _ _)

section

variable {py : Stdlib} {b : ReceiptBuilder} {outputText : String} {log : Option PyDict}
  {trajectory : Option TrajectoryContext} {accessControl toolCallControl : Option ControlMetadata}
  {callerHash : Option String} {issue : Issue} {r : ProvenanceReceipt}

theorem Hereditary.body {P : PyVal → Prop} (hP : Hereditary P)
    (h : b.finalize py outputText none log trajectory accessControl toolCallControl callerHash
      issue = .ok r) :
    P (.dict r.body) ↔ ∀ v ∈ b.freeValues log accessControl toolCallControl, P v := by
  obtain rfl := Except.ok.inj h
  have houtput : P (.dict [(.str "hash", .str (hashOutput py outputText)),
      (.str "hash_algorithm", .str "sha256")]) := by
    have hnamed : Named ["hash", "hash_algorithm"] [(.str "hash", .str (hashOutput py outputText)),
      (.str "hash_algorithm", .str "sha256")] := .of_keys rfl
    rw [hP.named hnamed (by decide)]
    simp [hP.str]
  have hlog : P (orNull .dict (log.filter fun d => ! d.isEmpty)) ↔ P (orNull .dict log) := by
    cases log with
    | none => rfl
    | some d =>
      cases d with
      | nil =>
        have hnamed : Named [] ([] : PyDict) := .of_keys rfl
        exact iff_of_true hP.null ((hP.named hnamed List.nodup_nil).mpr nofun)
      | cons e d => rfl
  have htrajectory : P (orNull .dict (trajectory.map (·.toDict))) := by
    rw [hP.nullable]
    rintro d hd
    obtain ⟨t, -, rfl⟩ := Option.mem_map.mp hd
    exact hP.trajectory t
  have hactions : (∀ e ∈ (if b.actions.isEmpty then [] else
      [(.str "actions", .list (b.actions.map fun a => .dict a.toDict))] : PyDict), P e.2) ↔
      ∀ a ∈ b.actions, ∀ v ∈ a.freeValues, P v := by
    split_ifs with hempty
    · simp [List.isEmpty_iff.mp hempty]
    · simp [hP.list, hP.action, ActionRecord.freeValues]
  have hdecisions (c : Option ControlMetadata) : (∀ v ∈ decisionValues c, P v) ↔
      ∀ m ∈ c, ∀ d ∈ m.decisions, P (.dict d) := by
    cases c <;> simp [decisionValues]
  rw [hP.named (body_named _) (by decide)]
  unfold ProvenanceReceipt.body
  simp only [List.forall_mem_append, List.forall_mem_cons, hP.item, hP.optional, hP.str, hP.list,
    List.forall_mem_map, hP.source, hP.policyBlock, hP.summary, houtput, hlog, htrajectory,
    hactions, ReceiptBuilder.freeValues, hdecisions, List.forall_mem_flatMap,
    SourceRecord.freeValues]
  tauto

/-! ## Reading a receipt back -/

/-- `verify_receipt_signature(json.loads(receipt.to_json()), signer)` -/
def ProvenanceReceipt.verifiesBack (py : Stdlib) (parseFloat : String → PyFloat)
    (indent : Option ℕ) (r : ProvenanceReceipt) (signer : VerifyingSigner) : Except PyErr Bool := do
  let text ← r.toJson py indent
  let v ← loads parseFloat text
  let d ← asMapping v .attributeError
  verifyReceiptSignature py d signer

theorem finalize_signed {signer : ReceiptSigner}
    (h : b.finalize py outputText (some signer) log trajectory accessControl toolCallControl
      callerHash issue = .ok r) :
    ∃ r₀ payload, b.finalize py outputText none log trajectory accessControl toolCallControl
        callerHash issue = .ok r₀ ∧ r.body = r₀.body ∧ r.canonicalPayload py = .ok payload ∧
      r.signature = some (signer.algorithm, signer.sign payload) := by
  rw [ReceiptBuilder.finalize, Guard.map_ok] at h
  obtain ⟨payload, hpayload, rfl⟩ := h
  exact ⟨_, payload, rfl, rfl, hpayload, rfl⟩

theorem coerceEntries_keys {d : PyDict} (h : StrKeys d) : keysOf (coerceEntries py d) = keysOf d := by
  rw [coerceEntries_eq, keysOf, keysOf, List.map_map]
  refine List.map_congr_left fun e he => ?_
  obtain ⟨s, hs⟩ := h e.1 (List.mem_map_of_mem he)
  rw [Function.comp_apply, hs, token]

theorem coerceEntries_append (d e : PyDict) :
    coerceEntries py (d ++ e) = coerceEntries py d ++ coerceEntries py e := by
  rw [coerceEntries_eq, coerceEntries_eq, coerceEntries_eq, List.map_append]

theorem coerceEntries_named {names : List String} {d : PyDict} (h : Named names d) :
    Named names (coerceEntries py d) := by
  rw [Named, coerceEntries_keys h.strKeys]
  exact h

def signatureBlock (alg value : String) : PyDict :=
  [(.str "algorithm", .str alg), (.str "value", .str value)]

/-- The receipt as its signature is checked over it. -/
def withoutSignature (receipt : PyDict) : PyDict :=
  receipt.filter fun e => ! e.1.eq (.str "signature")

theorem verify_signed {receipt sig : PyDict} {signer : VerifyingSigner}
    (hsig : getOrNone receipt "signature" = .dict sig)
    (halg : getOrNone sig "algorithm" = .str signer.algorithm) :
    verifyReceiptSignature py receipt signer =
      canonicalBytes py (.dict (withoutSignature receipt)) >>= fun payload =>
        signer.verify payload ((getOrNone sig "value").orElse (.str "")) := by
  have htruthy : (PyVal.dict sig).truthy = true := by
    cases sig with
    | nil => cases halg
    | cons e sig => rfl
  have heq : (getOrNone sig "algorithm").eq (.str signer.algorithm) = true := by
    rw [halg]
    exact PyAtom.eq_str.mpr rfl
  unfold verifyReceiptSignature
  rw [hsig, if_neg (not_not.mpr htruthy)]
  change (if ¬ (getOrNone sig "algorithm").eq (.str signer.algorithm) then _ else _) = _
  rw [if_neg (not_not.mpr heq), withoutSignature]

/-- The signature comes back as it was, and what it is checked over is the rest. -/
theorem verify_loaded {alg value : String} {signer : VerifyingSigner}
    (hs : r.signature = some (alg, value)) (halg : alg = signer.algorithm) :
    verifyReceiptSignature py (coerceEntries py r.toDict) signer =
      canonicalBytes py (coerce py (.dict r.body)) >>= fun payload =>
        signer.verify payload (.str value) := by
  have hsig : coerceEntries py r.toDict =
      coerceEntries py r.body ++ [(.str "signature", .dict (signatureBlock alg value))] := by
    rw [ProvenanceReceipt.toDict, coerceEntries_append, hs]
    rfl
  have hmissing : ∀ e ∈ coerceEntries py r.body, e.1.eq (.str "signature") = false :=
    (coerceEntries_named (body_named r)).missing (by decide)
  have hget : getOrNone (coerceEntries py r.toDict) "signature" =
      .dict (signatureBlock alg value) := by
    have hfind : getKey (coerceEntries py r.body) "signature" = none := by
      rw [getKey, dictGet, List.find?_eq_none.mpr fun e he => by simp [hmissing e he]]
      rfl
    rw [getOrNone, hsig, getKey_append, hfind]
    rfl
  have hrest : withoutSignature (coerceEntries py r.toDict) = coerceEntries py r.body := by
    rw [hsig, withoutSignature, List.filter_append, List.filter_eq_self.mpr fun e he => by simp [hmissing e he]]
    exact List.append_nil _
  have hvalue : (PyVal.str value).orElse (.str "") = .str value := by
    by_cases hempty : value = ""
    · rw [hempty]
      rfl
    · simp [PyVal.orElse, PyVal.truthy, hempty]
  have halgorithm : getOrNone (signatureBlock alg value) "algorithm" = .str signer.algorithm :=
    halg ▸ rfl
  have hfield : getOrNone (signatureBlock alg value) "value" = .str value := rfl
  rw [verify_signed hget halgorithm, hrest, hfield, hvalue, coerce]

theorem toDict_iff {P : PyVal → Prop} (hP : Structural P) {alg value : String}
    (hs : r.signature = some (alg, value)) : P (.dict r.toDict) ↔ P (.dict r.body) := by
  have hsig : P (.dict (signatureBlock alg value)) := by
    have hnamed : Named ["algorithm", "value"] (signatureBlock alg value) := .of_keys rfl
    rw [hP.named hnamed (by decide)]
    simp [signatureBlock, hP.str]
  rw [hP.named (toDict_named r) (by decide), hP.named (body_named r) (by decide),
    ProvenanceReceipt.toDict, List.forall_mem_append, hP.item, hs]
  exact and_iff_left hsig

/-- A signer accepts the signature it made, over the bytes it made it for. -/
def VerifyingSigner.Accepts (signer : VerifyingSigner) : Prop :=
  ∀ payload, signer.verify payload (.str (signer.sign payload)) = .ok true

theorem resigning_accepts {s : ReceiptSigner} (h : ∀ payload, isAscii (s.sign payload) = true) :
    s.resigning.Accepts :=
  fun payload => compareDigest_self (h payload)

theorem finalize_signs (signer : ReceiptSigner)
    (hr : b.finalize py outputText none log trajectory accessControl toolCallControl callerHash
      issue = .ok r) (hj : jsonable (.dict r.body) = true) :
    ∃ r, b.finalize py outputText (some signer) log trajectory accessControl toolCallControl
      callerHash issue = .ok r := by
  obtain rfl := Except.ok.inj hr
  rw [ReceiptBuilder.finalize, ProvenanceReceipt.canonicalPayload, canonicalBytes, dumps, if_pos hj]
  exact ⟨_, rfl⟩

/-- What was signed, and what the signature is checked over after the trip. -/
theorem verifiesBack_signed (parseFloat : String → PyFloat) (indent : Option ℕ)
    {signer : VerifyingSigner}
    (hfinal : b.finalize py outputText (some signer.toReceiptSigner) log trajectory accessControl
      toolCallControl callerHash issue = .ok r)
    (hfree : ∀ v ∈ b.freeValues log accessControl toolCallControl, FloatFree v) :
    ∃ payload payload', r.canonicalPayload py = .ok payload ∧
      r.verifiesBack py parseFloat indent signer =
        signer.verify payload' (.str (signer.sign payload)) ∧
      (payload' = payload ↔
        ∀ v ∈ b.freeValues log accessControl toolCallControl, TextOrdered py v) := by
  obtain ⟨r₀, payload, hr₀, hbody, hpayload, hs⟩ := finalize_signed hfinal
  have hfloat : FloatFree (.dict r.body) := hbody ▸ (floatFree_hereditary.body hr₀).mpr hfree
  have hj : jsonable (.dict r.body) = true := by
    by_contra hnot
    rw [ProvenanceReceipt.canonicalPayload, canonicalBytes, dumps, if_neg hnot] at hpayload
    cases hpayload
  obtain ⟨payload', hpayload'⟩ :
      ∃ payload', canonicalBytes py (coerce py (.dict r.body)) = .ok payload' := by
    rw [canonicalBytes, dumps, if_pos (coerce_jsonable hfloat hj)]
    exact ⟨_, rfl⟩
  refine ⟨payload, payload', hpayload, ?_, ?_⟩
  · have hfloat' : FloatFree (.dict r.toDict) := (toDict_iff floatFree_hereditary.toStructural hs).mpr hfloat
    have hj' : jsonable (.dict r.toDict) = true := (toDict_iff jsonable_structural hs).mpr hj
    obtain ⟨text, htext, hloads⟩ := loads_dumpsIndent indent hfloat' hj'
    rw [ProvenanceReceipt.verifiesBack, ProvenanceReceipt.toJson, htext]
    change loads parseFloat text >>= _ = _
    rw [hloads]
    change verifyReceiptSignature py (coerceEntries py r.toDict) signer = _
    rw [verify_loaded hs rfl, hpayload']
    rfl
  · rw [← (textOrdered_hereditary py).body hr₀, ← hbody, ← canonicalBytes_coerce_iff hfloat hj,
      hpayload', show canonicalBytes py (.dict r.body) = .ok payload from hpayload, Except.ok.injEq]

/-- A receipt verifies after a trip through JSON where every mapping among its callers' own values
has its keys in the order of their texts. A signer that tells the signed payload from all others
accepts no other receipt. -/
theorem signature_survives_json (parseFloat : String → PyFloat) (indent : Option ℕ)
    (signer : VerifyingSigner) (haccepts : signer.Accepts)
    (hfinal : b.finalize py outputText (some signer.toReceiptSigner) log trajectory accessControl
      toolCallControl callerHash issue = .ok r)
    (hfree : ∀ v ∈ b.freeValues log accessControl toolCallControl, FloatFree v) :
    ((∀ v ∈ b.freeValues log accessControl toolCallControl, TextOrdered py v) →
      r.verifiesBack py parseFloat indent signer = .ok true) ∧
    ((∀ payload payload', r.canonicalPayload py = .ok payload →
        signer.verify payload' (.str (signer.sign payload)) = .ok true → payload' = payload) →
      (r.verifiesBack py parseFloat indent signer = .ok true ↔
        ∀ v ∈ b.freeValues log accessControl toolCallControl, TextOrdered py v)) := by
  obtain ⟨payload, payload', hpayload, hback, hiff⟩ :=
    verifiesBack_signed parseFloat indent hfinal hfree
  have hsurvives (h : ∀ v ∈ b.freeValues log accessControl toolCallControl, TextOrdered py v) :
      r.verifiesBack py parseFloat indent signer = .ok true := by
    rw [hback, hiff.mpr h]
    exact haccepts payload
  refine ⟨hsurvives, fun htells => ⟨fun hv => ?_, hsurvives⟩⟩
  rw [hback] at hv
  exact hiff.mp (htells payload payload' hpayload hv)

namespace Sample

/-- One call, whose parameter is a mapping. -/
def called (limits : PyDict) : ReceiptBuilder :=
  ((ReceiptBuilder.init .default).addAction (.str "search") (.str "read") "sha256:00"
    (some [(.str "limits", .dict limits)]) .none .none).2

def signedAt : Issue := ⟨"id", "2024-01-01T00:00:00.000Z"⟩

/-- The signature is the payload in hexadecimal. -/
def hexSigner : VerifyingSigner := ReceiptSigner.resigning ⟨"hex", hexdigest⟩

/-- No float is read. -/
def noFloat (_ : String) : PyFloat := .nan

def signedCall (limits : PyDict) : Except PyErr ProvenanceReceipt :=
  (called limits).finalize Stdlib.blank "ok" (some hexSigner.toReceiptSigner) none none none none none
    signedAt

/-- Numbers as keys. -/
def outOfOrder : PyDict := [(.int 2, .str "low"), (.int 10, .str "high")]

def inOrder : PyDict := [(.int 2, .str "süß"), (.int 3, .str "high")]

theorem hexSigner_accepts : hexSigner.Accepts := resigning_accepts hexdigest_ascii

end Sample

theorem Hereditary.called {P : PyVal → Prop} (hP : Hereditary P) (limits : PyDict) :
    (∀ v ∈ (Sample.called limits).freeValues none none none, P v) ↔ P (.dict limits) := by
  have hnamed : Named ["limits"] [(.str "limits", .dict limits)] := .of_keys rfl
  have hparameters : P (.dict [(.str "limits", .dict limits)]) ↔ P (.dict limits) := by
    rw [hP.named hnamed (by decide)]
    simp
  change (∀ v ∈ [PyVal.str "search", .str "read", .dict [(.str "limits", .dict limits)], .none,
    .none, .none], P v) ↔ _
  simp [hP.str, hP.null, hparameters]

/-- Numbers as keys, with texts. -/
theorem numbers_floatFree {d : PyDict} (hkeys : ∀ e ∈ d, ∃ i, e.1 = .int i)
    (hn : (keysOf d).Pairwise fun k l => k.eq l = false) (hvalues : ∀ e ∈ d, ∃ s, e.2 = .str s) :
    FloatFree (.dict d) := by
  refine .dict ?_ hn fun e he => ?_
  · rintro k hk f rfl
    obtain ⟨e, he, hek⟩ := List.mem_map.mp hk
    obtain ⟨i, hi⟩ := hkeys e he
    cases hi.symm.trans hek
  · obtain ⟨s, hs⟩ := hvalues e he
    rw [hs]
    exact floatFree_hereditary.str s

theorem signature_survives_json_sample : ∃ r, Sample.signedCall Sample.inOrder = .ok r ∧
    r.verifiesBack Stdlib.blank Sample.noFloat (some 2) Sample.hexSigner = .ok true := by
  obtain ⟨r, hr⟩ : ∃ r, Sample.signedCall Sample.inOrder = .ok r :=
    finalize_signs _ rfl (by decide +kernel)
  have hfree : FloatFree (.dict Sample.inOrder) :=
    numbers_floatFree (by simp [Sample.inOrder]) (by decide +kernel) (by simp [Sample.inOrder])
  have hordered : TextOrdered Stdlib.blank (.dict Sample.inOrder) := by
    refine .dict (by decide +kernel) fun e he => ?_
    rcases List.mem_pair.mp he with rfl | rfl <;> exact .atom _
  refine ⟨r, hr, (signature_survives_json Sample.noFloat (some 2) Sample.hexSigner
    Sample.hexSigner_accepts hr ((floatFree_hereditary.called _).mpr hfree)).1 ?_⟩
  exact ((textOrdered_hereditary _).called _).mpr hordered

/-- Keys that are numbers come back as texts, which sort in another order. -/
theorem int_keys_break_signature : ∃ r, Sample.signedCall Sample.outOfOrder = .ok r ∧
    r.verifiesBack Stdlib.blank Sample.noFloat (some 2) Sample.hexSigner = .ok false := by
  obtain ⟨r, hr⟩ : ∃ r, Sample.signedCall Sample.outOfOrder = .ok r :=
    finalize_signs _ rfl (by decide +kernel)
  have hfree : FloatFree (.dict Sample.outOfOrder) :=
    numbers_floatFree (by simp [Sample.outOfOrder]) (by decide +kernel) (by simp [Sample.outOfOrder])
  obtain ⟨payload, payload', -, hback, hiff⟩ := verifiesBack_signed Sample.noFloat (some 2) hr
    ((floatFree_hereditary.called _).mpr hfree)
  have hne : payload' ≠ payload := by
    rw [ne_eq, hiff, (textOrdered_hereditary _).called]
    intro hordered
    cases hordered with | dict keys _ =>
    have h : leToken Stdlib.blank (.int 2, .str "low") (.int 10, .str "high") :=
      keys _ (by simp [Sample.outOfOrder]) _ (by simp [Sample.outOfOrder]) (by decide +kernel)
    exact absurd h (by decide +kernel)
  refine ⟨r, hr, hback.trans ?_⟩
  change compareDigest (hexdigest payload') (hexdigest payload) = _
  have hfalse : (hexdigest payload' == hexdigest payload) = false :=
    beq_eq_false_iff_ne.mpr fun h => hne (hexdigest_inj h)
  rw [compareDigest, if_pos ⟨hexdigest_ascii _, hexdigest_ascii _⟩, hfalse]

end

end Provenex
