import Provenex.Proofs.AuditCommand
import Provenex.Proofs.Gate

/-! `receipt`, and `audit` of what it has printed. What the SDK writes of its own has
string keys and no floats, so the text is read back to the mapping it was made from. -/

namespace Provenex

/-! ## Reading back -/

theorem jsonShaped_hereditary : Hereditary JsonShaped where
  null := .none
  bool := .bool
  int := .int
  str := .str
  list := jsonShaped_list
  dict := by
    intro d hs hn
    rw [jsonShaped_dict]
    have hstrings : ∀ e ∈ d, ∃ s, e.1 = .str s := fun e he => hs e.1 (List.mem_map_of_mem he)
    exact ⟨fun h => h.2.2, fun h => ⟨hstrings, hn, h⟩⟩

/-- Nothing is turned into another text. -/
theorem coerce_shaped {py : Stdlib} {v : PyVal} (h : JsonShaped v) : coerce py v = v := by
  induction h with
  | none => rfl
  | bool b => rfl
  | int i => rfl
  | str s => rfl
  | list _ ih =>
    rw [coerce, coerceList_eq, List.map_congr_left ih, List.map_id']
  | dict strings _ _ ih =>
    rw [coerce, coerceEntries_eq]
    refine congrArg _ ((List.map_congr_left fun e he => ?_).trans (List.map_id' _))
    obtain ⟨s, hs⟩ := strings e he
    rw [ih e he, hs, token, ← hs]

theorem shaped_floatFree {v : PyVal} (h : JsonShaped v) : FloatFree v := by
  induction h with
  | none => exact floatFree_hereditary.null
  | bool b => exact floatFree_hereditary.bool b
  | int i => exact floatFree_hereditary.int i
  | str s => exact floatFree_hereditary.str s
  | list _ ih => exact .list ih
  | dict strings nodup _ ih =>
    refine (floatFree_hereditary.dict (fun k hk => ?_) nodup).mpr ih
    obtain ⟨e, he, rfl⟩ := List.mem_map.mp hk
    exact strings e he

/-- Every mapping of such a value can be sorted. -/
theorem shaped_jsonable {v : PyVal} (h : JsonShaped v) (hw : writable v = true) :
    jsonable v = true := by
  induction h with
  | none | bool b | str s => rfl
  | int i => exact hw
  | list _ ih =>
    rw [writable, writableList_iff] at hw
    rw [jsonable, jsonableList_iff]
    exact fun x hx => ih x hx (hw x hx)
  | dict strings nodup values ih =>
    rw [writable, writableEntries_iff] at hw
    rw [jsonable_strKeys (JsonShaped.dict strings nodup values).strKeys]
    exact fun e he => ih e he (hw e he).2

section

variable {py : Stdlib} {b : ReceiptBuilder} {outputText : String} {log : Option PyDict}
  {trajectory : Option TrajectoryContext} {accessControl toolCallControl : Option ControlMetadata}
  {callerHash : Option String} {issue : Issue} {r : ProvenanceReceipt}

theorem finalize_shaped {signer : Option ReceiptSigner}
    (hfinal : b.finalize py outputText signer log trajectory accessControl toolCallControl callerHash
      issue = .ok r) (hfree : ∀ v ∈ b.freeValues log accessControl toolCallControl, JsonShaped v) :
    JsonShaped (.dict r.toDict) := by
  cases signer with
  | none =>
    have hunsigned : r.toDict = r.body := by
      obtain rfl := Except.ok.inj hfinal
      exact List.append_nil _
    rw [hunsigned, jsonShaped_hereditary.body hfinal]
    exact hfree
  | some signer =>
    obtain ⟨r₀, payload, hr₀, hbody, -, hs⟩ := finalize_signed hfinal
    rw [toDict_iff jsonShaped_hereditary.toStructural hs, hbody, jsonShaped_hereditary.body hr₀]
    exact hfree

/-- What was written can be written canonically. -/
theorem toJson_jsonable {indent : Option ℕ} {text : String} (h : JsonShaped (.dict r.toDict))
    (htext : r.toJson py indent = .ok text) : jsonable (.dict r.toDict) = true := by
  refine shaped_jsonable h ?_
  rw [ProvenanceReceipt.toJson, dumpsIndent] at htext
  split_ifs at htext with hw
  exact hw

theorem body_jsonable (h : jsonable (.dict r.toDict) = true) : jsonable (.dict r.body) = true := by
  rw [jsonable_strKeys (toDict_named r).strKeys, ProvenanceReceipt.toDict,
    List.forall_mem_append] at h
  exact (jsonable_strKeys (body_named r).strKeys).mpr h.1

/-- `json.loads(receipt.to_json())` -/
theorem loads_toJson (parseFloat : String → PyFloat) {indent : Option ℕ} {text : String}
    (h : JsonShaped (.dict r.toDict)) (htext : r.toJson py indent = .ok text) :
    loads parseFloat text = .ok (.dict r.toDict) := by
  obtain ⟨text', htext', hloads⟩ : ∃ text, dumpsIndent py indent (.dict r.toDict) = .ok text ∧
      loads parseFloat text = .ok (coerce py (.dict r.toDict)) :=
    loads_dumpsIndent indent (shaped_floatFree h) (toJson_jsonable h htext)
  obtain rfl := Except.ok.inj (htext.symm.trans htext')
  rwa [coerce_shaped h] at hloads

/-- What is checked is the signature on the receipt, over the payload it was made for. -/
theorem verify_written {signer : VerifyingSigner} {value : String} {payload : Bytes}
    (h : JsonShaped (.dict r.toDict)) (hs : r.signature = some (signer.algorithm, value))
    (hpayload : r.canonicalPayload py = .ok payload) :
    verifyReceiptSignature py r.toDict signer = signer.verify payload (.str value) := by
  have hbody : JsonShaped (.dict r.body) := (toDict_iff jsonShaped_hereditary.toStructural hs).mp h
  have hsame : coerceEntries py r.toDict = r.toDict := PyVal.dict.inj (coerce_shaped h)
  have hverify : verifyReceiptSignature py (coerceEntries py r.toDict) signer =
      canonicalBytes py (coerce py (.dict r.body)) >>= fun payload =>
        signer.verify payload (.str value) := verify_loaded hs rfl
  rw [hsame, coerce_shaped hbody] at hverify
  have hcanonical : canonicalBytes py (.dict r.body) = .ok payload := hpayload
  rw [hverify, hcanonical]
  rfl

/-- Under another key of the same algorithm, the digests are compared. -/
theorem verify_key {key key' payload : Bytes} (h : JsonShaped (.dict r.toDict))
    (hs : r.signature = some ("hmac-sha256", hexdigest (py.hmacSha256 key payload)))
    (hpayload : r.canonicalPayload py = .ok payload) :
    verifyReceiptSignature py r.toDict (hmacSha256Signer py key').resigning =
      .ok (decide (py.hmacSha256 key payload = py.hmacSha256 key' payload)) := by
  rw [verify_written h hs hpayload]
  by_cases hsame : py.hmacSha256 key payload = py.hmacSha256 key' payload
  · have hascii : ∀ payload, isAscii ((hmacSha256Signer py key').sign payload) = true :=
      fun payload => hexdigest_ascii (py.hmacSha256 key' payload)
    rw [decide_eq_true hsame, hsame]
    exact resigning_accepts hascii payload
  · rw [decide_eq_false hsame]
    have hne : hexdigest (py.hmacSha256 key' payload) ≠ hexdigest (py.hmacSha256 key payload) :=
      fun heq => hsame (hexdigest_inj heq).symm
    change compareDigest (hexdigest (py.hmacSha256 key' payload))
      (hexdigest (py.hmacSha256 key payload)) = _
    rw [compareDigest, if_pos ⟨hexdigest_ascii _, hexdigest_ascii _⟩, beq_eq_false_iff_ne.mpr hne]

theorem ProvenanceReceipt.get_signature (r : ProvenanceReceipt) : getOrNone r.toDict "signature" =
    orNull (fun s => .dict (signatureBlock s.1 s.2)) r.signature := by
  have hmissing : ∀ e ∈ r.body, e.1.eq (.str "signature") = false := (body_named r).missing (by decide)
  have hfind : getKey r.body "signature" = none := by
    rw [getKey, dictGet, List.find?_eq_none.mpr fun e he => by simp [hmissing e he]]
    rfl
  rw [getOrNone, toDict, getKey_append, hfind, Option.none_or]
  exact getD_optional

end

/-! ## The command -/

namespace Cli

open Guard

section

variable {py : Stdlib} {env : Environment} {secret : Bytes} {plan : Sqlite.QueryPlan}
  {tables : Sqlite.Tables} {issue : Issue} {args : ReceiptArgs}

/-- The source that stands for a file with a chunk: its fingerprint, and what the index knows. -/
def Sourced (py : Stdlib) (secret : Bytes) (plan : Sqlite.QueryPlan) (tables : Sqlite.Tables)
    (file : File) (s : SourceRecord) : Prop :=
  ∃ text, file.text = .ok text ∧
    s.fingerprint = Fingerprinter.default.fingerprintChunk py text ∧
    Sqlite.verify py secret plan (.commit tables) s.fingerprint = .ok s.verificationOutcome ∧
    s.documentId = (Sqlite.lookup plan (.commit tables) s.fingerprint).map (·.documentId)

/-- What the loop over the chunks has built. -/
structure Building (py : Stdlib) (secret : Bytes) (plan : Sqlite.QueryPlan) (tables : Sqlite.Tables)
    (done : List File) (b : ReceiptBuilder) : Prop where
  sources : List.Forall₂ (Sourced py secret plan tables) done b.sources
  indexed : b.sources.map (·.chunkIndex) = List.range b.sources.length
  bare : ∀ s ∈ b.sources, s.inclusionProof = none ∧ s.claims = none
  actions : b.actions = []

theorem addChunkSource_building {done : List File} {b b' : ReceiptBuilder} {file : File}
    (hb : Building py secret plan tables done b)
    (h : addChunkSource py secret plan (.commit tables) b file = .ok b') :
    Building py secret plan tables (done ++ [file]) b' := by
  obtain ⟨text, htext, h⟩ := bind_ok.mp h
  obtain ⟨outcome, houtcome, h⟩ := bind_ok.mp h
  obtain ⟨result, -, h⟩ := bind_ok.mp h
  obtain rfl := Except.ok.inj h
  constructor
  · exact List.rel_append hb.sources (.cons ⟨text, htext, rfl, houtcome, rfl⟩ .nil)
  · simp only [ReceiptBuilder.addSource, List.map_append, hb.indexed, List.map_cons, List.map_nil,
      List.length_append, List.length_singleton, List.range_succ]
  · intro s hs
    rcases List.mem_append.mp hs with hs | hs
    · exact hb.bare s hs
    · obtain rfl := List.mem_singleton.mp hs
      exact ⟨rfl, rfl⟩
  · exact hb.actions

theorem foldlM_building {files done : List File} {b b' : ReceiptBuilder}
    (hb : Building py secret plan tables done b)
    (h : files.foldlM (addChunkSource py secret plan (.commit tables)) b = .ok b') :
    Building py secret plan tables (done ++ files) b' := by
  induction files generalizing done b with
  | nil =>
    obtain rfl := Except.ok.inj h
    rwa [List.append_nil]
  | cons file files ih =>
    rw [List.foldlM_cons] at h
    obtain ⟨mid, hmid, h⟩ := bind_ok.mp h
    have hrest := ih (addChunkSource_building hb hmid) h
    rwa [List.append_assoc, List.singleton_append] at hrest

theorem building_init : Building py secret plan tables [] (.init .default) where
  sources := .nil
  indexed := rfl
  bare := by
    intro s hs
    cases hs
  actions := rfl

theorem Building.shaped {done : List File} {b : ReceiptBuilder}
    (hb : Building py secret plan tables done b) : ∀ v ∈ b.freeValues none none none, JsonShaped v := by
  have hsources : b.sources.flatMap (·.freeValues) = [] := by
    rw [List.flatMap_eq_nil_iff]
    intro s hs
    rw [SourceRecord.freeValues, (hb.bare s hs).2, Option.getD_none, List.map_nil]
  intro v hv
  rw [ReceiptBuilder.freeValues, hsources, hb.actions] at hv
  obtain rfl : v = .none := by simpa [decisionValues, orNull] using hv
  exact .none

/-- What `receipt` prints when it succeeds. -/
theorem cmdReceipt_ok {exit : Exit} (h : cmdReceipt py env plan issue tables args = .ok exit) :
    ∃ secret b signer outputText r text, env.resolveIndexSecret = .ok secret ∧
      Building py secret plan tables args.chunkFiles b ∧ receiptSigner py env = .ok signer ∧
      b.finalize py outputText signer none none none none none issue = .ok r ∧
      r.toJson py (some 2) = .ok text ∧ exit = ⟨0, [text]⟩ := by
  obtain ⟨secret, hsecret, h⟩ := bind_ok.mp h
  obtain ⟨b, hb, h⟩ := bind_ok.mp h
  obtain ⟨outputText, -, h⟩ := bind_ok.mp h
  obtain ⟨signer, hsigner, h⟩ := bind_ok.mp h
  obtain ⟨r, hr, h⟩ := bind_ok.mp h
  obtain ⟨text, htext, h⟩ := bind_ok.mp h
  exact ⟨secret, b, signer, outputText, r, text, hsecret,
    foldlM_building building_init (mapError_ok.mp hb), hsigner, mapError_ok.mp hr, mapError_ok.mp htext,
    (Except.ok.inj h).symm⟩

/-! ## The audit of what it printed -/

/-- The key of the signatures, where `receipt` signs and `audit` verifies. -/
def Environment.signingKey (env : Environment) : Option Bytes :=
  (isSet env.signingSecret).map fun s => encodeUtf8 ((isSet env.receiptSecret).getD s)

theorem resolveReceiptSecret_set {s : String} (h : isSet env.signingSecret = some s) :
    env.resolveReceiptSecret = .ok (encodeUtf8 ((isSet env.receiptSecret).getD s)) := by
  unfold Environment.resolveReceiptSecret firstSecret
  rw [h]
  cases isSet env.receiptSecret <;> rfl

theorem receiptSigner_eq : receiptSigner py env = .ok (env.signingKey.map (hmacSha256Signer py)) := by
  unfold receiptSigner Environment.signingKey
  cases h : isSet env.signingSecret with
  | none => rfl
  | some s =>
    rw [resolveReceiptSecret_set h]
    rfl

/-- Whether `audit` under `env'` takes the signature that `receipt` made under `env`. -/
def taken (py : Stdlib) (env env' : Environment) (publicKey : Option PublicKey) (unsigned : Bool)
    (payload : Bytes) : Bool :=
  match env.signingKey with
  | none => unsigned
  | some key =>
    publicKey.isNone &&
      match env'.signingKey with
      | none => unsigned
      | some key' => py.hmacSha256 key payload = py.hmacSha256 key' payload

section

variable (env' : Environment) (audit : AuditArgs) {receipt : PyDict}

theorem auditSignature_none (h : getOrNone receipt "signature" = .none) :
    ∃ msg, auditSignature py env' audit receipt = .ok (audit.unsigned, msg) := by
  unfold auditSignature
  rw [h, if_pos (by simp [PyVal.truthy])]
  cases audit.unsigned <;> exact ⟨_, rfl⟩

theorem auditSignature_hmac {value : String}
    (h : getOrNone receipt "signature" = .dict (signatureBlock "hmac-sha256" value)) (ok : Bool)
    (hverify : ∀ key', env'.signingKey = some key' →
      verifyReceiptSignature py receipt (hmacSha256Signer py key').resigning = .ok ok) :
    ∃ msg, auditSignature py env' audit receipt =
      .ok (audit.publicKey.isNone && if env'.signingKey.isSome then ok else audit.unsigned, msg) := by
  have halg : getOrNone (signatureBlock "hmac-sha256" value) "algorithm" = .str "hmac-sha256" := rfl
  have hne : ¬ (PyVal.str "hmac-sha256").eq (.str "ed25519") = true := by decide
  have heq : ¬ ¬ (PyVal.str "hmac-sha256").eq (.str "hmac-sha256") = true := by decide
  unfold auditSignature
  rw [h, if_neg (by simp [PyVal.truthy, signatureBlock])]
  simp only [asMapping, bind, Except.bind, halg]
  rcases hpublic : audit.publicKey with _ | key
  swap
  · rcases key with _ | _ | verifies
    · exact ⟨_, rfl⟩
    · exact ⟨_, rfl⟩
    · dsimp only
      rw [if_pos hne]
      exact ⟨_, rfl⟩
  · cases hset : isSet env'.signingSecret with
    | none =>
      rw [Environment.signingKey, hset]
      cases audit.unsigned <;> exact ⟨_, rfl⟩
    | some s =>
      have hkey : env'.signingKey = some (encodeUtf8 ((isSet env'.receiptSecret).getD s)) := by
        rw [Environment.signingKey, hset]
        rfl
      rw [resolveReceiptSecret_set hset]
      dsimp only
      rw [if_neg heq, hverify _ hkey, hkey]
      exact ⟨_, rfl⟩

/-! ## Both -/

/-- The sources have no proofs, so there is nothing to audit. -/
theorem auditInclusionProofs_bare {reprExc : PyErr → String} {r : ProvenanceReceipt}
    (hbare : ∀ s ∈ r.sources, s.inclusionProof = none) :
    r.transparencyLog = none → auditInclusionProofs py reprExc r.toDict = .ok [] := by
  intro hlog
  have hdicts : r.sources.map (fun s => PyVal.dict s.toDict) =
      (r.sources.map SourceRecord.toDict).map .dict := by
    rw [List.map_map]
    rfl
  have horElse (xs : List PyVal) : (PyVal.list xs).orElse (.list []) = .list xs := by
    cases xs <;> rfl
  have hget {s : SourceRecord} (hs : s.inclusionProof = none) :
      getOrNone s.toDict "inclusion_proof" = .none := by
    have hitem : getKey (optionalItem "inclusion_proof" (orNull strList s.inclusionProof))
        "inclusion_proof" = none := by
      rw [hs]
      rfl
    simp [getOrNone, SourceRecord.toDict, getKey_append, getKey_cons, getKey_optionalItem, hitem]
  obtain ⟨out, hout, hmem⟩ := auditSources_mem py reprExc .none .none 0
    (r.sources.map SourceRecord.toDict)
  have hempty : out = [] := by
    rw [List.eq_nil_iff_forall_not_mem]
    intro x hx
    obtain ⟨j, source, hj, -, haudit⟩ := (hmem x).mp hx
    obtain ⟨s, hs, rfl⟩ := List.mem_map.mp (List.mem_of_getElem? hj)
    simp only [auditSource, asMapping, hget (hbare s hs), bind, Except.bind] at haudit
    cases haudit
  rw [auditInclusionProofs, r.get_transparencyLog, hlog, r.get_sources, hdicts, horElse, ← hempty]
  exact hout

end

theorem finalize_signature {b : ReceiptBuilder} {signer : Option ReceiptSigner} {outputText : String}
    {r : ProvenanceReceipt} (hsigner : receiptSigner py env = .ok signer)
    (hfinal : b.finalize py outputText signer none none none none none issue = .ok r)
    (hj : jsonable (.dict r.body) = true) :
    ∃ payload, r.canonicalPayload py = .ok payload ∧
      r.signature = env.signingKey.map fun key =>
        ("hmac-sha256", hexdigest (py.hmacSha256 key payload)) := by
  rw [receiptSigner_eq, Except.ok.injEq] at hsigner
  cases hkey : env.signingKey with
  | none =>
    rw [hkey] at hsigner
    obtain rfl : none = signer := hsigner
    obtain rfl := Except.ok.inj hfinal
    exact ⟨_, canonicalBytes_eq.mpr ⟨hj, rfl⟩, rfl⟩
  | some key =>
    rw [hkey] at hsigner
    obtain rfl : some (hmacSha256Signer py key) = signer := hsigner
    obtain ⟨r₀, payload, -, -, hpayload, hs⟩ := finalize_signed hfinal
    exact ⟨payload, hpayload, hs⟩

theorem auditSignature_own (env' : Environment) (audit : AuditArgs) {r : ProvenanceReceipt}
    {payload : Bytes} (hshaped : JsonShaped (.dict r.toDict))
    (hpayload : r.canonicalPayload py = .ok payload)
    (hsignature : r.signature = env.signingKey.map fun key =>
      ("hmac-sha256", hexdigest (py.hmacSha256 key payload))) :
    ∃ msg, auditSignature py env' audit r.toDict =
      .ok (taken py env env' audit.publicKey audit.unsigned payload, msg) := by
  have hget := r.get_signature
  rw [hsignature] at hget
  unfold taken
  cases hkey : env.signingKey with
  | none =>
    rw [hkey] at hget
    exact auditSignature_none env' audit hget
  | some key =>
    rw [hkey] at hget hsignature
    cases hkey' : env'.signingKey with
    | none =>
      obtain ⟨msg, haudit⟩ := auditSignature_hmac env' audit hget true (by simp [hkey'])
      rw [hkey'] at haudit
      exact ⟨msg, haudit⟩
    | some key' =>
      have hverify (key'' : Bytes) (hkey'' : env'.signingKey = some key'') :
          verifyReceiptSignature py r.toDict (hmacSha256Signer py key'').resigning =
            .ok (decide (py.hmacSha256 key payload = py.hmacSha256 key' payload)) := by
        obtain rfl := Option.some.inj (hkey'.symm.trans hkey'')
        exact verify_key hshaped hsignature hpayload
      obtain ⟨msg, haudit⟩ := auditSignature_hmac env' audit hget _ hverify
      rw [hkey'] at haudit
      exact ⟨msg, haudit⟩

/-- The receipt that `receipt` prints has one source for each file, in their order, with what the
index says of it; read back, it is what was signed, and `audit` takes it under every environment
where the key is that of the signature, and no proof is missing or wrong. -/
theorem own_receipt_audits (py : Stdlib) (env : Environment) (plan : Sqlite.QueryPlan)
    (issue : Issue) (tables : Sqlite.Tables) (args : ReceiptArgs) (exit : Exit)
    (h : cmdReceipt py env plan issue tables args = .ok exit) :
    ∃ (secret : Bytes) (r : ProvenanceReceipt) (text : String) (payload : Bytes),
      env.resolveIndexSecret = .ok secret ∧ exit = ⟨0, [text]⟩ ∧
      List.Forall₂ (Sourced py secret plan tables) args.chunkFiles r.sources ∧
      r.sources.map (·.chunkIndex) = List.range args.chunkFiles.length ∧
      r.canonicalPayload py = .ok payload ∧
      ∀ parseFloat, loads parseFloat text = .ok (.dict r.toDict) ∧
        ∀ reprExc addFloat env' publicKey unsigned path,
          cmdAudit py env' reprExc parseFloat addFloat
              ⟨publicKey, unsigned, some ⟨path, .ok text⟩, none⟩ =
            .ok (if taken py env env' publicKey unsigned payload then 0 else 1) := by
  obtain ⟨secret, b, signer, outputText, r, text, hsecret, hb, hsigner, hfinal, htext, rfl⟩ :=
    cmdReceipt_ok h
  have hshaped := finalize_shaped hfinal hb.shaped
  have hloads (parseFloat : String → PyFloat) := loads_toJson parseFloat hshaped htext
  have hbody : jsonable (.dict r.body) = true := body_jsonable (toJson_jsonable hshaped htext)
  have hsources : r.sources = b.sources := (finalize_ok hfinal).sources
  obtain ⟨payload, hpayload, hsignature⟩ := finalize_signature hsigner hfinal hbody
  refine ⟨secret, r, text, payload, hsecret, rfl, hsources ▸ hb.sources, ?_, hpayload, ?_⟩
  · rw [hsources, hb.indexed, hb.sources.length_eq]
  intro parseFloat
  refine ⟨hloads parseFloat, fun reprExc addFloat env' publicKey unsigned path => ?_⟩
  have hproofs : auditInclusionProofs py reprExc r.toDict = .ok [] := by
    obtain ⟨r₀, value, hr₀, hr⟩ := finalize_unsigned hfinal
    refine auditInclusionProofs_bare (fun s hs => (hb.bare s (hsources ▸ hs)).1) ?_
    rw [hr]
    obtain rfl := Except.ok.inj hr₀
    rfl
  obtain ⟨msg, haudit⟩ := auditSignature_own env'
    ⟨publicKey, unsigned, some ⟨path, .ok text⟩, none⟩ hshaped hpayload hsignature
  simp only [cmdAudit, auditFile, hloads, bind, Except.bind, asMapping, auditReceipt, haudit, hproofs,
    Except.map, ReceiptReport.ok, List.all_nil, Bool.and_true]

end

/-! The receipt of one file, of a text that was not ingested, signed under the key `k`. -/

namespace Sample

open Provenex.Sample (gatePlan)

def receiptDigests : List (Bytes × Bytes) :=
  [(encodeUtf8 "a",
      [202, 151, 129, 18, 202, 27, 189, 202, 250, 194, 49, 179, 154, 35, 220, 77, 167, 134, 239, 248, 20,
       124, 78, 114, 185, 128, 119, 133, 175, 238, 72, 187]),
    ([],
      [227, 176, 196, 66, 152, 252, 28, 20, 154, 251, 244, 200, 153, 111, 185, 36, 39, 174, 65, 228, 100,
       155, 147, 76, 164, 149, 153, 27, 120, 82, 184, 85])]

/-- The digests of the payload under two keys. -/
def receiptMacs : List (Bytes × Bytes) :=
  [(encodeUtf8 "k",
      [88, 247, 192, 78, 174, 225, 106, 225, 129, 83, 74, 123, 52, 207, 38, 199, 42, 244, 12, 170, 145, 25,
       161, 53, 159, 145, 154, 118, 5, 147, 148, 201]),
    (encodeUtf8 "l",
      [70, 237, 32, 12, 57, 117, 216, 188, 83, 20, 61, 208, 101, 29, 126, 69, 122, 235, 15, 54, 211, 148,
       187, 224, 52, 180, 59, 204, 146, 131, 252, 169])]

def receiptPy : Stdlib :=
  { Stdlib.blank with
    sha256 := fun b => (receiptDigests.lookup b).getD []
    hmacSha256 := fun key _ => (receiptMacs.lookup key).getD [] }

def otherAuditor : Environment := ⟨none, some "l", some "k"⟩

def oneChunk : ReceiptArgs := ⟨[⟨"chunk.txt", .ok "a"⟩], none⟩

def oneIssue : Issue := ⟨"rcpt-1", "2024-01-01T00:00:00.000Z"⟩

theorem oneChunk_printed : ∃ exit, cmdReceipt receiptPy auditor gatePlan oneIssue ⟨[], []⟩ oneChunk =
    .ok exit := by
  have hok : (cmdReceipt receiptPy auditor gatePlan oneIssue ⟨[], []⟩ oneChunk).isOk = true := by
    decide +kernel
  cases h : cmdReceipt receiptPy auditor gatePlan oneIssue ⟨[], []⟩ oneChunk with
  | error e =>
    rw [h] at hok
    cases hok
  | ok exit => exact ⟨exit, rfl⟩

end Sample

open Provenex.Cli.Sample Provenex.Sample in
theorem own_receipt_audits_sample : ∃ text,
    cmdReceipt receiptPy auditor gatePlan oneIssue ⟨[], []⟩ oneChunk = .ok ⟨0, [text]⟩ ∧
    cmdAudit receiptPy auditor reprExc noFloat (fun _ _ => .ok .nan)
      (auditOf ⟨"receipt.json", .ok text⟩) = .ok 0 ∧
    cmdAudit receiptPy otherAuditor reprExc noFloat (fun _ _ => .ok .nan)
      (auditOf ⟨"receipt.json", .ok text⟩) = .ok 1 := by
  obtain ⟨exit, hexit⟩ := oneChunk_printed
  obtain ⟨secret, r, text, payload, -, rfl, -, -, -, haudits⟩ :=
    own_receipt_audits receiptPy auditor gatePlan oneIssue ⟨[], []⟩ oneChunk exit hexit
  have haudit := (haudits noFloat).2 reprExc fun _ _ => .ok .nan
  exact ⟨text, hexit, haudit auditor none false "receipt.json",
    haudit otherAuditor none false "receipt.json"⟩

end Cli

end Provenex
