import Provenex.Index.Sqlite
import Provenex.Integrations.Retrieval

/-! What the verifier gates: the four lists its loop builds stay aligned, chunk
by chunk, and the loops of the two retrieval wrappers gate as it does. -/

namespace Provenex

open Effect

/-! ## One chunk -/

/-- What a turn of the loop finds out about its text. -/
structure ChunkVerdict where
  fingerprint : String
  outcome : VerificationOutcome
  entry : Option IndexEntry
  normalizationApplied : List String
  decision : Option PolicyDecision

namespace ChunkVerdict

/-- One of the two gates blocks the chunk. -/
def blocks (policy : VerificationPolicy) (v : ChunkVerdict) : Bool :=
  policy.shouldBlock v.outcome || v.decision.any fun d => d.decision ≠ .allow

/-- The record of the chunk on the receipt. -/
def record (contentSource : Option String) (i : ℕ) (v : ChunkVerdict) : SourceRecord where
  chunkIndex := i
  fingerprint := v.fingerprint
  documentId := v.entry.map (·.documentId)
  documentVersion := v.entry.map (·.documentVersion)
  ingestedAt := v.entry.map (·.ingestedAt)
  chunkOffset := v.entry.map (·.chunkOffset)
  chunkLength := v.entry.map (·.chunkLength)
  authorized := v.entry.map (·.authorized)
  verificationOutcome := v.outcome
  normalizationApplied := v.normalizationApplied
  leafIndex := none
  inclusionProof := none
  claims := none
  contentSource := contentSource

/-- The entry that a decision on the chunk leaves on the receipt. -/
def decisionEntry (binding : String) (v : ChunkVerdict) (d : PolicyDecision) : PyDict :=
  PolicyDecision.toDict { d with metadataBinding := some (chunkBinding binding) } v.fingerprint

end ChunkVerdict

/-- The context in which the policy decides on a chunk. -/
def ChunkVerdict.context (args : VerifyArgs) (i : ℕ) (v : ChunkVerdict) : ChunkContext :=
  buildChunkContext v.fingerprint v.entry (args.chunkMetadata.bind fun ms => ms[i]?)

section

variable {σ : Type} {py : Stdlib} {index : ProvenanceIndex σ} {policy : Policy}
  {fp : Fingerprinter} {args : VerifyArgs}

/-- The verdict on a text and its position, by an index in this state. -/
structure Judged (py : Stdlib) (index : ProvenanceIndex σ) (policy : Policy) (fp : Fingerprinter)
    (args : VerifyArgs) (s : σ) (item : String × ℕ) (v : ChunkVerdict) : Prop where
  fingerprint : v.fingerprint = fp.fingerprintChunk py item.1
  outcome : index.verify v.fingerprint s = .ok v.outcome s
  entry : index.lookup v.fingerprint s = .ok v.entry s
  normalization : ∃ r, fp.fingerprint py item.1 = .ok r ∧
    v.normalizationApplied = r.normalizationApplied
  configured : ∀ evaluator, policy.accessControl = some evaluator → ∃ request d,
    args.requestContext = some request ∧ v.decision = some d ∧
      evaluator.evaluate (v.context args item.2) request = .ok d
  unconfigured : policy.accessControl = none → v.decision = none

/-- The accumulators after one more chunk. -/
def Gathered.after (acc : Gathered) (policy : VerificationPolicy) (args : VerifyArgs)
    (text : String) (v : ChunkVerdict) : Gathered :=
  Gathered.place {
    builder := { acc.builder with
      sources := acc.builder.sources ++ [v.record args.contentSource acc.builder.sources.length] }
    kept := acc.kept
    blocked := acc.blocked
    policyDecisions := acc.policyDecisions ++
      (v.decision.map (v.decisionEntry args.chunkMetadataBinding)).toList } text (v.blocks policy)

theorem verifyChunk_ok (hread : index.ReadOnly)
    (hrequest : policy.accessControl.isSome → args.requestContext.isSome) {acc acc' : Gathered}
    {item : String × ℕ} {s s' : σ}
    (h : verifyChunk py index policy fp args acc item s = .ok acc' s') :
    s' = s ∧ ∃ v, Judged py index policy fp args s item v ∧
      acc' = acc.after policy.verification args item.1 v := by
  rw [verifyChunk, bind_ok] at h
  obtain ⟨outcome, u, hverify, h⟩ := h
  obtain rfl := (hread _ _).1 _ _ hverify
  rw [bind_ok] at h
  obtain ⟨entry, u, hlookup, h⟩ := h
  obtain rfl := (hread _ _).2 _ _ hlookup
  rw [bind_ok] at h
  obtain ⟨result, u', hlift, h⟩ := h
  obtain ⟨hfp, rfl⟩ := lift_ok.mp hlift
  cases hac : policy.accessControl with
  | none =>
    simp only [hac] at h
    obtain ⟨rfl, rfl⟩ := pure_ok.mp h
    refine ⟨rfl, ⟨fp.fingerprintChunk py item.1, outcome, entry, result.normalizationApplied, none⟩,
      ?_, ?_⟩
    · exact ⟨rfl, hverify, hlookup, ⟨result, hfp, rfl⟩, by simp [hac], fun _ => rfl⟩
    · simp [Gathered.after, ChunkVerdict.blocks, ReceiptBuilder.addSource, ChunkVerdict.record]
  | some evaluator =>
    obtain ⟨request, hreq⟩ := Option.isSome_iff_exists.mp (hrequest (by rw [hac]; rfl))
    simp only [hac, hreq] at h
    rw [bind_ok] at h
    obtain ⟨d, u', hlift', h⟩ := h
    obtain ⟨hd, rfl⟩ := lift_ok.mp hlift'
    obtain ⟨rfl, rfl⟩ := pure_ok.mp h
    refine ⟨rfl, ⟨fp.fingerprintChunk py item.1, outcome, entry, result.normalizationApplied,
      some d⟩, ?_, ?_⟩
    · refine ⟨rfl, hverify, hlookup, ⟨result, hfp, rfl⟩, ?_, by simp [hac]⟩
      rintro _ hev
      obtain rfl := Option.some.inj (hac.symm.trans hev)
      exact ⟨request, d, hreq, rfl, hd⟩
    · simp [Gathered.after, ChunkVerdict.blocks, ReceiptBuilder.addSource, ChunkVerdict.record,
        ChunkVerdict.decisionEntry]

/-! ## The loop -/

/-- The accumulators, from the verdicts on the chunks passed. -/
structure Aligned (policy : VerificationPolicy) (args : VerifyArgs) (texts : List String)
    (vs : List ChunkVerdict) (acc : Gathered) : Prop where
  length : texts.length = vs.length
  sources : acc.builder.sources = vs.mapIdx fun i v => v.record args.contentSource i
  kept : acc.kept = select false texts (vs.map (·.blocks policy))
  blocked : acc.blocked = select true texts (vs.map (·.blocks policy))
  decisions : acc.policyDecisions =
    vs.filterMap fun v => v.decision.map (v.decisionEntry args.chunkMetadataBinding)

theorem Aligned.after {policy : VerificationPolicy} {texts : List String} {vs : List ChunkVerdict}
    {acc : Gathered} (h : Aligned policy args texts vs acc) (text : String) (v : ChunkVerdict) :
    Aligned policy args (texts ++ [text]) (vs ++ [v]) (acc.after policy args text v) := by
  have hlen : acc.builder.sources.length = vs.length := by rw [h.sources, List.length_mapIdx]
  have hmarks : texts.length = (vs.map (·.blocks policy)).length := by
    rw [List.length_map, h.length]
  refine ⟨?_, ?_, ?_, ?_, ?_⟩
  · simp [h.length]
  · unfold Gathered.after Gathered.place
    split_ifs <;> simp [h.sources, List.mapIdx_append]
  · rw [List.map_append, List.map_singleton, select_snoc hmarks, ← h.kept]
    unfold Gathered.after Gathered.place
    cases v.blocks policy <;> simp
  · rw [List.map_append, List.map_singleton, select_snoc hmarks, ← h.blocked]
    unfold Gathered.after Gathered.place
    cases v.blocks policy <;> simp
  · rw [List.filterMap_append, ← h.decisions]
    unfold Gathered.after Gathered.place
    cases hd : v.decision <;> split_ifs <;> simp [hd]

/-- The loop over the chunks builds its lists from the verdicts, and only reads the index. -/
theorem verifyLoop_ok (hread : index.ReadOnly)
    (hrequest : policy.accessControl.isSome → args.requestContext.isSome) {items : List (String × ℕ)}
    {acc : Gathered} {s s' : σ}
    (h : forEach items (.init policy.verification) (verifyChunk py index policy fp args) s =
      .ok acc s') :
    s' = s ∧ ∃ vs, List.Forall₂ (Judged py index policy fp args s) items vs ∧
      Aligned policy.verification args (items.map Prod.fst) vs acc := by
  refine forEach_invariant (fun done acc u => u = s ∧ ∃ vs,
    List.Forall₂ (Judged py index policy fp args s) done vs ∧
      Aligned policy.verification args (done.map Prod.fst) vs acc) ?_ items [] _ acc s s' ?_ h
  · rintro done acc u item acc' u' ⟨rfl, vs, hvs, hacc⟩ hturn
    obtain ⟨rfl, v, hv, rfl⟩ := verifyChunk_ok hread hrequest hturn
    refine ⟨rfl, vs ++ [v], List.rel_append hvs (.cons hv .nil), ?_⟩
    rw [List.map_append]
    exact hacc.after item.1 v
  · exact ⟨rfl, [], .nil, rfl, rfl, rfl, rfl, rfl⟩

/-! ## The call -/

theorem checkVerifyArgs_ok {texts : List String} {u : Unit}
    (h : checkVerifyArgs py policy args texts = .ok u) :
    policy.accessControl.isSome → args.requestContext.isSome := by
  rw [checkVerifyArgs, Guard.bind_ok] at h
  obtain ⟨_, h, _⟩ := h
  have hraise := (Guard.raiseIf_ok _ _ _).mp h
  intro hac
  rw [Option.isSome_iff_ne_none]
  intro hnone
  exact hraise ⟨hac, by rw [hnone]; rfl⟩

/-- The parts of a receipt that are what the builder holds, or was given. -/
structure Finalized (b : ReceiptBuilder) (trajectory : Option TrajectoryContext)
    (accessControl toolCallControl : Option ControlMetadata) (r : ProvenanceReceipt) : Prop where
  sources : r.sources = b.sources
  actions : r.actions = b.actions
  policy : r.policy = b.policy
  trajectory : r.trajectory = trajectory.map (·.toDict)
  accessControl : r.accessControl = accessControl
  toolCallControl : r.toolCallControl = toolCallControl

/-- The receipt is the one that is left unsigned, with its signature. -/
theorem finalize_unsigned {b : ReceiptBuilder} {outputText : String} {signer : Option ReceiptSigner}
    {log : Option PyDict} {trajectory : Option TrajectoryContext}
    {accessControl toolCallControl : Option ControlMetadata} {callerHash : Option String}
    {issue : Issue} {r : ProvenanceReceipt}
    (h : b.finalize py outputText signer log trajectory accessControl toolCallControl callerHash
      issue = .ok r) :
    ∃ r₀ value, b.finalize py outputText none log trajectory accessControl toolCallControl callerHash
        issue = .ok r₀ ∧
      r = { r₀ with signature := signer.map fun s => (s.algorithm, value) } := by
  cases signer with
  | none =>
    obtain rfl := Except.ok.inj h
    exact ⟨_, "", rfl, rfl⟩
  | some signer =>
    obtain ⟨payload, -, rfl⟩ := Guard.map_ok.mp h
    exact ⟨_, signer.sign payload, rfl, rfl⟩

theorem finalize_ok {b : ReceiptBuilder} {outputText : String} {signer : Option ReceiptSigner}
    {log : Option PyDict} {trajectory : Option TrajectoryContext}
    {accessControl toolCallControl : Option ControlMetadata} {callerHash : Option String}
    {issue : Issue} {r : ProvenanceReceipt}
    (h : b.finalize py outputText signer log trajectory accessControl toolCallControl callerHash
      issue = .ok r) :
    Finalized b trajectory accessControl toolCallControl r := by
  obtain ⟨r₀, value, hr₀, rfl⟩ := finalize_unsigned h
  obtain rfl := Except.ok.inj hr₀
  exact ⟨rfl, rfl, rfl, rfl, rfl, rfl⟩

/-- What the call hands back, from what the loop gathered. -/
structure Emitted (py : Stdlib) (policy : Policy) (args : VerifyArgs) (gathered : Gathered)
    (issue : Issue) (out : VerifiedChunks) : Prop where
  kept : out.kept = gathered.kept
  blocked : out.blocked = gathered.blocked
  receipt : ∃ callerHash, gathered.builder.finalize py args.outputText args.signer none
    (emitTrajectory args.trajectory args.stepKind args.agentId
      (args.requestContext.bind (·.sessionId)))
    (policy.accessControl.map fun evaluator =>
      buildAccessControlMetadata evaluator gathered.policyDecisions) none callerHash issue =
    .ok out.receipt
  next : advance args.trajectory out.receipt.receiptId args.agentId
    (args.requestContext.bind (·.sessionId)) = .ok out.nextTrajectory

theorem emitReceipt_ok {gathered : Gathered} {issue : Issue} {out : VerifiedChunks}
    (h : emitReceipt py policy args gathered issue = .ok out) :
    Emitted py policy args gathered issue out := by
  obtain ⟨callerHash, -, h⟩ := Guard.bind_ok.mp h
  obtain ⟨receipt, hreceipt, h⟩ := Guard.bind_ok.mp h
  obtain ⟨next, hnext, h⟩ := Guard.bind_ok.mp h
  obtain rfl := Except.ok.inj h
  exact ⟨rfl, rfl, ⟨callerHash, hreceipt⟩, hnext⟩

theorem Emitted.finalized {gathered : Gathered} {issue : Issue} {out : VerifiedChunks}
    (h : Emitted py policy args gathered issue out) :
    Finalized gathered.builder (emitTrajectory args.trajectory args.stepKind args.agentId
        (args.requestContext.bind (·.sessionId)))
      (policy.accessControl.map fun evaluator =>
        buildAccessControlMetadata evaluator gathered.policyDecisions) none out.receipt :=
  h.receipt.elim fun _ hreceipt => finalize_ok hreceipt

theorem verifyChunks_ok {issue : Issue} {out : VerifiedChunks} {s s' : σ} :
    verifyChunks py index args issue s = .ok out s' ↔ ∃ policy texts gathered,
      coercePolicy args.policy = .ok policy ∧ coerceChunks py args.chunks = .ok texts ∧
      checkVerifyArgs py policy args texts = .ok () ∧
      forEach texts.zipIdx (.init policy.verification)
        (verifyChunk py index policy (args.fingerprinter.getD .default) args) s = .ok gathered s' ∧
      emitReceipt py policy args gathered issue = .ok out := by
  simp only [verifyChunks, bind_ok, lift_ok]
  constructor
  · rintro ⟨policy, _, ⟨hp, rfl⟩, texts, _, ⟨ht, rfl⟩, _, _, ⟨hc, rfl⟩, gathered, _, hg, he, rfl⟩
    exact ⟨policy, texts, gathered, hp, ht, hc, hg, he⟩
  · rintro ⟨policy, texts, gathered, hp, ht, hc, hg, he⟩
    exact ⟨policy, _, ⟨hp, rfl⟩, texts, _, ⟨ht, rfl⟩, (), _, ⟨hc, rfl⟩, gathered, _, hg, he, rfl⟩

/-- What the call that returned `out` has decided, text by text. -/
structure Gated (py : Stdlib) (index : ProvenanceIndex σ) (policy : Policy) (fp : Fingerprinter)
    (args : VerifyArgs) (s : σ) (texts : List String) (vs : List ChunkVerdict)
    (out : VerifiedChunks) : Prop where
  judged : List.Forall₂ (Judged py index policy fp args s) texts.zipIdx vs
  kept : out.kept = select false texts (vs.map (·.blocks policy.verification))
  blocked : out.blocked = select true texts (vs.map (·.blocks policy.verification))
  ordered : out.kept.Sublist texts ∧ out.blocked.Sublist texts
  partition : (out.kept ++ out.blocked).Perm texts
  keeps : ∀ v ∈ vs, v.blocks policy.verification = false ↔
    policy.verification.shouldBlock v.outcome = false ∧
      (policy.accessControl = none ∨ ∃ d, v.decision = some d ∧ d.decision = .allow)
  sources : out.receipt.sources = vs.mapIdx fun i v => v.record args.contentSource i
  decisions : ∀ evaluator, policy.accessControl = some evaluator →
    ∃ c, out.receipt.accessControl = some c ∧ List.Forall₂ (fun v entry => ∃ d,
      v.decision = some d ∧ entry = v.decisionEntry args.chunkMetadataBinding d) vs c.decisions
  undecided : policy.accessControl = none → out.receipt.accessControl = none

theorem Judged.keeps {s : σ} {item : String × ℕ} {v : ChunkVerdict}
    (h : Judged py index policy fp args s item v) :
    v.blocks policy.verification = false ↔
      policy.verification.shouldBlock v.outcome = false ∧
        (policy.accessControl = none ∨ ∃ d, v.decision = some d ∧ d.decision = .allow) := by
  unfold ChunkVerdict.blocks
  cases hac : policy.accessControl with
  | none => simp [h.unconfigured hac]
  | some evaluator =>
    obtain ⟨request, d, -, hd, -⟩ := h.configured evaluator hac
    simp [hd]

theorem decisions_aligned {s : σ} {items : List (String × ℕ)} {vs : List ChunkVerdict}
    (h : List.Forall₂ (Judged py index policy fp args s) items vs) {evaluator : PolicyEvaluator}
    (hac : policy.accessControl = some evaluator) :
    List.Forall₂ (fun v entry => ∃ d, v.decision = some d ∧
        entry = v.decisionEntry args.chunkMetadataBinding d) vs
      (vs.filterMap fun v => v.decision.map (v.decisionEntry args.chunkMetadataBinding)) := by
  induction h with
  | nil => exact .nil
  | @cons item v items vs hv _ ih =>
    obtain ⟨request, d, -, hd, -⟩ := hv.configured evaluator hac
    rw [List.filterMap_cons, hd]
    exact .cons ⟨d, hd, rfl⟩ ih

theorem verifyChunks_gated (hread : index.ReadOnly) {issue : Issue} {out : VerifiedChunks}
    {s s' : σ} (h : verifyChunks py index args issue s = .ok out s') :
    s' = s ∧ ∃ policy texts vs, coercePolicy args.policy = .ok policy ∧
      coerceChunks py args.chunks = .ok texts ∧
      Gated py index policy (args.fingerprinter.getD .default) args s texts vs out := by
  obtain ⟨policy, texts, gathered, hp, ht, hcheck, hloop, hemit⟩ := verifyChunks_ok.mp h
  obtain ⟨rfl, vs, hvs, hal⟩ := verifyLoop_ok hread (checkVerifyArgs_ok hcheck) hloop
  rw [List.zipIdx_map_fst] at hal
  have hemitted := emitReceipt_ok hemit
  have hsources := hemitted.finalized.sources
  have haccess := hemitted.finalized.accessControl
  have hmarks : texts.length = (vs.map (·.blocks policy.verification)).length := by
    rw [List.length_map, hal.length]
  refine ⟨rfl, policy, texts, vs, hp, ht, hvs, hemitted.kept.trans hal.kept, hemitted.blocked.trans hal.blocked,
    ⟨?_, ?_⟩, ?_, ?_, hsources.trans hal.sources, ?_, ?_⟩
  · rw [hemitted.kept, hal.kept]
    exact select_sublist hmarks false
  · rw [hemitted.blocked, hal.blocked]
    exact select_sublist hmarks true
  · rw [hemitted.kept, hemitted.blocked, hal.kept, hal.blocked]
    exact select_perm hmarks
  · intro v hv
    obtain ⟨i, hi, rfl⟩ := List.mem_iff_getElem.mp hv
    exact ((List.forall₂_iff_get.mp hvs).2 i (by rw [hvs.length_eq]; exact hi) hi).keeps
  · intro evaluator hac
    rw [haccess, hac]
    refine ⟨_, rfl, ?_⟩
    change List.Forall₂ _ vs gathered.policyDecisions
    rw [hal.decisions]
    exact decisions_aligned hvs hac
  · intro hac
    rw [haccess, hac]
    rfl

/-! ## The retrieval wrappers -/

/-- Documents and texts were split at the same positions. -/
def SplitAlike (docs kept blocked : List RetrievedItem) (texts kept' blocked' : List String) :
    Prop :=
  ∃ marks : List Bool, marks.length = docs.length ∧
    kept = select false docs marks ∧ blocked = select true docs marks ∧
    kept' = select false texts marks ∧ blocked' = select true texts marks

theorem SplitAlike.snoc {docs kept blocked : List RetrievedItem}
    {texts kept' blocked' : List String} (h : SplitAlike docs kept blocked texts kept' blocked')
    (hlen : texts.length = docs.length) (doc : RetrievedItem) (text : String) (m : Bool) :
    SplitAlike (docs ++ [doc]) (kept ++ if m = false then [doc] else [])
      (blocked ++ if m = true then [doc] else []) (texts ++ [text])
      (kept' ++ if m = false then [text] else []) (blocked' ++ if m = true then [text] else []) := by
  obtain ⟨marks, hmarks, rfl, rfl, rfl, rfl⟩ := h
  refine ⟨marks ++ [m], by simp [hmarks], ?_, ?_, ?_, ?_⟩
  · rw [select_snoc hmarks.symm]
  · rw [select_snoc hmarks.symm]
  · rw [select_snoc (hlen.trans hmarks.symm)]
  · rw [select_snoc (hlen.trans hmarks.symm)]

/-- The documents, and what the wrapper reads off them. -/
def Texts (documentText : RetrievedItem → Except PyErr String) (docs : List RetrievedItem)
    (texts : List String) : Prop :=
  List.Forall₂ (fun doc text => documentText doc = .ok text) docs texts

/-- The loop of the verifier is that of a wrapper, position by position. -/
def SplitSoFar (docs : List RetrievedItem) (items : List (String × ℕ)) (acc : GatheredDocs)
    (acc' : Gathered) : Prop :=
  items.length = docs.length ∧
    SplitAlike docs acc.kept acc.blocked (items.map Prod.fst) acc'.kept acc'.blocked

theorem gateDocument_related {documentText : RetrievedItem → Except PyErr String}
    (hac : policy.accessControl = none) {docs : List RetrievedItem} {items : List (String × ℕ)}
    {acc : GatheredDocs} {acc' : Gathered} {doc : RetrievedItem} {item : String × ℕ} {s : σ}
    (h : SplitSoFar docs items acc acc') (hdoc : documentText doc = .ok item.1) :
    Related (SplitSoFar (docs ++ [doc]) (items ++ [item]))
      (gateDocument py index documentText policy.verification fp acc doc s)
      (verifyChunk py index policy fp args acc' item s) := by
  have hsnoc (m : Bool) := h.2.snoc (by rw [List.length_map, h.1]) doc item.1 m
  have hlen : (items ++ [item]).length = (docs ++ [doc]).length := by simp [h.1]
  unfold gateDocument verifyChunk
  rw [hdoc]
  change Related _ (EStateM.bind (lift (.ok item.1)) _ s) _
  refine Related.bind (index.verify _) fun outcome u _ => ?_
  refine Related.bind (index.lookup _) fun entry u _ => ?_
  refine Related.bind (lift _) fun result u _ => ?_
  simp only [hac]
  cases hb : policy.verification.shouldBlock outcome with
  | false =>
    refine .ok u ⟨hlen, ?_⟩
    simpa [Gathered.place] using hsnoc false
  | true =>
    refine .ok u ⟨hlen, ?_⟩
    simpa [Gathered.place] using hsnoc true

/-- The loop of a wrapper and the loop of the verifier, where no access policy is configured. -/
theorem gateDocuments_related {documentText : RetrievedItem → Except PyErr String}
    (hac : policy.accessControl = none) {docs : List RetrievedItem} {texts : List String}
    (htexts : Texts documentText docs texts) (s : σ) :
    Related (fun acc acc' => SplitAlike docs acc.kept acc.blocked texts acc'.kept acc'.blocked)
      (gateDocuments py index documentText policy.verification fp docs s)
      (forEach texts.zipIdx (.init policy.verification) (verifyChunk py index policy fp args) s) := by
  have hitems : List.Forall₂ (fun doc item => documentText doc = .ok item.1) docs texts.zipIdx := by
    have h : Texts documentText docs (texts.zipIdx.map Prod.fst) := by rwa [List.zipIdx_map_fst]
    exact (List.forall₂_map_right_iff (R := fun doc text => documentText doc = .ok text)).mp h
  refine (forEach_related (P := fun doc item => documentText doc = .ok item.1) SplitSoFar ?_ hitems
    [] [] ⟨.init policy.verification, [], []⟩ (.init policy.verification) s ?_).mono ?_
  · intro docs items acc acc' doc item u h hdoc
    exact gateDocument_related hac h hdoc
  · exact ⟨rfl, [], rfl, rfl, rfl, rfl, rfl⟩
  · intro acc acc' h
    simpa only [List.nil_append, List.zipIdx_map_fst] using h.2

theorem gateDocuments_texts {documentText : RetrievedItem → Except PyErr String}
    {policy : VerificationPolicy} {docs : List RetrievedItem} {acc : GatheredDocs} {s s' : σ}
    (h : gateDocuments py index documentText policy fp docs s = .ok acc s') :
    ∃ texts, Texts documentText docs texts := by
  refine forEach_invariant (fun done _ _ => ∃ texts, Texts documentText done texts) ?_ docs [] _ acc
    s s' ⟨[], .nil⟩ h
  intro done acc u doc acc' u' ⟨texts, htexts⟩ hturn
  rw [gateDocument, bind_ok] at hturn
  obtain ⟨text, _, hlift, _⟩ := hturn
  exact ⟨texts ++ [text], List.rel_append htexts (.cons (lift_ok.mp hlift).1 .nil)⟩

/-- The call with a retrieval policy and nothing else. -/
def plainCall (docs : List RetrievedItem) (policy : VerificationPolicy) (fp : Fingerprinter) :
    VerifyArgs :=
  ⟨.items docs, none, .verification policy, some fp, none, none, none, "", none, none,
    bindingAtEvaluate, none, none⟩

theorem plainCall_returns {policy : VerificationPolicy} {docs : List RetrievedItem}
    {texts : List String} (htexts : coerceChunks py (.items docs) = .ok texts) {gathered : Gathered}
    {s s' : σ} (h : forEach texts.zipIdx (.init policy) (verifyChunk py index ⟨policy, none, none⟩ fp
      (plainCall docs policy fp)) s = .ok gathered s') (issue : Issue) :
    ∃ out, verifyChunks py index (plainCall docs policy fp) issue s = .ok out s' := by
  refine ⟨_, verifyChunks_ok.mpr ⟨⟨policy, none, none⟩, texts, gathered, rfl, htexts, ?_, h, rfl⟩⟩
  simp only [checkVerifyArgs, plainCall, Guard.raiseIf]
  rfl

/-- Over these documents the wrapper gates as the verifier does on their texts: every call
that returned has split them alike, and a plain one returns. -/
structure GatesAlike (py : Stdlib) (index : ProvenanceIndex σ)
    (documentText : RetrievedItem → Except PyErr String) (policy : Option VerificationPolicy)
    (fp : Option Fingerprinter) (docs kept blocked : List RetrievedItem) (s s' : σ) : Prop where
  texts : ∃ texts, Texts documentText docs texts ∧ coerceChunks py (.items docs) = .ok texts
  returns : ∀ issue, ∃ out, verifyChunks py index
    (plainCall docs (policy.getD .default) (fp.getD .default)) issue s = .ok out s'
  agrees : ∀ args p texts issue out t, Texts documentText docs texts →
    coerceChunks py args.chunks = .ok texts → coercePolicy args.policy = .ok p →
    p.accessControl = none → p.verification = policy.getD .default →
    args.fingerprinter.getD .default = fp.getD .default →
    verifyChunks py index args issue s = .ok out t →
      SplitAlike docs kept blocked texts out.kept out.blocked

theorem gateDocuments_alike {documentText : RetrievedItem → Except PyErr String}
    (hcoerce : ∀ doc text, documentText doc = .ok text → coerceItem py doc = .ok text)
    {policy : Option VerificationPolicy} {fp : Option Fingerprinter} {docs : List RetrievedItem}
    {acc : GatheredDocs} {s s' : σ}
    (h : gateDocuments py index documentText (policy.getD .default) (fp.getD .default) docs s =
      .ok acc s') :
    GatesAlike py index documentText policy fp docs acc.kept acc.blocked s s' := by
  obtain ⟨texts, htexts⟩ := gateDocuments_texts h
  have hcoerced : coerceChunks py (.items docs) = .ok texts :=
    Guard.buildAll_ok.mpr (htexts.imp hcoerce)
  refine ⟨⟨texts, htexts, hcoerced⟩, ?_, ?_⟩
  · intro issue
    let p : Policy := ⟨policy.getD .default, none, none⟩
    have hrel : Related _ _ (forEach texts.zipIdx (.init p.verification) (verifyChunk py index p
        (fp.getD .default) (plainCall docs (policy.getD .default) (fp.getD .default))) s) :=
      gateDocuments_related rfl htexts s
    rw [h] at hrel
    obtain ⟨gathered, hloop, -⟩ := hrel.left
    exact plainCall_returns hcoerced hloop issue
  · intro args p texts' issue out t htexts' hchunks hp hac hpolicy hfp hcall
    obtain ⟨p', texts'', gathered, hp', hchunks', -, hloop, hemit⟩ := verifyChunks_ok.mp hcall
    obtain rfl := Except.ok.inj (hp.symm.trans hp')
    obtain rfl := Except.ok.inj (hchunks.symm.trans hchunks')
    have hrel : Related _ (gateDocuments py index documentText p.verification
        (args.fingerprinter.getD .default) docs s) (.ok gathered t) :=
      hloop ▸ gateDocuments_related hac htexts' s
    rw [hpolicy, hfp, h] at hrel
    obtain ⟨_, heq, hsplit⟩ := hrel.left
    obtain ⟨rfl, rfl⟩ := EStateM.Result.ok.inj heq
    have hemitted := emitReceipt_ok hemit
    rw [hemitted.kept, hemitted.blocked]
    exact hsplit

theorem langchain_coerced {doc : RetrievedItem} {text : String}
    (h : ProvenexRetriever.documentText doc = .ok text) : coerceItem py doc = .ok text := by
  unfold ProvenexRetriever.documentText at h
  split at h
  · obtain rfl := Except.ok.inj h
    rfl
  · exact h
  · simp at h

theorem langgraph_coerced {doc : RetrievedItem} {text : String}
    (h : RetrievalNode.documentText doc = .ok text) : coerceItem py doc = .ok text := by
  unfold RetrievalNode.documentText at h
  split at h
  · obtain rfl := Except.ok.inj h
    rfl
  · exact h
  · rename_i d
    cases htext : textField d with
    | none => simp [htext] at h
    | some s =>
      simp only [htext] at h
      simp only [coerceItem, htext, h]
  · simp at h

theorem langchain_gates {r : ProvenexRetriever σ} {query outputText : String}
    {trajectory : Option TrajectoryContext} {stepKind : String} {agentId : Option String}
    {issue : Issue} {s s' : σ} {result : RetrievalResult}
    (h : r.getRelevantDocumentsWithReceipt py query outputText trajectory stepKind agentId issue s =
      .ok result s') :
    ∃ docs, r.baseRetriever.retrieve ProvenexRetriever.unrecognised query = .ok docs ∧
      GatesAlike py r.index ProvenexRetriever.documentText r.policy r.fingerprinter docs
        result.documents result.blocked s s' := by
  rw [ProvenexRetriever.getRelevantDocumentsWithReceipt, bind_ok] at h
  obtain ⟨docs, _, hlift, h⟩ := h
  obtain ⟨hdocs, rfl⟩ := lift_ok.mp hlift
  rw [bind_ok] at h
  obtain ⟨gathered, _, hloop, h⟩ := h
  rw [bind_ok] at h
  obtain ⟨receipt, _, hlift, h⟩ := h
  obtain ⟨-, rfl⟩ := lift_ok.mp hlift
  obtain ⟨rfl, rfl⟩ := pure_ok.mp h
  exact ⟨docs, hdocs, gateDocuments_alike (fun _ _ => langchain_coerced) hloop⟩

theorem langgraph_gates {node : RetrievalNode σ} {queryKey : String} {state : GraphState}
    {started : String × String} {issue : Issue} {s s' : σ} {delta : GraphDelta}
    (h : node.run py queryKey state started issue s = .ok delta s') :
    ∃ query docs, state.query = .str query ∧
      node.baseRetriever.retrieve RetrievalNode.unrecognised query = .ok docs ∧
      GatesAlike py node.index RetrievalNode.documentText node.policy node.fingerprinter docs
        delta.documents delta.blockedDocuments s s' := by
  rw [RetrievalNode.run, bind_ok] at h
  obtain ⟨query, _, hlift, h⟩ := h
  obtain ⟨hquery, rfl⟩ := lift_ok.mp hlift
  rw [bind_ok] at h
  obtain ⟨docs, _, hlift, h⟩ := h
  obtain ⟨hdocs, rfl⟩ := lift_ok.mp hlift
  rw [bind_ok] at h
  obtain ⟨gathered, _, hloop, h⟩ := h
  rw [bind_ok] at h
  obtain ⟨receipt, _, hlift, h⟩ := h
  obtain ⟨-, rfl⟩ := lift_ok.mp hlift
  rw [bind_ok] at h
  obtain ⟨next, _, hlift, h⟩ := h
  obtain ⟨-, rfl⟩ := lift_ok.mp hlift
  obtain ⟨rfl, rfl⟩ := pure_ok.mp h
  refine ⟨query, docs, ?_, hdocs, gateDocuments_alike (fun _ _ => langgraph_coerced) hloop⟩
  split at hquery
  · rename_i q hstr
    rw [hstr, Except.ok.inj hquery]
  · simp at hquery

theorem GatesAlike.unchanged (hread : index.ReadOnly)
    {documentText : RetrievedItem → Except PyErr String} {policy : Option VerificationPolicy}
    {fp : Option Fingerprinter} {docs kept blocked : List RetrievedItem} {s s' : σ}
    (h : GatesAlike py index documentText policy fp docs kept blocked s s') : s' = s := by
  obtain ⟨out, hout⟩ := h.returns ⟨"", ""⟩
  exact (verifyChunks_gated hread hout).1

end

theorem Sqlite.asIndex_readOnly (py : Stdlib) (secret : Bytes) (plan : QueryPlan) :
    (Sqlite.asIndex py secret plan).ReadOnly := by
  intro fp conn
  refine ⟨?_, ?_⟩
  · intro o t h
    exact (lift_ok.mp h).2.symm
  · intro e t h
    cases h
    rfl

namespace Sample

def digests : List (Bytes × Bytes) :=
  [([], [227, 176, 196, 66, 152, 252, 28, 20, 154, 251, 244, 200, 153, 111, 185, 36, 39, 174, 65, 228,
      100, 155, 147, 76, 164, 149, 153, 27, 120, 82, 184, 85]),
    ([97], [202, 151, 129, 18, 202, 27, 189, 202, 250, 194, 49, 179, 154, 35, 220, 77, 167, 134, 239,
      248, 20, 124, 78, 114, 185, 128, 119, 133, 175, 238, 72, 187]),
    ([98], [62, 35, 232, 22, 0, 57, 89, 74, 51, 137, 79, 101, 100, 225, 177, 52, 139, 189, 122, 0, 136,
      212, 44, 74, 203, 115, 238, 174, 213, 156, 0, 157]),
    ([123, 125], [68, 19, 111, 163, 85, 179, 103, 138, 17, 70, 173, 22, 247, 232, 100, 158, 148, 251,
      79, 194, 31, 231, 126, 131, 16, 192, 96, 246, 28, 170, 255, 138])]

def gatePy : Stdlib :=
  { Stdlib.blank with sha256 := fun b => (digests.lookup b).getD (List.replicate 32 0) }

def gatePlan : Sqlite.QueryPlan where
  scan := id
  perm rows := List.Perm.refl rows

def emptyIndex : ProvenanceIndex Sqlite.Connection := Sqlite.asIndex gatePy [107] gatePlan

def denyTagged : PolicyEvaluator where
  evaluatorName := "custom"
  policyId := "tags"
  policyVersionHash := ""
  evaluate := fun chunk _ =>
    .ok ⟨if chunk.metadata.isEmpty then .allow else .deny, [], "", none, none⟩

def gateArgs : VerifyArgs where
  chunks := .items [.text "b", .text "a", .text "b"]
  signer := none
  policy := .policy ⟨.default, some denyTagged, none⟩
  fingerprinter := none
  trajectory := none
  stepKind := none
  agentId := none
  outputText := ""
  requestContext := some ⟨[], .none, .none, .none, none⟩
  chunkMetadata := some [[], [(.str "tag", .str "pii")], []]
  chunkMetadataBinding := bindingAtEvaluate
  callerHashSalt := none
  contentSource := none

end Sample

end Provenex
