import Provenex.Cli.Commands
import Provenex.Integrations.LlamaIndex
import Provenex.Proofs.Gate

/-! The verifier and the retrievers, which write its loop out again, each do to a list of
texts what one specification says; so they issue one receipt. -/

namespace Provenex

open Effect

/-! ## The specification -/

section

variable {σ : Type} (py : Stdlib) (index : ProvenanceIndex σ) (policy : VerificationPolicy)
  (fp : Fingerprinter)

/-- A text is looked up, its source goes on the receipt, and the outcome decides. -/
def gateText (b : ReceiptBuilder) (text : String) : EStateM PyErr σ (ReceiptBuilder × Bool) := do
  let fingerprint := fp.fingerprintChunk py text
  let outcome ← index.verify fingerprint
  let entry ← index.lookup fingerprint
  let result ← lift (fp.fingerprint py text)
  pure (b.addSource fingerprint outcome entry result.normalizationApplied none none none none,
    policy.shouldBlock outcome)

/-- The sources of all texts, and which of them are blocked. -/
def gateTexts (texts : List String) : EStateM PyErr σ (ReceiptBuilder × List Bool) :=
  forEach texts (.init policy, []) fun acc text => do
    let gated ← gateText py index policy fp acc.1 text
    pure (gated.1, acc.2 ++ [gated.2])

end

section

variable {σ α ι κ : Type} {py : Stdlib} {index : ProvenanceIndex σ} {policy : VerificationPolicy}
  {fp : Fingerprinter}

/-- What is kept and what is blocked of the items, by their marks. -/
structure Split (items kept blocked : List κ) (marks : List Bool) : Prop where
  length : marks.length = items.length
  kept : kept = select false items marks
  blocked : blocked = select true items marks

theorem Split.snoc {items kept blocked : List κ} {marks : List Bool}
    (h : Split items kept blocked marks) (x : κ) (b : Bool) :
    Split (items ++ [x]) (kept ++ if b then [] else [x]) (blocked ++ if b then [x] else [])
      (marks ++ [b]) where
  length := by
    rw [List.length_append, List.length_append, h.length, List.length_singleton,
      List.length_singleton]
  kept := by
    rw [select_snoc h.length.symm, h.kept]
    cases b <;> rfl
  blocked := by rw [select_snoc h.length.symm, h.blocked]

/-- What a loop has built, kept and blocked. -/
structure GateLoop (α κ : Type) where
  builder : α → ReceiptBuilder
  kept : α → List κ
  blocked : α → List κ

/-- One turn of the loop does with an item what the specification does with its text. -/
def GateLoop.Turns (loop : GateLoop α κ) (py : Stdlib) (index : ProvenanceIndex σ)
    (policy : VerificationPolicy) (fp : Fingerprinter) (body : α → ι → EStateM PyErr σ α)
    (stored : ι → κ) (Text : ι → String → Prop) : Prop :=
  ∀ acc x text s, Text x text →
    Related (fun acc' r => loop.builder acc' = r.1 ∧
        loop.kept acc' = loop.kept acc ++ (if r.2 then [] else [stored x]) ∧
        loop.blocked acc' = loop.blocked acc ++ if r.2 then [stored x] else [])
      (body acc x s) (gateText py index policy fp (loop.builder acc) text s)

/-- The whole loop does what the specification does. -/
theorem GateLoop.gates (loop : GateLoop α κ) {body : α → ι → EStateM PyErr σ α} {stored : ι → κ}
    {Text : ι → String → Prop} (hturns : loop.Turns py index policy fp body stored Text)
    {items : List ι} {texts : List String} (htexts : List.Forall₂ Text items texts) (acc : α)
    (hbuilder : loop.builder acc = .init policy) (hkept : loop.kept acc = [])
    (hblocked : loop.blocked acc = []) (s : σ) :
    Related (fun acc r => loop.builder acc = r.1 ∧
        Split (items.map stored) (loop.kept acc) (loop.blocked acc) r.2)
      (forEach items acc body s) (gateTexts py index policy fp texts s) := by
  refine forEach_related (P := Text) (fun done _ acc (r : ReceiptBuilder × List Bool) =>
    loop.builder acc = r.1 ∧ Split (done.map stored) (loop.kept acc) (loop.blocked acc) r.2) ?_
    htexts [] [] acc (.init policy, []) s ⟨hbuilder, rfl, hkept, hblocked⟩
  rintro done _ acc r x text s ⟨hb, hsplit⟩ htext
  have hturn := hturns acc x text s htext
  rw [hb] at hturn
  rw [← bind_pure (body acc x)]
  refine hturn.into ?_
  intro acc' r' u ⟨hb', hk, hbl⟩
  refine .ok u ⟨hb', ?_⟩
  rw [hk, hbl, List.map_append]
  exact hsplit.snoc (stored x) r'.2

/-! ## The loops -/

def documentLoop : GateLoop GatheredDocs RetrievedItem :=
  ⟨GatheredDocs.builder, GatheredDocs.kept, GatheredDocs.blocked⟩

theorem gateDocument_turns (documentText : RetrievedItem → Except PyErr String) :
    documentLoop.Turns py index policy fp (gateDocument py index documentText policy fp) id
      fun doc text => documentText doc = .ok text := by
  intro acc doc text s hdoc
  unfold gateDocument gateText
  rw [hdoc]
  change Related _ (EStateM.bind (lift (.ok text)) _ s) _
  refine Related.bind (index.verify _) fun outcome u _ => ?_
  refine Related.bind (index.lookup _) fun entry u _ => ?_
  refine Related.bind (lift _) fun result u _ => ?_
  cases policy.shouldBlock outcome with
  | false => exact .ok u ⟨rfl, rfl, (List.append_nil _).symm⟩
  | true => exact .ok u ⟨rfl, (List.append_nil _).symm, rfl⟩

def nodeLoop : GateLoop LlamaIndex.GatheredNodes LlamaIndex.Retrieved :=
  ⟨LlamaIndex.GatheredNodes.builder, LlamaIndex.GatheredNodes.kept, LlamaIndex.GatheredNodes.blocked⟩

open LlamaIndex.ProvenexRetriever (gateNode nodeText) in
theorem gateNode_turns : nodeLoop.Turns py index policy fp (gateNode py index policy fp) id
    fun item text => nodeText item = .ok text := by
  intro acc item text s hitem
  unfold gateNode gateText
  rw [hitem]
  change Related _ (EStateM.bind (lift (.ok text)) _ s) _
  refine Related.bind (index.verify _) fun outcome u _ => ?_
  refine Related.bind (index.lookup _) fun entry u _ => ?_
  refine Related.bind (lift _) fun result u _ => ?_
  cases policy.shouldBlock outcome with
  | false => exact .ok u ⟨rfl, rfl, (List.append_nil _).symm⟩
  | true => exact .ok u ⟨rfl, (List.append_nil _).symm, rfl⟩

def chunkLoop : GateLoop Gathered String := ⟨Gathered.builder, Gathered.kept, Gathered.blocked⟩

theorem verifyChunk_turns {p : Policy} (hac : p.accessControl = none) {args : VerifyArgs}
    (hsource : args.contentSource = none) :
    chunkLoop.Turns py index p.verification fp (verifyChunk py index p fp args) Prod.fst
      fun item text => item.1 = text := by
  rintro acc item text s rfl
  unfold verifyChunk gateText
  refine Related.bind (index.verify _) fun outcome u _ => ?_
  refine Related.bind (index.lookup _) fun entry u _ => ?_
  refine Related.bind (lift _) fun result u _ => ?_
  rw [hsource]
  simp only [hac]
  cases p.verification.shouldBlock outcome with
  | false => exact .ok u ⟨rfl, rfl, (List.append_nil _).symm⟩
  | true => exact .ok u ⟨rfl, (List.append_nil _).symm, rfl⟩

end

/-! ## The front ends -/

section

variable {σ : Type} (py : Stdlib) (index : ProvenanceIndex σ) (policy : Option VerificationPolicy)
  (signer : Option ReceiptSigner) (fp : Option Fingerprinter) (outputText : String) (issue : Issue)

/-- `verify_chunks` of the texts, with what a retriever takes. -/
def verifyTexts (texts : List String) (trajectory : Option TrajectoryContext)
    (stepKind agentId : Option String) : EStateM PyErr σ VerifiedChunks :=
  verifyChunks py index ⟨.items (texts.map .text), signer, .verification (policy.getD .default), fp,
    trajectory, stepKind, agentId, outputText, none, none, bindingAtEvaluate, none, none⟩ issue

/-- The receipt over the texts, from what the specification says of them. -/
def issueReceipt (texts : List String) (trajectory : Option TrajectoryContext) :
    EStateM PyErr σ (ProvenanceReceipt × List Bool) := do
  let gated ← gateTexts py index (policy.getD .default) (fp.getD .default) texts
  let receipt ← lift (gated.1.finalize py outputText signer none trajectory none none none issue)
  pure (receipt, gated.2)

end

section

variable {σ α β κ : Type} {py : Stdlib} {index : ProvenanceIndex σ}
  {policy : Option VerificationPolicy} {signer : Option ReceiptSigner} {fp : Option Fingerprinter}
  {outputText : String} {issue : Issue} {texts : List String}

/-- After its loop, a front end issues the receipt. -/
theorem GateLoop.issues {loop : GateLoop α κ} {items : List κ} {x : EStateM PyErr σ α} {s : σ}
    {trajectory : Option TrajectoryContext} {finish : α → ProvenanceReceipt → EStateM PyErr σ β}
    {R : β → ProvenanceReceipt × List Bool → Prop}
    (hx : Related (fun acc r => loop.builder acc = r.1 ∧
      Split items (loop.kept acc) (loop.blocked acc) r.2) (x s)
      (gateTexts py index (policy.getD .default) (fp.getD .default) texts s))
    (hfinish : ∀ acc receipt marks u, Split items (loop.kept acc) (loop.blocked acc) marks →
      ∃ b, finish acc receipt u = .ok b u ∧ R b (receipt, marks)) :
    Related R ((x >>= fun acc => lift ((loop.builder acc).finalize py outputText signer none trajectory
        none none none issue) >>= finish acc) s)
      (issueReceipt py index policy signer fp outputText issue texts trajectory s) := by
  refine hx.into ?_
  intro acc r u ⟨hb, hsplit⟩
  rw [hb]
  refine Related.bind (lift _) fun receipt u _ => ?_
  obtain ⟨b, hb, hR⟩ := hfinish acc receipt r.2 u hsplit
  rw [hb]
  exact .ok u hR

theorem coerceChunks_texts (texts : List String) :
    coerceChunks py (.items (texts.map .text)) = .ok texts := by
  rw [coerceChunks, Guard.buildAll_ok, List.forall₂_map_left_iff, List.forall₂_same]
  exact fun _ _ => rfl

theorem verifyTexts_issues (trajectory : Option TrajectoryContext) (stepKind agentId : Option String)
    (s : σ) :
    Related (fun out r => out.receipt = r.1 ∧ Split texts out.kept out.blocked r.2 ∧
        advance trajectory r.1.receiptId agentId none = .ok out.nextTrajectory)
      (verifyTexts py index policy signer fp outputText issue texts trajectory stepKind agentId s)
      (issueReceipt py index policy signer fp outputText issue texts
        (emitTrajectory trajectory stepKind agentId none) s) := by
  let p : Policy := ⟨policy.getD .default, none, none⟩
  let args : VerifyArgs := ⟨.items (texts.map .text), signer, .verification (policy.getD .default), fp,
    trajectory, stepKind, agentId, outputText, none, none, bindingAtEvaluate, none, none⟩
  have hcheck : checkVerifyArgs py p args texts = .ok () := by
    simp only [checkVerifyArgs, args, Guard.raiseIf]
    rfl
  have hemit (gathered : Gathered) : (lift (emitReceipt py p args gathered issue) :
      EStateM PyErr σ VerifiedChunks) =
      lift (gathered.builder.finalize py outputText signer none
        (emitTrajectory trajectory stepKind agentId none) none none none issue) >>= fun receipt =>
          lift (advance trajectory receipt.receiptId agentId none) >>= fun next =>
            pure ⟨gathered.kept, gathered.blocked, receipt, next⟩ := by
    have hstages : emitReceipt py p args gathered issue =
        gathered.builder.finalize py outputText signer none
          (emitTrajectory trajectory stepKind agentId none) none none none issue >>= fun receipt =>
            advance trajectory receipt.receiptId agentId none >>= fun next =>
              .ok ⟨gathered.kept, gathered.blocked, receipt, next⟩ := rfl
    rw [hstages, lift_bind]
    simp only [lift_bind]
    rfl
  have hcall : verifyTexts py index policy signer fp outputText issue texts trajectory stepKind agentId =
      forEach texts.zipIdx (.init p.verification) (verifyChunk py index p (fp.getD .default) args) >>=
        fun gathered => lift (emitReceipt py p args gathered issue) := by
    have hlift {α' β' : Type} (a : α') (f : α' → EStateM PyErr σ β') : lift (.ok a) >>= f = f a := rfl
    unfold verifyTexts verifyChunks
    simp only [coercePolicy, coerceChunks_texts, hlift]
    rw [hcheck, hlift]
  have hloop : Related (fun acc r => chunkLoop.builder acc = r.1 ∧
      Split texts (chunkLoop.kept acc) (chunkLoop.blocked acc) r.2)
      (forEach texts.zipIdx (.init p.verification) (verifyChunk py index p (fp.getD .default) args) s)
      (gateTexts py index (policy.getD .default) (fp.getD .default) texts s) := by
    have hturns : chunkLoop.Turns py index p.verification (fp.getD .default)
        (verifyChunk py index p (fp.getD .default) args) Prod.fst fun item text => item.1 = text :=
      verifyChunk_turns rfl rfl
    have hitems : List.Forall₂ (fun item text => item.1 = text) texts.zipIdx texts := by
      have hmap : List.Forall₂ Eq (texts.zipIdx.map Prod.fst) texts := by
        rw [List.zipIdx_map_fst, List.forall₂_eq_eq_eq]
      exact List.forall₂_map_left_iff.mp hmap
    have hgates := chunkLoop.gates hturns hitems (.init p.verification) rfl rfl rfl s
    rwa [List.zipIdx_map_fst] at hgates
  rw [hcall]
  simp only [hemit]
  refine GateLoop.issues hloop ?_
  intro acc receipt marks u hsplit
  obtain ⟨next, hnext⟩ : ∃ next, advance trajectory receipt.receiptId agentId none = .ok next := by
    cases trajectory with
    | none => exact ⟨none, rfl⟩
    | some t => exact ⟨_, rfl⟩
  rw [hnext]
  exact ⟨_, rfl, rfl, hsplit, rfl⟩

theorem lift_ok_bind (a : α) (f : α → EStateM PyErr σ β) : lift (.ok a) >>= f = f a := rfl

/-- Both split their items at the same positions. -/
def SplitTogether {κ κ' : Type} (items kept blocked : List κ) (items' kept' blocked' : List κ') : Prop :=
  ∃ marks, Split items kept blocked marks ∧ Split items' kept' blocked' marks

/-- The cursor as the retrievers put it on a receipt. -/
def unsessioned (t : TrajectoryContext) : TrajectoryContext := { t with sessionId := none }

theorem emitTrajectory_unsessioned (t : TrajectoryContext) (stepKind : String)
    (agentId : Option String) :
    emitTrajectory (some (unsessioned t)) (some stepKind) agentId none = some { t with
      stepKind := some stepKind, agentId := agentId.or t.agentId, sessionId := none } := by
  simp [emitTrajectory, unsessioned]

theorem langchain_agrees {r : ProvenexRetriever σ} {query : String} {docs : List RetrievedItem}
    {trajectory : Option TrajectoryContext} (stepKind : String) (agentId : Option String)
    (hretrieve : r.baseRetriever.retrieve ProvenexRetriever.unrecognised query = .ok docs)
    (htexts : Texts ProvenexRetriever.documentText docs texts) (s : σ) :
    Related (fun result out => result.receipt = out.receipt ∧
        SplitTogether docs result.documents result.blocked texts out.kept out.blocked)
      (r.getRelevantDocumentsWithReceipt py query outputText trajectory stepKind agentId issue s)
      (verifyTexts py r.index r.policy r.signer r.fingerprinter outputText issue texts
        (trajectory.map unsessioned) (some stepKind) agentId s) := by
  have hemitted : (trajectory.map fun t => { t with
      stepKind := some stepKind, agentId := agentId.or t.agentId, sessionId := none }) =
      emitTrajectory (trajectory.map unsessioned) (some stepKind) agentId none := by
    cases trajectory with
    | none => rfl
    | some t => exact (emitTrajectory_unsessioned t stepKind agentId).symm
  have hloop : Related (fun acc r => documentLoop.builder acc = r.1 ∧
      Split docs (documentLoop.kept acc) (documentLoop.blocked acc) r.2)
      (gateDocuments py r.index ProvenexRetriever.documentText (r.policy.getD .default)
        (r.fingerprinter.getD .default) docs s)
      (gateTexts py r.index (r.policy.getD .default) (r.fingerprinter.getD .default) texts s) := by
    have hturns : documentLoop.Turns py r.index (r.policy.getD .default) (r.fingerprinter.getD .default)
        (gateDocument py r.index ProvenexRetriever.documentText (r.policy.getD .default)
          (r.fingerprinter.getD .default)) id
        fun doc text => ProvenexRetriever.documentText doc = .ok text :=
      gateDocument_turns ProvenexRetriever.documentText
    have hgates := documentLoop.gates hturns htexts ⟨.init (r.policy.getD .default), [], []⟩ rfl rfl
      rfl s
    rwa [List.map_id] at hgates
  have hissues : Related (fun result i => result.receipt = i.1 ∧
      Split docs result.documents result.blocked i.2)
      (r.getRelevantDocumentsWithReceipt py query outputText trajectory stepKind agentId issue s)
      (issueReceipt py r.index r.policy r.signer r.fingerprinter outputText issue texts
        (emitTrajectory (trajectory.map unsessioned) (some stepKind) agentId none) s) := by
    unfold ProvenexRetriever.getRelevantDocumentsWithReceipt
    rw [hretrieve, lift_ok_bind]
    simp only [hemitted]
    refine GateLoop.issues hloop ?_
    intro acc receipt marks u hsplit
    exact ⟨_, rfl, rfl, hsplit⟩
  refine (hissues.meet (verifyTexts_issues (trajectory.map unsessioned) (some stepKind) agentId
    s)).mono ?_
  rintro result out ⟨i, ⟨hr, hsplit⟩, ho, hsplit', -⟩
  exact ⟨hr.trans ho.symm, i.2, hsplit, hsplit'⟩

theorem advance_unsessioned {t next : TrajectoryContext} {receiptId : String}
    {agentId : Option String} (h : t.nextStep [some receiptId] [] none agentId none = .ok next) :
    advance (some (unsessioned t)) receiptId agentId none = .ok (some (unsessioned next)) := by
  have hnext := Except.ok.inj h
  rw [← hnext]
  unfold advance TrajectoryContext.nextStep unsessioned
  simp only [Option.none_or]
  rw [Option.or_assoc, Option.or_self]
  rfl

theorem langgraph_agrees {node : RetrievalNode σ} {queryKey query : String} {state : GraphState}
    {started : String × String} {docs : List RetrievedItem} {t : TrajectoryContext}
    (hquery : state.query = .str query)
    (hretrieve : node.baseRetriever.retrieve RetrievalNode.unrecognised query = .ok docs)
    (htexts : Texts RetrievalNode.documentText docs texts)
    (ht : state.trajectory.getD
      (.start started.1 started.2 node.agentId (some node.stepKind) none) = t) (s : σ) :
    Related (fun delta out => delta.receipts = state.receipts ++ [out.receipt] ∧
        out.nextTrajectory = some (unsessioned delta.trajectory) ∧
        delta.trajectory.sessionId = t.sessionId ∧
        SplitTogether docs delta.documents delta.blockedDocuments texts out.kept out.blocked)
      (node.run py queryKey state started issue s)
      (verifyTexts py node.index node.policy node.signer node.fingerprinter "" issue texts
        (some (unsessioned t)) (some node.stepKind) node.agentId s) := by
  have hloop : Related (fun acc r => documentLoop.builder acc = r.1 ∧
      Split docs (documentLoop.kept acc) (documentLoop.blocked acc) r.2)
      (gateDocuments py node.index RetrievalNode.documentText (node.policy.getD .default)
        (node.fingerprinter.getD .default) docs s)
      (gateTexts py node.index (node.policy.getD .default) (node.fingerprinter.getD .default) texts
        s) := by
    have hturns : documentLoop.Turns py node.index (node.policy.getD .default)
        (node.fingerprinter.getD .default)
        (gateDocument py node.index RetrievalNode.documentText (node.policy.getD .default)
          (node.fingerprinter.getD .default)) id
        fun doc text => RetrievalNode.documentText doc = .ok text :=
      gateDocument_turns RetrievalNode.documentText
    have hgates := documentLoop.gates hturns htexts ⟨.init (node.policy.getD .default), [], []⟩ rfl
      rfl rfl s
    rwa [List.map_id] at hgates
  have hissues : Related (fun delta i => delta.receipts = state.receipts ++ [i.1] ∧
      Split docs delta.documents delta.blockedDocuments i.2 ∧
      t.nextStep [some i.1.receiptId] [] none node.agentId none = .ok delta.trajectory)
      (node.run py queryKey state started issue s)
      (issueReceipt py node.index node.policy node.signer node.fingerprinter "" issue texts
        (emitTrajectory (some (unsessioned t)) (some node.stepKind) node.agentId none) s) := by
    rw [emitTrajectory_unsessioned]
    unfold RetrievalNode.run
    simp only [hquery, ht, lift_ok_bind, hretrieve]
    refine GateLoop.issues hloop ?_
    intro acc receipt marks u hsplit
    exact ⟨_, rfl, rfl, hsplit, rfl⟩
  refine (hissues.meet (verifyTexts_issues (some (unsessioned t)) (some node.stepKind) node.agentId
    s)).mono ?_
  rintro delta out ⟨i, ⟨hr, hsplit, hnext⟩, ho, hsplit', hnext'⟩
  rw [advance_unsessioned hnext, Except.ok.injEq] at hnext'
  have hsession : delta.trajectory.sessionId = t.sessionId := by
    rw [← Except.ok.inj hnext]
    exact Option.none_or
  exact ⟨ho ▸ hr, hnext'.symm, hsession, i.2, hsplit, hsplit'⟩

theorem llamaindex_agrees {r : LlamaIndex.ProvenexRetriever σ} {query : String}
    {items : List LlamaIndex.Retrieved} (hretrieve : r.retrieve' query = .ok items)
    (htexts : List.Forall₂ (fun item text => LlamaIndex.ProvenexRetriever.nodeText item = .ok text)
      items texts) (s : σ) :
    Related (fun result out => result.receipt = out.receipt ∧
        SplitTogether items result.nodes result.blocked texts out.kept out.blocked)
      (r.retrieveWithReceipt py query outputText issue s)
      (verifyTexts py r.index r.policy r.signer r.fingerprinter outputText issue texts none none none
        s) := by
  have hloop : Related (fun acc r => nodeLoop.builder acc = r.1 ∧
      Split items (nodeLoop.kept acc) (nodeLoop.blocked acc) r.2)
      (forEach items ⟨.init (r.policy.getD .default), [], []⟩
        (LlamaIndex.ProvenexRetriever.gateNode py r.index (r.policy.getD .default)
          (r.fingerprinter.getD .default)) s)
      (gateTexts py r.index (r.policy.getD .default) (r.fingerprinter.getD .default) texts s) := by
    have hturns : nodeLoop.Turns py r.index (r.policy.getD .default) (r.fingerprinter.getD .default)
        (LlamaIndex.ProvenexRetriever.gateNode py r.index (r.policy.getD .default)
          (r.fingerprinter.getD .default)) id
        fun item text => LlamaIndex.ProvenexRetriever.nodeText item = .ok text := gateNode_turns
    have hgates := nodeLoop.gates hturns htexts ⟨.init (r.policy.getD .default), [], []⟩ rfl rfl rfl s
    rwa [List.map_id] at hgates
  have hissues : Related (fun result i => result.receipt = i.1 ∧
      Split items result.nodes result.blocked i.2)
      (r.retrieveWithReceipt py query outputText issue s)
      (issueReceipt py r.index r.policy r.signer r.fingerprinter outputText issue texts none s) := by
    unfold LlamaIndex.ProvenexRetriever.retrieveWithReceipt
    rw [hretrieve, lift_ok_bind]
    refine GateLoop.issues hloop ?_
    intro acc receipt marks u hsplit
    exact ⟨_, rfl, rfl, hsplit⟩
  refine (hissues.meet (verifyTexts_issues none none none s)).mono ?_
  rintro result out ⟨i, ⟨hr, hsplit⟩, ho, hsplit', -⟩
  exact ⟨hr.trans ho.symm, i.2, hsplit, hsplit'⟩

end

/-- Over the same texts the three wrappers issue the receipt that the verifier issues, or raise
what it raises; they leave the index as it does, and split their items where it splits the
texts. The LangGraph node hands on the verifier's cursor, with the session of its own. -/
theorem front_ends_agree {σ : Type} (py : Stdlib) (index : ProvenanceIndex σ)
    (policy : Option VerificationPolicy) (signer : Option ReceiptSigner) (fp : Option Fingerprinter)
    (issue : Issue) (texts : List String) (s : σ) :
    (∀ base query outputText trajectory stepKind agentId docs,
      BaseRetriever.retrieve base ProvenexRetriever.unrecognised query = .ok docs →
      Texts ProvenexRetriever.documentText docs texts →
      Related (fun result out => result.receipt = out.receipt ∧
          SplitTogether docs result.documents result.blocked texts out.kept out.blocked)
        (ProvenexRetriever.getRelevantDocumentsWithReceipt py ⟨base, index, policy, signer, fp⟩ query
          outputText trajectory stepKind agentId issue s)
        (verifyTexts py index policy signer fp outputText issue texts (trajectory.map unsessioned)
          (some stepKind) agentId s)) ∧
    (∀ base queryKey query (state : GraphState) started stepKind agentId docs t,
      state.query = .str query →
      BaseRetriever.retrieve base RetrievalNode.unrecognised query = .ok docs →
      Texts RetrievalNode.documentText docs texts →
      state.trajectory.getD (.start started.1 started.2 agentId (some stepKind) none) = t →
      Related (fun delta out => delta.receipts = state.receipts ++ [out.receipt] ∧
          out.nextTrajectory = some (unsessioned delta.trajectory) ∧
          delta.trajectory.sessionId = t.sessionId ∧
          SplitTogether docs delta.documents delta.blockedDocuments texts out.kept out.blocked)
        (RetrievalNode.run py ⟨base, index, policy, signer, fp, stepKind, agentId⟩ queryKey state
          started issue s)
        (verifyTexts py index policy signer fp "" issue texts (some (unsessioned t)) (some stepKind)
          agentId s)) ∧
    ∀ base query outputText items,
      LlamaIndex.ProvenexRetriever.retrieve' ⟨base, index, policy, signer, fp⟩ query = .ok items →
      List.Forall₂ (fun item text => LlamaIndex.ProvenexRetriever.nodeText item = .ok text) items
        texts →
      Related (fun result out => result.receipt = out.receipt ∧
          SplitTogether items result.nodes result.blocked texts out.kept out.blocked)
        (LlamaIndex.ProvenexRetriever.retrieveWithReceipt py ⟨base, index, policy, signer, fp⟩ query
          outputText issue s)
        (verifyTexts py index policy signer fp outputText issue texts none none none s) := by
  refine ⟨?_, ?_, ?_⟩
  · intro base query outputText trajectory stepKind agentId docs hretrieve htexts
    exact langchain_agrees stepKind agentId hretrieve htexts s
  · intro base queryKey query state started stepKind agentId docs t hquery hretrieve htexts ht
    exact langgraph_agrees hquery hretrieve htexts ht s
  · intro base query outputText items hretrieve htexts
    exact llamaindex_agrees hretrieve htexts s

namespace Sample

/-- An index that vouches for one text only. -/
def vouchesA : ProvenanceIndex Unit where
  verify fp := pure (if fp = Fingerprinter.default.fingerprintChunk gatePy "a" then .verified else .tampered)
  lookup _ := pure none

def outcomes (receipt : ProvenanceReceipt) : List VerificationOutcome :=
  receipt.sources.map (·.verificationOutcome)

def asNode (text : String) : LlamaIndex.Retrieved := .withScore (.node ⟨some (.ok text), none⟩)

def asMapping (text : String) : RetrievedItem := .mapping [(.str "content", .str text)]

def inSession : GraphState :=
  ⟨.str "q", some (.start "t" "now" none none (some "session")), []⟩

end Sample

/-- Three texts, of which two are one, read off documents, mappings and nodes with a score. -/
theorem front_ends_agree_sample :
    (∃ result, ProvenexRetriever.getRelevantDocumentsWithReceipt Sample.gatePy
        ⟨⟨none, some fun _ => .ok [.text "b", .text "a", .text "b"]⟩, Sample.vouchesA, none, none, none⟩
          "q" "" none "retrieval" none ⟨"r", "now"⟩ () = .ok result () ∧
      Sample.outcomes result.receipt = [.tampered, .verified, .tampered]) ∧
    (∃ delta, RetrievalNode.run Sample.gatePy
        ⟨⟨none, some fun _ => .ok (["b", "a", "b"].map Sample.asMapping)⟩, Sample.vouchesA, none, none,
          none, "retrieval", none⟩ "query" Sample.inSession ("t", "now") ⟨"r", "now"⟩ () = .ok delta () ∧
      delta.receipts.map Sample.outcomes = [[.tampered, .verified, .tampered]] ∧
      delta.trajectory.sessionId = some "session") ∧
    ∃ result, LlamaIndex.ProvenexRetriever.retrieveWithReceipt Sample.gatePy
        ⟨some fun _ => .ok (["b", "a", "b"].map Sample.asNode), Sample.vouchesA, none, none, none⟩ "q" ""
          ⟨"r", "now"⟩ () = .ok result () ∧
      Sample.outcomes result.receipt = [.tampered, .verified, .tampered] := by
  obtain ⟨hchain, hgraph, hllama⟩ := front_ends_agree Sample.gatePy Sample.vouchesA none none none
    ⟨"r", "now"⟩ ["b", "a", "b"] ()
  refine ⟨?_, ?_, ?_⟩
  · have hagree := hchain ⟨none, some fun _ => .ok [.text "b", .text "a", .text "b"]⟩ "q" "" none
      "retrieval" none [.text "b", .text "a", .text "b"] rfl (.cons rfl (.cons rfl (.cons rfl .nil)))
    obtain ⟨result, hresult, hreceipt, -⟩ := hagree.right
    exact ⟨result, hresult, hreceipt ▸ rfl⟩
  · have hagree := hgraph ⟨none, some fun _ => .ok (["b", "a", "b"].map Sample.asMapping)⟩ "query" "q"
      Sample.inSession ("t", "now") "retrieval" none (["b", "a", "b"].map Sample.asMapping) _ rfl rfl
      (.cons rfl (.cons rfl (.cons rfl .nil))) rfl
    obtain ⟨delta, hdelta, hreceipts, -, hsession, -⟩ := hagree.right
    exact ⟨delta, hdelta, hreceipts ▸ rfl, hsession⟩
  · have hagree := hllama (some fun _ => .ok (["b", "a", "b"].map Sample.asNode)) "q" ""
      (["b", "a", "b"].map Sample.asNode) rfl (.cons rfl (.cons rfl (.cons rfl .nil)))
    obtain ⟨result, hresult, hreceipt, -⟩ := hagree.right
    exact ⟨result, hresult, hreceipt ▸ rfl⟩

/-! ## The command `receipt` -/

namespace Cli

section

variable {py : Stdlib} {env : Environment} {secret : Bytes} {plan : Sqlite.QueryPlan}
  {tables : Sqlite.Tables} {issue : Issue}

/-- The specification of one text, on the tables. -/
def gateAt (py : Stdlib) (secret : Bytes) (plan : Sqlite.QueryPlan) (conn : Sqlite.Connection)
    (acc : ReceiptBuilder × List Bool) (text : String) : Except PyErr (ReceiptBuilder × List Bool) := do
  let fingerprint := Fingerprinter.default.fingerprintChunk py text
  let outcome ← Sqlite.verify py secret plan conn fingerprint
  let entry := Sqlite.lookup plan conn fingerprint
  let result ← Fingerprinter.default.fingerprint py text
  .ok (acc.1.addSource fingerprint outcome entry result.normalizationApplied none none none none,
    acc.2 ++ [VerificationPolicy.default.shouldBlock outcome])

theorem gateTexts_sqlite (texts : List String) (conn : Sqlite.Connection) :
    gateTexts py (Sqlite.asIndex py secret plan) .default .default texts conn =
      lift (texts.foldlM (gateAt py secret plan conn) (.init .default, [])) conn := by
  unfold gateTexts
  refine forEach_lift ?_ texts _
  intro acc text
  unfold gateText gateAt
  simp only [bind, EStateM.bind, Except.bind, Sqlite.asIndex, lift]
  cases Sqlite.verify py secret plan conn (Fingerprinter.default.fingerprintChunk py text) with
  | error e => rfl
  | ok outcome => cases Fingerprinter.default.fingerprint py text <;> rfl

theorem foldlM_addChunkSource {conn : Sqlite.Connection} {files : List File} {texts : List String}
    (htexts : List.Forall₂ (fun file text => File.text file = .ok text) files texts)
    (acc : ReceiptBuilder × List Bool) :
    files.foldlM (addChunkSource py secret plan conn) acc.1 =
      (texts.foldlM (gateAt py secret plan conn) acc).map Prod.fst := by
  induction htexts generalizing acc with
  | nil => rfl
  | @cons file text files texts htext _ ih =>
    have hturn : addChunkSource py secret plan conn acc.1 file =
        (gateAt py secret plan conn acc text).map Prod.fst := by
      unfold addChunkSource gateAt
      rw [htext]
      simp only [bind, Except.bind]
      cases Sqlite.verify py secret plan conn (Fingerprinter.default.fingerprintChunk py text) with
      | error e => rfl
      | ok outcome => cases Fingerprinter.default.fingerprint py text <;> rfl
    rw [List.foldlM_cons, List.foldlM_cons, hturn]
    cases gateAt py secret plan conn acc text with
    | error e => rfl
    | ok acc' => exact ih acc'

/-- The receipt over texts that are looked up in the tables. -/
def issueAt (py : Stdlib) (secret : Bytes) (plan : Sqlite.QueryPlan) (signer : Option ReceiptSigner)
    (outputText : String) (issue : Issue) (texts : List String) (conn : Sqlite.Connection) :
    Except PyErr (ProvenanceReceipt × List Bool) := do
  let gated ← texts.foldlM (gateAt py secret plan conn) (.init .default, [])
  let receipt ← gated.1.finalize py outputText signer none none none none none issue
  .ok (receipt, gated.2)

theorem issueReceipt_sqlite {signer : Option ReceiptSigner} {outputText : String} (texts : List String)
    (conn : Sqlite.Connection) :
    issueReceipt py (Sqlite.asIndex py secret plan) none signer none outputText issue texts none conn =
      lift (issueAt py secret plan signer outputText issue texts conn) conn := by
  unfold issueReceipt issueAt
  change EStateM.bind (gateTexts py (Sqlite.asIndex py secret plan) .default .default texts) _ conn = _
  unfold EStateM.bind
  rw [gateTexts_sqlite]
  cases texts.foldlM (gateAt py secret plan conn) (.init .default, []) with
  | error e => rfl
  | ok gated =>
    cases hfinal : gated.1.finalize py outputText signer none none none none none issue with
    | error e => simp only [bind, EStateM.bind, Except.bind, lift, hfinal]
    | ok receipt =>
      simp only [bind, EStateM.bind, Except.bind, lift, hfinal]
      rfl

theorem outcome_verifyTexts {signer : Option ReceiptSigner} {outputText : String} (texts : List String)
    (conn : Sqlite.Connection) :
    Guard.SameOutcome (fun out r => out.receipt = r.1 ∧ Split texts out.kept out.blocked r.2)
      (outcomeOf (verifyTexts py (Sqlite.asIndex py secret plan) none signer none outputText issue texts
        none none none conn))
      (issueAt py secret plan signer outputText issue texts conn) := by
  have hissues : Related (fun out r => out.receipt = r.1 ∧ Split texts out.kept out.blocked r.2 ∧
      advance none r.1.receiptId none none = .ok out.nextTrajectory)
      (verifyTexts py (Sqlite.asIndex py secret plan) none signer none outputText issue texts none none
        none conn)
      (issueReceipt py (Sqlite.asIndex py secret plan) none signer none outputText issue texts none
        conn) := verifyTexts_issues none none none conn
  rw [issueReceipt_sqlite] at hissues
  have hsame := (hissues.mono fun out r h => And.intro h.1 h.2.1).outcome
  rwa [outcomeOf_lift] at hsame

theorem cmdReceipt_issues {args : ReceiptArgs} {signer : Option ReceiptSigner} {outputText : String}
    {texts : List String} (hsecret : env.resolveIndexSecret = .ok secret)
    (hsigner : receiptSigner py env = .ok signer)
    (htexts : List.Forall₂ (fun file text => File.text file = .ok text) args.chunkFiles texts)
    (houtput : args.output.elim (.ok "") File.text = .ok outputText) :
    cmdReceipt py env plan issue tables args =
      ((issueAt py secret plan signer outputText issue texts (.commit tables) >>= fun issued =>
        issued.1.toJson py (some 2)).mapError .raised).map fun text => ⟨0, [text]⟩ := by
  have hbuilder : args.chunkFiles.foldlM (addChunkSource py secret plan (.commit tables))
      (.init .default) =
      (texts.foldlM (gateAt py secret plan (.commit tables)) (.init .default, [])).map Prod.fst :=
    foldlM_addChunkSource htexts (.init .default, [])
  have hok {α β : Type} (a : α) (f : α → Except Failure β) : Except.ok a >>= f = f a := rfl
  have hrest : (((texts.foldlM (gateAt py secret plan (.commit tables)) (.init .default, [])).map
      Prod.fst).mapError Failure.raised >>= fun builder =>
        (builder.finalize py outputText signer none none none none none issue).mapError .raised >>=
          fun receipt => (receipt.toJson py (some 2)).mapError .raised >>= fun text =>
            Except.ok (Exit.mk 0 [text])) =
      ((issueAt py secret plan signer outputText issue texts (.commit tables) >>= fun issued =>
        issued.1.toJson py (some 2)).mapError .raised).map fun text => ⟨0, [text]⟩ := by
    unfold issueAt
    cases texts.foldlM (gateAt py secret plan (.commit tables)) (.init .default, []) with
    | error e => rfl
    | ok gated =>
      simp only [Except.map, Except.mapError, bind, Except.bind]
      cases gated.1.finalize py outputText signer none none none none none issue with
      | error e => rfl
      | ok receipt => cases receipt.toJson py (some 2) <;> rfl
  unfold cmdReceipt
  rw [hsecret, hok, hbuilder, hsigner, ← hrest]
  cases hout : args.output with
  | none =>
    rw [hout] at houtput
    obtain rfl := Except.ok.inj houtput
    rfl
  | some file =>
    rw [hout] at houtput
    have hfile : file.text = .ok outputText := houtput
    simp only [hfile]
    rfl

end

/-- What the command prints is the receipt that the verifier issues over the texts of the files, and
it fails as the verifier fails, or as the receipt cannot be written. -/
theorem receipt_command_issues (py : Stdlib) (env : Environment) (plan : Sqlite.QueryPlan)
    (issue : Issue) (tables : Sqlite.Tables) (args : ReceiptArgs) (secret : Bytes)
    (signer : Option ReceiptSigner) (outputText : String) (texts : List String)
    (hsecret : env.resolveIndexSecret = .ok secret) (hsigner : receiptSigner py env = .ok signer)
    (htexts : List.Forall₂ (fun file text => File.text file = .ok text) args.chunkFiles texts)
    (houtput : args.output.elim (.ok "") File.text = .ok outputText) :
    cmdReceipt py env plan issue tables args =
      ((outcomeOf (verifyTexts py (Sqlite.asIndex py secret plan) none signer none outputText issue texts
        none none none (.commit tables)) >>= fun out =>
          out.receipt.toJson py (some 2)).mapError .raised).map fun text => ⟨0, [text]⟩ := by
  rw [cmdReceipt_issues hsecret hsigner htexts houtput]
  refine congrArg _ (congrArg _ (Guard.SameOutcome.eq ?_)).symm
  refine (outcome_verifyTexts texts (.commit tables)).bind ?_
  rintro out issued ⟨hreceipt, -⟩
  rw [hreceipt]
  cases issued.1.toJson py (some 2) with
  | error e => exact .error e
  | ok text => exact .ok rfl

namespace Sample

/-- Three files, of which two hold one text, and the output they are cited for. -/
def citedFiles : ReceiptArgs :=
  ⟨[⟨"b.txt", .ok "b"⟩, ⟨"a.txt", .ok "a"⟩, ⟨"copy.txt", .ok "b"⟩], some ⟨"answer.txt", .ok "ab"⟩⟩

end Sample

theorem receipt_command_issues_sample :
    ∃ out, outcomeOf (verifyTexts Sample.gatePy (Sqlite.asIndex Sample.gatePy (encodeUtf8 "k") Sample.gatePlan) none
        none none "ab" ⟨"r", "now"⟩ ["b", "a", "b"] none none none (.commit ⟨[], []⟩)) = .ok out ∧
      cmdReceipt Sample.gatePy ⟨some "k", none, none⟩ Sample.gatePlan ⟨"r", "now"⟩ ⟨[], []⟩
          Sample.citedFiles =
        ((out.receipt.toJson Sample.gatePy (some 2)).mapError .raised).map fun text => ⟨0, [text]⟩ :=
  ⟨_, rfl, receipt_command_issues Sample.gatePy ⟨some "k", none, none⟩ Sample.gatePlan ⟨"r", "now"⟩
    ⟨[], []⟩ Sample.citedFiles (encodeUtf8 "k") none "ab" ["b", "a", "b"] rfl rfl
    (.cons rfl (.cons rfl (.cons rfl .nil))) rfl⟩

end Cli

end Provenex
