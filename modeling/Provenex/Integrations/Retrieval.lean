import Provenex.Core.Verify

/-! `integrations/langchain/retriever.py` and the retrieval node of
`integrations/langgraph/node.py`. Both write the loop of the verifier out again,
over the documents of a base retriever. -/

namespace Provenex

/-- The methods that a base retriever may expose. -/
structure BaseRetriever where
  invoke : Option (String → Except PyErr (List RetrievedItem))
  getRelevantDocuments : Option (String → Except PyErr (List RetrievedItem))

/-- `_retrieve` of both wrappers: a `TypeError` from the new method falls through to the old. -/
def BaseRetriever.retrieve (base : BaseRetriever) (unrecognised : String) (query : String) :
    Except PyErr (List RetrievedItem) :=
  let classic := match base.getRelevantDocuments with
    | some f => f query
    | none => .error (.typeError (some unrecognised))
  match base.invoke with
  | none => classic
  | some f =>
    match f query with
    | .error (.typeError _) => classic
    | r => r

/-- What the loop over the documents accumulates. -/
structure GatheredDocs where
  builder : ReceiptBuilder
  kept : List RetrievedItem
  blocked : List RetrievedItem

section

variable {σ : Type} (py : Stdlib) (index : ProvenanceIndex σ)

/-- One turn of the loop over the documents, given how a text is read off a document. -/
def gateDocument (documentText : RetrievedItem → Except PyErr String) (policy : VerificationPolicy)
    (fp : Fingerprinter) (acc : GatheredDocs) (doc : RetrievedItem) :
    EStateM PyErr σ GatheredDocs := do
  let text ← Effect.lift (documentText doc)
  let fingerprint := fp.fingerprintChunk py text
  let outcome ← index.verify fingerprint
  let entry ← index.lookup fingerprint
  let result ← Effect.lift (fp.fingerprint py text)
  let builder := acc.builder.addSource fingerprint outcome entry result.normalizationApplied none
    none none none
  if policy.shouldBlock outcome then
    pure { acc with builder := builder, blocked := acc.blocked ++ [doc] }
  else pure { acc with builder := builder, kept := acc.kept ++ [doc] }

def gateDocuments (documentText : RetrievedItem → Except PyErr String) (policy : VerificationPolicy)
    (fp : Fingerprinter) (retrieved : List RetrievedItem) : EStateM PyErr σ GatheredDocs :=
  Effect.forEach retrieved ⟨.init policy, [], []⟩ (gateDocument py index documentText policy fp)

end

/-! ## LangChain -/

structure RetrievalResult where
  documents : List RetrievedItem
  blocked : List RetrievedItem
  receipt : ProvenanceReceipt

structure ProvenexRetriever (σ : Type) where
  baseRetriever : BaseRetriever
  index : ProvenanceIndex σ
  policy : Option VerificationPolicy
  signer : Option ReceiptSigner
  fingerprinter : Option Fingerprinter

namespace ProvenexRetriever

def unrecognised : String :=
  "base_retriever does not expose a recognized LangChain retrieval method " ++
    "(invoke() or get_relevant_documents())"

/-- `_document_text`. -/
def documentText : RetrievedItem → Except PyErr String
  | .object ⟨_, some s, _, _⟩ => .ok s
  | .text s => .ok s
  | _ => .error (.typeError (some ("Cannot extract text from retrieved object: expected a " ++
      "LangChain Document with .page_content or a string")))

variable {σ : Type} (py : Stdlib)

def getRelevantDocumentsWithReceipt (r : ProvenexRetriever σ) (query outputText : String)
    (trajectory : Option TrajectoryContext) (stepKind : String) (agentId : Option String)
    (issue : Issue) : EStateM PyErr σ RetrievalResult := do
  let policy := r.policy.getD .default
  let retrieved ← Effect.lift (r.baseRetriever.retrieve unrecognised query)
  let gathered ← gateDocuments py r.index documentText policy (r.fingerprinter.getD .default)
    retrieved
  -- the cursor is copied without its session
  let emitted := trajectory.map fun t =>
    { t with stepKind := some stepKind, agentId := agentId.or t.agentId, sessionId := none }
  let receipt ← Effect.lift (gathered.builder.finalize py outputText r.signer none emitted none
    none none issue)
  pure ⟨gathered.kept, gathered.blocked, receipt⟩

end ProvenexRetriever

/-! ## LangGraph -/

/-- What the factory of the retrieval node was given. -/
structure RetrievalNode (σ : Type) where
  baseRetriever : BaseRetriever
  index : ProvenanceIndex σ
  policy : Option VerificationPolicy
  signer : Option ReceiptSigner
  fingerprinter : Option Fingerprinter
  stepKind : String
  agentId : Option String

/-- What the node reads of the graph's state, under the resolved keys. -/
structure GraphState where
  query : PyVal
  trajectory : Option TrajectoryContext
  receipts : List ProvenanceReceipt

structure GraphDelta where
  documents : List RetrievedItem
  blockedDocuments : List RetrievedItem
  receipts : List ProvenanceReceipt
  trajectory : TrajectoryContext

namespace RetrievalNode

def unrecognised : String :=
  "base_retriever does not expose a recognized retrieval method " ++
    "(invoke() or get_relevant_documents())"

/-- `_document_text`. -/
def documentText : RetrievedItem → Except PyErr String
  | .object ⟨_, some s, _, _⟩ => .ok s
  | .text s => .ok s
  | .mapping d =>
    match textField d with
    | some s => .ok s
    | none => .error noText
  | .object _ => .error noText
where
  noText : PyErr := .typeError (some ("Cannot extract text from retrieved object: expected a " ++
    "Document with .page_content, a string, or a dict with page_content/content/text"))

variable {σ : Type} (py : Stdlib)

/-- The node; `queryKey` is the key it finds the query under, `started` the cursor of a fresh
trajectory. -/
def run (node : RetrievalNode σ) (queryKey : String) (state : GraphState)
    (started : String × String) (issue : Issue) : EStateM PyErr σ GraphDelta := do
  let query ← Effect.lift <| match state.query with
    | .str q => .ok q
    | v => .error (.typeError (some ("state[" ++ py.repr (.str queryKey) ++
        "] must be a string query, got " ++ v.typeName)))
  let trajectory := state.trajectory.getD
    (.start started.1 started.2 node.agentId (some node.stepKind) none)
  let policy := node.policy.getD .default
  let retrieved ← Effect.lift (node.baseRetriever.retrieve unrecognised query)
  let gathered ← gateDocuments py node.index documentText policy
    (node.fingerprinter.getD .default) retrieved
  -- the cursor is copied without its session
  let emitted := { trajectory with
    stepKind := some node.stepKind
    agentId := node.agentId.or trajectory.agentId
    sessionId := none }
  let receipt ← Effect.lift (gathered.builder.finalize py "" node.signer none (some emitted) none
    none none issue)
  let next ← Effect.lift (trajectory.nextStep [some receipt.receiptId] [] none node.agentId none)
  pure ⟨gathered.kept, gathered.blocked, state.receipts ++ [receipt], next⟩

end RetrievalNode

end Provenex
