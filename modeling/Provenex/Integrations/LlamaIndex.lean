import Provenex.Integrations.Ingestor

/-! `integrations/llamaindex/retriever.py` and `integrations/llamaindex/ingestor.py`. Both
write the loops of the SDK out again, over nodes. -/

namespace Provenex.LlamaIndex

/-- A node: what `get_content()` returns or raises, where it has one, and its `text`. -/
structure TextNode where
  getContent : Option (Except PyErr String)
  text : Option String

inductive NodeLike
  | text (s : String)
  | node (n : TextNode)

/-- What a base retriever returns; a `NodeWithScore` is unwrapped. -/
inductive Retrieved
  | bare (n : NodeLike)
  | withScore (n : NodeLike)

/-- The text of a node: a `TypeError` of `get_content` falls through to `text`. -/
def NodeLike.content (unrecognised : String) : NodeLike → Except PyErr String
  | .text s => .ok s
  | .node n =>
    let rest := match n.text with
      | some s => .ok s
      | none => .error (.typeError (some unrecognised))
    match n.getContent with
    | none => rest
    | some (.error (.typeError _)) => rest
    | some r => r

/-! ## Retrieval -/

structure RetrievalResult where
  nodes : List Retrieved
  blocked : List Retrieved
  receipt : ProvenanceReceipt

structure ProvenexRetriever (σ : Type) where
  /-- `base_retriever.retrieve`, where it has one. -/
  baseRetriever : Option (String → Except PyErr (List Retrieved))
  index : ProvenanceIndex σ
  policy : Option VerificationPolicy
  signer : Option ReceiptSigner
  fingerprinter : Option Fingerprinter

/-- What the loop over the nodes accumulates. -/
structure GatheredNodes where
  builder : ReceiptBuilder
  kept : List Retrieved
  blocked : List Retrieved

namespace ProvenexRetriever

/-- `_node_text` -/
def nodeText : Retrieved → Except PyErr String
  | .bare n | .withScore n => n.content ("Cannot extract text from retrieved object: expected a " ++
      "LlamaIndex node (with .get_content() or .text), a NodeWithScore, or a string")

variable {σ : Type} (py : Stdlib)

/-- `_retrieve` -/
def retrieve' (r : ProvenexRetriever σ) (query : String) : Except PyErr (List Retrieved) :=
  match r.baseRetriever with
  | some f => f query
  | none => .error (.typeError (some ("base_retriever does not expose a recognized LlamaIndex " ++
      "retrieval method (.retrieve())")))

/-- One turn of the loop over the nodes. -/
def gateNode (index : ProvenanceIndex σ) (policy : VerificationPolicy) (fp : Fingerprinter)
    (acc : GatheredNodes) (item : Retrieved) : EStateM PyErr σ GatheredNodes := do
  let text ← Effect.lift (nodeText item)
  let fingerprint := fp.fingerprintChunk py text
  let outcome ← index.verify fingerprint
  let entry ← index.lookup fingerprint
  let result ← Effect.lift (fp.fingerprint py text)
  let builder := acc.builder.addSource fingerprint outcome entry result.normalizationApplied none
    none none none
  if policy.shouldBlock outcome then
    pure { acc with builder := builder, blocked := acc.blocked ++ [item] }
  else pure { acc with builder := builder, kept := acc.kept ++ [item] }

def retrieveWithReceipt (r : ProvenexRetriever σ) (query outputText : String) (issue : Issue) :
    EStateM PyErr σ RetrievalResult := do
  let policy := r.policy.getD .default
  let retrieved ← Effect.lift (r.retrieve' query)
  let gathered ← Effect.forEach retrieved ⟨.init policy, [], []⟩
    (gateNode py r.index policy (r.fingerprinter.getD .default))
  let receipt ← Effect.lift (gathered.builder.finalize py outputText r.signer none none none none none
    issue)
  pure ⟨gathered.kept, gathered.blocked, receipt⟩

/-- `retrieve` -/
def retrieve (r : ProvenexRetriever σ) (query : String) (issue : Issue) :
    EStateM PyErr σ (List Retrieved) := do
  let result ← r.retrieveWithReceipt py query "" issue
  pure result.nodes

end ProvenexRetriever

/-! ## Ingest -/

structure ProvenexIngestor where
  fingerprinter : Option Fingerprinter

namespace ProvenexIngestor

open Guard
open Provenex.ProvenexIngestor (addFingerprint addWindow)

/-- `_document_text` -/
def documentText (n : NodeLike) : Except PyErr String :=
  n.content ("Cannot extract text: expected a LlamaIndex Document/TextNode (with .get_content() " ++
    "or .text) or a string")

section

variable (py : Stdlib) (secret : Bytes) (clock : ℕ → String)

/-- One turn of the loop over the nodes. -/
def addNode (fingerprinter : Fingerprinter) (docId documentVersion : String) (authorized : Bool)
    (total : ℕ) (node : NodeLike) : EStateM PyErr Ingesting ℕ := do
  let text ← Effect.lift (documentText node)
  let chunkFp := fingerprinter.fingerprintChunk py text
  addFingerprint py secret clock ⟨chunkFp, docId, documentVersion, 0, text.length, authorized⟩
  let perChunk ← Effect.lift (fingerprinter.fingerprint py text)
  Effect.forEach perChunk.fingerprints (total + 1)
    (addWindow py secret clock docId documentVersion authorized chunkFp)

def ingest (r : ProvenexIngestor) (documents : List NodeLike) (docId : String) (authorized : Bool) :
    EStateM PyErr Ingesting IngestionResult := do
  let fingerprinter := r.fingerprinter.getD .default
  let texts ← Effect.lift (buildAll documents documentText)
  let fullResult ← Effect.lift (fingerprinter.fingerprint py (joinWith "\n" texts))
  let total ← Effect.forEach documents 0
    (addNode py secret clock fingerprinter docId fullResult.documentVersion authorized)
  pure ⟨docId, fullResult.documentVersion, total, documents.length⟩

end

end ProvenexIngestor

end Provenex.LlamaIndex
