import Provenex.Core.Fingerprinter
import Provenex.Core.Receipt
import Provenex.Lib.Effect
import Provenex.Policy.Unified

/-! `core/verify.py`. The loop over the chunks reads the index; what it gathers
goes into one receipt. -/

namespace Provenex

open Guard

/-- An object that may have one of the attributes a text is looked for under. -/
structure Document where
  typeName : String
  pageContent : Option String
  content : Option String
  text : Option String

/-- What a retriever may return for a chunk. -/
inductive RetrievedItem
  | text (s : String)
  | object (d : Document)
  | mapping (d : PyDict)

/-- What a caller may pass for the chunks. -/
inductive Chunks
  | text (s : String)
  | items (xs : List RetrievedItem)
  | other (typeName : String)

/-- The first of the text keys under which the mapping holds a string. -/
def textField (d : PyDict) : Option String :=
  ["page_content", "content", "text"].findSome? fun k => (getKey d k).bind PyVal.str?

section

variable (py : Stdlib)

def coerceItem : RetrievedItem → Except PyErr String
  | .text s => .ok s
  | .object d =>
    match (d.pageContent.or d.content).or d.text with
    | some s => .ok s
    | none => .error (.typeError (some ("unrecognised chunk type " ++ d.typeName ++
        "; expected str, Document-like, or dict")))
  | .mapping d =>
    match textField d with
    | some s => .ok s
    | none => .error (.typeError (some ("dict chunk missing recognized text field " ++
        "(page_content/content/text): keys=" ++ py.repr (.list ((keysOf d).map .atom)))))

/-- `_coerce_chunks`. -/
def coerceChunks : Chunks → Except PyErr (List String)
  | .text s => .ok [s]
  | .items xs => buildAll xs (coerceItem py)
  | .other typeName => .error (.typeError (some ("chunks must be str or list, got " ++ typeName)))

end

/-- `_build_chunk_context`. -/
def buildChunkContext (fingerprint : String) (entry : Option IndexEntry)
    (metadata : Option PyDict) : ChunkContext where
  fingerprint := .str fingerprint
  documentId := orNull (fun e => .str e.documentId) entry
  documentVersion := orNull (fun e => .str e.documentVersion) entry
  ingestedAt := orNull (fun e => .str e.ingestedAt) entry
  metadata := metadata.getD []
  contentSource := .none

structure VerifyArgs where
  chunks : Chunks
  signer : Option ReceiptSigner
  policy : PolicyArg
  fingerprinter : Option Fingerprinter
  trajectory : Option TrajectoryContext
  stepKind : Option String
  agentId : Option String
  outputText : String
  requestContext : Option RequestContext
  chunkMetadata : Option (List PyDict)
  chunkMetadataBinding : String
  callerHashSalt : Option Bytes
  contentSource : Option String

structure VerifiedChunks where
  kept : List String
  blocked : List String
  receipt : ProvenanceReceipt
  nextTrajectory : Option TrajectoryContext

/-- What the loop accumulates. -/
structure Gathered where
  builder : ReceiptBuilder
  kept : List String
  blocked : List String
  policyDecisions : List PyDict

namespace Gathered

def init (policy : VerificationPolicy) : Gathered := ⟨.init policy, [], [], []⟩

/-- The end of a turn: the text goes to one of the two lists. -/
def place (acc : Gathered) (text : String) (block : Bool) : Gathered :=
  if block then { acc with blocked := acc.blocked ++ [text] }
  else { acc with kept := acc.kept ++ [text] }

end Gathered

/-- The `metadata_binding` of a decision on a chunk. -/
def chunkBinding (binding : String) : PyDict :=
  [(.str "chunk_metadata", .str binding), (.str "request_context", .str bindingAtEvaluate)]

/-- The trajectory block of the receipt: the cursor, with the overrides of this call. -/
def emitTrajectory (trajectory : Option TrajectoryContext)
    (stepKind agentId requestSessionId : Option String) : Option TrajectoryContext :=
  trajectory.map fun t =>
    if stepKind ≠ none ∨ agentId ≠ none ∨ requestSessionId ≠ none then
      { t with
        stepKind := stepKind.or t.stepKind
        agentId := agentId.or t.agentId
        sessionId := requestSessionId.or t.sessionId }
    else t

/-- The cursor for the next call, where one was passed. -/
def advance (trajectory : Option TrajectoryContext) (receiptId : String)
    (agentId sessionId : Option String) : Except PyErr (Option TrajectoryContext) :=
  match trajectory with
  | none => .ok none
  | some t => (t.nextStep [some receiptId] [] none (agentId.or t.agentId)
      (sessionId.or t.sessionId)).map some

section

variable {σ : Type} (py : Stdlib) (index : ProvenanceIndex σ)

/-- One turn of the loop over the texts. -/
def verifyChunk (policy : Policy) (fp : Fingerprinter) (args : VerifyArgs) (acc : Gathered)
    (item : String × ℕ) : EStateM PyErr σ Gathered := do
  let text := item.1
  let fingerprint := fp.fingerprintChunk py text
  let outcome ← index.verify fingerprint
  let entry ← index.lookup fingerprint
  let result ← Effect.lift (fp.fingerprint py text)
  let builder := acc.builder.addSource fingerprint outcome entry result.normalizationApplied none
    none none args.contentSource
  let acc := { acc with builder := builder }
  let blockByVerification := policy.verification.shouldBlock outcome
  match policy.accessControl, args.requestContext with
  | some evaluator, some request =>
    let chunkCtx := buildChunkContext fingerprint entry (args.chunkMetadata.bind fun ms => ms[item.2]?)
    let decision ← Effect.lift (evaluator.evaluate chunkCtx request)
    let decisionWithBinding :=
      { decision with metadataBinding := some (chunkBinding args.chunkMetadataBinding) }
    let policyDecisions := acc.policyDecisions ++ [decisionWithBinding.toDict fingerprint]
    let acc := { acc with policyDecisions := policyDecisions }
    let blockByPolicy := decision.decision ≠ .allow
    pure (acc.place text (blockByVerification || blockByPolicy))
  | _, _ => pure (acc.place text blockByVerification)

/-- The checks before the loop. -/
def checkVerifyArgs (policy : Policy) (args : VerifyArgs) (texts : List String) :
    Except PyErr Unit := do
  raiseIf (policy.accessControl.isSome ∧ args.requestContext.isNone)
    (.valueError (some ("verify_chunks: policy.access_control was set but " ++
      "request_context is None. Pass a RequestContext.")))
  raiseIf (args.chunkMetadata.any fun ms => ms.length ≠ texts.length)
    (.valueError (some ("verify_chunks: chunk_metadata length " ++
      toString ((args.chunkMetadata.getD []).length) ++ " does not match chunks length " ++
      toString texts.length)))
  raiseIf (args.chunkMetadataBinding ∉ [bindingAtIngest, bindingAtEvaluate])
    (.valueError (some ("verify_chunks: chunk_metadata_binding must be " ++
      py.repr (.str bindingAtIngest) ++ " or " ++ py.repr (.str bindingAtEvaluate) ++ ", got " ++
      py.repr (.str args.chunkMetadataBinding))))

/-- The hash of the caller, where a request was passed. -/
def emitCallerHash (args : VerifyArgs) : Except PyErr (Option String) :=
  match args.requestContext with
  | none => .ok none
  | some request => (computeCallerHash py request.caller args.callerHashSalt).map some

/-- The rest of the call, from what the loop gathered. -/
def emitReceipt (policy : Policy) (args : VerifyArgs) (gathered : Gathered) (issue : Issue) :
    Except PyErr VerifiedChunks := do
  let requestSessionId := args.requestContext.bind (·.sessionId)
  let accessControl := policy.accessControl.map fun evaluator =>
    buildAccessControlMetadata evaluator gathered.policyDecisions
  let callerHash ← emitCallerHash py args
  let receipt ← gathered.builder.finalize py args.outputText args.signer none
    (emitTrajectory args.trajectory args.stepKind args.agentId requestSessionId) accessControl none
    callerHash issue
  let nextTrajectory ← advance args.trajectory receipt.receiptId args.agentId requestSessionId
  .ok ⟨gathered.kept, gathered.blocked, receipt, nextTrajectory⟩

def verifyChunks (args : VerifyArgs) (issue : Issue) : EStateM PyErr σ VerifiedChunks := do
  let policy ← Effect.lift (coercePolicy args.policy)
  let fp := args.fingerprinter.getD .default
  let texts ← Effect.lift (coerceChunks py args.chunks)
  Effect.lift (checkVerifyArgs py policy args texts)
  let gathered ← Effect.forEach texts.zipIdx (.init policy.verification)
    (verifyChunk py index policy fp args)
  Effect.lift (emitReceipt py policy args gathered issue)

/-- The defaults of `verify_memory`, where the caller passes neither option. -/
def memoryArgs (args : VerifyArgs) (stepKind contentSource : Option (Option String)) : VerifyArgs :=
  { args with
    stepKind := stepKind.getD (some "memory_read")
    contentSource := contentSource.getD (some "memory_store") }

def verifyMemory (args : VerifyArgs) (stepKind contentSource : Option (Option String))
    (issue : Issue) : EStateM PyErr σ VerifiedChunks :=
  verifyChunks py index (memoryArgs args stepKind contentSource) issue

end

end Provenex
