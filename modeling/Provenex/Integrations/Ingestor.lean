import Provenex.Core.Fingerprinter
import Provenex.Core.Verify
import Provenex.Index.Sqlite

/-! `integrations/langchain/ingestor.py`, over the SQLite index. The clock that
`add` reads is a function of how often it was read. -/

namespace Provenex

structure IngestionResult where
  documentId : String
  documentVersion : String
  fingerprintCount : ℕ
  chunkCount : ℕ
  deriving DecidableEq, Repr

/-- The index that is written to, and how often its clock was read. -/
structure Ingesting where
  conn : Sqlite.Connection
  reads : ℕ
  deriving DecidableEq, Repr

structure ProvenexIngestor where
  fingerprinter : Option Fingerprinter

namespace ProvenexIngestor

open Guard

/-- `_document_text`. -/
def documentText : RetrievedItem → Except PyErr String
  | .object ⟨_, some s, _, _⟩ => .ok s
  | .text s => .ok s
  | _ => .error (.typeError (some "Cannot extract text: expected a LangChain Document or string"))

section

variable (py : Stdlib) (secret : Bytes) (clock : ℕ → String)

/-- `self._index.add(..)` -/
def addFingerprint (a : Sqlite.AddArgs) : EStateM PyErr Ingesting Unit := fun s =>
  match Sqlite.add py secret s.conn (clock s.reads) a with
  | (.ok _, conn) => .ok () ⟨conn, s.reads + 1⟩
  | (.error e, conn) => .error e ⟨conn, s.reads + 1⟩

/-- One turn of the loop over the windows of a chunk. -/
def addWindow (docId documentVersion : String) (authorized : Bool) (chunkFp : String) (total : ℕ)
    (fp : Fingerprint) : EStateM PyErr Ingesting ℕ :=
  if fp.fingerprint = chunkFp then pure total
  else do
    addFingerprint py secret clock
      ⟨fp.fingerprint, docId, documentVersion, fp.offset, fp.length, authorized⟩
    pure (total + 1)

/-- One turn of the loop over the chunks. -/
def addChunk (fingerprinter : Fingerprinter) (docId documentVersion : String) (authorized : Bool)
    (total : ℕ) (chunk : RetrievedItem) : EStateM PyErr Ingesting ℕ := do
  let text ← Effect.lift (documentText chunk)
  let chunkFp := fingerprinter.fingerprintChunk py text
  addFingerprint py secret clock ⟨chunkFp, docId, documentVersion, 0, text.length, authorized⟩
  let perChunk ← Effect.lift (fingerprinter.fingerprint py text)
  Effect.forEach perChunk.fingerprints (total + 1)
    (addWindow py secret clock docId documentVersion authorized chunkFp)

def ingest (r : ProvenexIngestor) (documents : List RetrievedItem) (docId : String)
    (authorized : Bool) : EStateM PyErr Ingesting IngestionResult := do
  let fingerprinter := r.fingerprinter.getD .default
  let texts ← Effect.lift (buildAll documents documentText)
  let fullResult ← Effect.lift (fingerprinter.fingerprint py (joinWith "\n" texts))
  let total ← Effect.forEach documents 0
    (addChunk py secret clock fingerprinter docId fullResult.documentVersion authorized)
  pure ⟨docId, fullResult.documentVersion, total, documents.length⟩

end

end ProvenexIngestor

end Provenex
