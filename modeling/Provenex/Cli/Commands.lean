import Provenex.Cli.Audit
import Provenex.Cli.Summary
import Provenex.Core.Signature
import Provenex.Core.TrajectoryAudit
import Provenex.Integrations.Ingestor

/-! `cli/main.py`: the commands, each from the files that it reads to its exit code
and what it prints. `audit` is here in its modes `--json` and `--quiet`. -/

namespace Provenex.Cli

open Guard

/-! ## What a command is given -/

/-- A file, and what `_read_text` returns or raises. -/
structure File where
  path : String
  text : Except PyErr String

/-- `os.path.basename(path)`. -/
def basename (path : String) : String :=
  String.ofList (path.toList.reverse.takeWhile fun c => c ≠ '/').reverse

/-- The variables of the environment. -/
structure Environment where
  indexSecret : Option String
  receiptSecret : Option String
  signingSecret : Option String

/-- A variable that is set, and not to the empty text. -/
def isSet (value : Option String) : Option String := value.filter fun s => s ≠ ""

/-- How a command fails: with an exception of the library, or with a `RuntimeError`. -/
inductive Failure
  | raised (e : PyErr)
  | runtimeError (msg : String)

/-- The first secret that is set. -/
def firstSecret (preferred shared : Option String) (msg : String) : Except Failure Bytes :=
  match isSet preferred, isSet shared with
  | some s, _ => .ok (encodeUtf8 s)
  | none, some s => .ok (encodeUtf8 s)
  | none, none => .error (.runtimeError msg)

namespace Environment

/-- `_resolve_index_secret` -/
def resolveIndexSecret (env : Environment) : Except Failure Bytes :=
  firstSecret env.indexSecret env.signingSecret
    ("ProvenanceIndex requires a signing_secret argument, or one of " ++
      "the PROVENEX_INDEX_SECRET / PROVENEX_SIGNING_SECRET " ++
      "environment variables to be set. The index refuses to operate " ++
      "without one because it would be impossible to detect tampering.")

/-- `_resolve_receipt_secret` -/
def resolveReceiptSecret (env : Environment) : Except Failure Bytes :=
  firstSecret env.receiptSecret env.signingSecret
    ("HmacSha256Signer requires a secret, or one of the " ++
      "PROVENEX_RECEIPT_SECRET / PROVENEX_SIGNING_SECRET environment " ++ "variables to be set.")

end Environment

/-- The exit code, and the lines that were printed. -/
structure Exit where
  code : ℕ
  output : List String

section

variable (py : Stdlib) (env : Environment)

/-! ## `ingest` -/

structure IngestArgs where
  docId : Option String
  unauthorized : Bool
  files : List File

section

open ProvenexIngestor (addFingerprint)

variable (secret : Bytes) (clock : ℕ → String)

/-- What is done with the text of a document. -/
def ingestText (docId text : String) (unauthorized : Bool) :
    EStateM PyErr Ingesting FingerprintingResult := do
  let result ← Effect.lift (Fingerprinter.default.fingerprint py text)
  let wholeFp := Fingerprinter.default.fingerprintChunk py text
  addFingerprint py secret clock
    ⟨wholeFp, docId, result.documentVersion, 0, text.length, ! unauthorized⟩
  Effect.forEach result.fingerprints () fun _ f =>
    if f.fingerprint = wholeFp then pure ()
    else addFingerprint py secret clock
      ⟨f.fingerprint, docId, result.documentVersion, f.offset, f.length, ! unauthorized⟩
  pure result

/-- All files as one document, or each as its own. -/
def ingestFiles (args : IngestArgs) : EStateM PyErr Ingesting (List String) :=
  match isSet args.docId with
  | some docId => do
    let texts ← Effect.lift (buildAll args.files (·.text))
    let result ← ingestText py secret clock docId (joinWith "\n" texts) args.unauthorized
    pure ["ingested " ++ toString (result.fingerprints.length + 1) ++ " fingerprints under document_id=" ++
      docId ++ " version=" ++ result.documentVersion]
  | none =>
    Effect.forEach args.files [] fun lines file => do
      let text ← Effect.lift file.text
      let docId := basename file.path
      let result ← ingestText py secret clock docId text args.unauthorized
      pure (lines ++ ["ingested " ++ toString (result.fingerprints.length + 1) ++
        " fingerprints under document_id=" ++ docId])

end

/-- `_cmd_ingest`, on the tables of the database. What is not committed when the process ends is
lost. -/
def cmdIngest (clock : ℕ → String) (args : IngestArgs) (tables : Sqlite.Tables) :
    Except Failure Exit × Sqlite.Tables :=
  match env.resolveIndexSecret with
  | .error e => (.error e, tables)
  | .ok secret =>
    if args.files.isEmpty then (.ok ⟨2, []⟩, tables)
    else
      match ingestFiles py secret clock args ⟨.commit tables, 0⟩ with
      | .ok lines s => (.ok ⟨0, lines⟩, s.conn.durable)
      | .error e s => (.error (.raised e), s.conn.durable)

/-! ## `verify` -/

def flag (b : Bool) : String := if b then "True" else "False"

def entryLines (entry : IndexEntry) : List String :=
  ["document:    " ++ entry.documentId ++ " (" ++ entry.documentVersion ++ ")",
    "ingested:    " ++ entry.ingestedAt, "authorized:  " ++ flag entry.authorized,
    "superseded:  " ++ flag entry.superseded]

/-- `_cmd_verify` -/
def cmdVerify (plan : Sqlite.QueryPlan) (tables : Sqlite.Tables) (file : File) :
    Except Failure Exit := do
  let secret ← env.resolveIndexSecret
  let text ← file.text.mapError .raised
  let chunkFp := Fingerprinter.default.fingerprintChunk py text
  let outcome ← (Sqlite.verify py secret plan (.commit tables) chunkFp).mapError .raised
  let entry := Sqlite.lookup plan (.commit tables) chunkFp
  .ok ⟨if outcome = .verified then 0 else 1,
    ["fingerprint: " ++ chunkFp, "outcome:     " ++ outcome.value] ++
      (entry.map entryLines).getD []⟩

/-! ## `receipt` -/

structure ReceiptArgs where
  chunkFiles : List File
  output : Option File

/-- One turn of the loop over the chunks. -/
def addChunkSource (secret : Bytes) (plan : Sqlite.QueryPlan) (conn : Sqlite.Connection)
    (b : ReceiptBuilder) (file : File) : Except PyErr ReceiptBuilder := do
  let text ← file.text
  let chunkFp := Fingerprinter.default.fingerprintChunk py text
  let outcome ← Sqlite.verify py secret plan conn chunkFp
  let entry := Sqlite.lookup plan conn chunkFp
  let result ← Fingerprinter.default.fingerprint py text
  .ok (b.addSource chunkFp outcome entry result.normalizationApplied none none none none)

/-- The signer that `receipt` uses. -/
def receiptSigner : Except Failure (Option ReceiptSigner) :=
  if (isSet env.signingSecret).isSome then
    env.resolveReceiptSecret.map fun secret => some (hmacSha256Signer py secret)
  else .ok none

/-- `_cmd_receipt` -/
def cmdReceipt (plan : Sqlite.QueryPlan) (issue : Issue) (tables : Sqlite.Tables)
    (args : ReceiptArgs) : Except Failure Exit := do
  let secret ← env.resolveIndexSecret
  let builder ← (args.chunkFiles.foldlM (addChunkSource py secret plan (.commit tables))
    (.init .default)).mapError .raised
  let outputText ← (match args.output with
    | some file => file.text
    | none => .ok "").mapError .raised
  let signer ← receiptSigner py env
  let receipt ← (builder.finalize py outputText signer none none none none none issue).mapError
    .raised
  let text ← (receipt.toJson py (some 2)).mapError .raised
  .ok ⟨0, [text]⟩

/-! ## `audit` -/

/-- The file of `--public-key`, and what comes of it. -/
inductive PublicKey
  /-- The library for Ed25519 is not installed. -/
  | missingExtra
  /-- Reading or loading the file raises an exception of this text. -/
  | unreadable (path exc : String)
  /-- Whether the key accepts a signature of a payload. -/
  | loaded (verifies : Bytes → Bytes → Bool)

/-- `Ed25519Signer.from_public_key_pem`, which verifies only. -/
def ed25519Verifier (verifies : Bytes → Bytes → Bool) : VerifyingSigner where
  algorithm := "ed25519"
  sign := fun _ => ""
  verify := fun payload signature =>
    match signature with
    | .str s =>
      match unhex s.toList with
      | some bytes => .ok (verifies bytes payload)
      | none => .ok false
    | _ => .error (.typeError none)

structure AuditArgs where
  publicKey : Option PublicKey
  unsigned : Bool
  receiptFile : Option File
  /-- The files that `--trajectory` resolves to. -/
  trajectory : Option (List File)

/-- `'valid' if ok else 'INVALID'` -/
def validity (ok : Bool) : String := if ok then "valid" else "INVALID"

/-- `_audit_signature` -/
def auditSignature (args : AuditArgs) (receipt : PyDict) : Except PyErr (Bool × String) :=
  if ¬ (getOrNone receipt "signature").truthy then
    .ok (if args.unsigned then (true, "no signature on receipt (allowed by --unsigned)")
      else (false, "no signature on receipt — re-run with --unsigned to accept unsigned receipts"))
  else do
    let sig ← asMapping (getOrNone receipt "signature") .attributeError
    let alg := getOrNone sig "algorithm"
    match args.publicKey with
    | some .missingExtra =>
      .ok (false, "--public-key requires the [ed25519] extra: pip install provenex-core[ed25519]")
    | some (.unreadable path exc) =>
      .ok (false, if ¬ alg.eq (.str "ed25519") then
          "receipt was signed with " ++ py.repr alg ++ ", not ed25519; pass the " ++
            "matching key material for that algorithm instead"
        else "could not load public key from " ++ path ++ ": " ++ exc)
    | some (.loaded verifies) =>
      if ¬ alg.eq (.str "ed25519") then
        .ok (false, "receipt was signed with " ++ py.repr alg ++ ", not ed25519; pass the " ++
            "matching key material for that algorithm instead")
      else
        (verifyReceiptSignature py receipt (ed25519Verifier verifies)).map fun ok =>
          (ok, "ed25519: " ++ validity ok)
    | none =>
      match isSet env.signingSecret, env.resolveReceiptSecret with
      | some _, .ok secret =>
        if ¬ alg.eq (.str "hmac-sha256") then
          .ok (false, "receipt was signed with " ++ py.repr alg ++
            "; pass --public-key for asymmetric algorithms")
        else
          (verifyReceiptSignature py receipt (hmacSha256Signer py secret).resigning).map fun ok =>
            (ok, "hmac-sha256: " ++ validity ok)
      | _, _ =>
        .ok (if args.unsigned then (true, "signature check skipped (--unsigned; " ++
            "no PROVENEX_SIGNING_SECRET, no --public-key)")
          else (false, "no key material available — set PROVENEX_SIGNING_SECRET, " ++
            "pass --public-key <pem>, or re-run with --unsigned"))

section

-- `repr` of an exception, what `float` makes of a literal, and the sum with a float
variable (reprExc : PyErr → String) (parseFloat : String → PyFloat)
  (addFloat : Total → Total → Except PyErr PyFloat)

/-- What is reported of one receipt. -/
structure ReceiptReport where
  receiptId : PyVal
  schemaVersion : PyVal
  signature : Bool × String
  inclusionProofs : List (ℕ × Bool × String)

def ReceiptReport.ok (r : ReceiptReport) : Bool :=
  r.signature.1 && r.inclusionProofs.all (·.2.1)

def auditReceipt (args : AuditArgs) (receipt : PyDict) : Except PyErr ReceiptReport := do
  let signature ← auditSignature py env args receipt
  let inclusionProofs ← auditInclusionProofs py reprExc receipt
  .ok ⟨getOrNone receipt "receipt_id", getOrNone receipt "schema_version", signature,
    inclusionProofs⟩

/-- `_cmd_audit`, of one receipt. -/
def auditFile (args : AuditArgs) (file : File) : Except PyErr (ℕ × Option ReceiptReport) := do
  let raw ← file.text
  match loads parseFloat raw with
  | .error _ => .ok (2, none)
  | .ok v => do
    let receipt ← asMapping v .attributeError
    let report ← auditReceipt py env reprExc args receipt
    .ok (if report.ok then 0 else 1, some report)

/-- What is reported of a trajectory; each receipt with its path and its step. -/
structure TrajectoryReport where
  dag : TrajectoryAuditResult
  summary : PyDict
  receipts : List (String × PyVal × ReceiptReport)

def TrajectoryReport.ok (r : TrajectoryReport) : Bool :=
  r.receipts.all (·.2.2.ok) && r.dag.ok

/-- The texts, up to one that is not JSON. -/
def readReceipts : List File → Except PyErr (Option (List (String × PyVal)))
  | [] => .ok (some [])
  | file :: files => do
    let raw ← file.text
    match loads parseFloat raw with
    | .error _ => .ok none
    | .ok v => (readReceipts files).map fun rest => rest.map fun vs => (file.path, v) :: vs

/-- One turn of the loop over the receipts, with the receipt. -/
def auditStep (args : AuditArgs) (parsed : String × PyVal) :
    Except PyErr (PyDict × String × PyVal × ReceiptReport) := do
  let receipt ← asMapping parsed.2 .attributeError
  let report ← auditReceipt py env reprExc args receipt
  let trajectory ← asMapping ((getOrNone receipt "trajectory").orElse (.dict [])) .attributeError
  .ok (receipt, parsed.1, getOrNone trajectory "step_index", report)

/-- `_cmd_audit_trajectory` -/
def auditTrajectory (args : AuditArgs) (files : List File) :
    Except PyErr (ℕ × Option TrajectoryReport) :=
  if files.isEmpty then .ok (2, none)
  else do
    match ← readReceipts parseFloat files with
    | none => .ok (2, none)
    | some parsed => do
      let steps ← buildAll parsed (auditStep py env reprExc args)
      let dag ← auditTrajectoryDag py (steps.map (·.1))
      let summary ← aggregateTrajectorySummary addFloat (steps.map (·.1))
      let report : TrajectoryReport := ⟨dag, summary, steps.map (·.2)⟩
      .ok (if report.ok then 0 else 1, some report)

/-- `_cmd_audit` -/
def cmdAudit (args : AuditArgs) : Except PyErr ℕ :=
  match args.trajectory, args.receiptFile with
  | some _, some _ => .ok 2
  | some files, none => (auditTrajectory py env reprExc parseFloat addFloat args files).map Prod.fst
  | none, none => .ok 2
  | none, some file => (auditFile py env reprExc parseFloat args file).map Prod.fst

end

end

end Provenex.Cli
