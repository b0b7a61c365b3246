import Provenex.Cli.Commands
import Provenex.Integrations.LlamaIndex
import Provenex.Proofs.Ingest

/-! The LlamaIndex ingestor and the command `ingest` write to the index what the LangChain
ingestor writes for the same texts: the same calls in the same order, up to the same error. -/

namespace Provenex

open Effect
open ProvenexIngestor (addChunk addWindow addFingerprint)

/-! ## The texts alone -/

section

variable (py : Stdlib) (secret : Bytes) (clock : ℕ → String)

/-- An ingest, of the texts that were read off its documents. -/
def ingestTexts (fingerprinter : Fingerprinter) (texts : List String) (docId : String)
    (authorized : Bool) : EStateM PyErr Ingesting IngestionResult := do
  let full ← lift (fingerprinter.fingerprint py (joinWith "\n" texts))
  let total ← forEach texts 0 fun total text =>
    addChunk py secret clock fingerprinter docId full.documentVersion authorized total (.text text)
  pure ⟨docId, full.documentVersion, total, texts.length⟩

end

section

variable {py : Stdlib} {secret : Bytes} {clock : ℕ → String} {d : String} {authorized : Bool}

/-- Loops whose turns are equal item by item. -/
theorem forEach_congr {ε σ α α' β : Type} {P : α → α' → Prop} {body : β → α → EStateM ε σ β}
    {body' : β → α' → EStateM ε σ β} (hbody : ∀ b x y, P x y → body b x = body' b y)
    {l : List α} {l' : List α'} (h : List.Forall₂ P l l') (b : β) :
    forEach l b body = forEach l' b body' := by
  induction h generalizing b with
  | nil => rfl
  | @cons x y xs ys hxy _ ih =>
    rw [forEach, forEach, hbody b x y hxy]
    exact bind_congr fun b' => ih b'

theorem lift_ok_into {ε σ α β : Type} (a : α) (f : α → EStateM ε σ β) : lift (.ok a) >>= f = f a := rfl

theorem ingest_texts {r : ProvenexIngestor} {documents : List RetrievedItem} {texts : List String}
    (htexts : List.Forall₂ (fun doc text => ProvenexIngestor.documentText doc = .ok text) documents
      texts) :
    r.ingest py secret clock documents d authorized =
      ingestTexts py secret clock (r.fingerprinter.getD .default) texts d authorized := by
  unfold ProvenexIngestor.ingest ingestTexts
  rw [Guard.buildAll_ok.mpr htexts, htexts.length_eq]
  simp only [lift_ok_into]
  refine bind_congr fun full => ?_
  rw [forEach_congr (fun total doc text htext => ?_) htexts]
  unfold addChunk
  rw [htext]
  rfl

theorem llamaindex_ingest_texts {r : LlamaIndex.ProvenexIngestor}
    {documents : List LlamaIndex.NodeLike} {texts : List String}
    (htexts : List.Forall₂ (fun node text => LlamaIndex.ProvenexIngestor.documentText node = .ok text)
      documents texts) :
    r.ingest py secret clock documents d authorized =
      ingestTexts py secret clock (r.fingerprinter.getD .default) texts d authorized := by
  unfold LlamaIndex.ProvenexIngestor.ingest ingestTexts
  rw [Guard.buildAll_ok.mpr htexts, htexts.length_eq]
  simp only [lift_ok_into]
  refine bind_congr fun full => ?_
  rw [forEach_congr (fun total node text htext => ?_) htexts]
  unfold LlamaIndex.ProvenexIngestor.addNode addChunk
  rw [htext]
  rfl

end

/-! ## The command -/

namespace Cli

/-- How many windows of the text have the fingerprint of the whole. -/
def repeats (py : Stdlib) (text : String) (result : FingerprintingResult) : ℕ :=
  result.fingerprints.countP fun w => w.fingerprint = Fingerprinter.default.fingerprintChunk py text

/-- What the command counts of a document, by what the ingestor returns for it. -/
structure Counted (py : Stdlib) (docId text : String) (result : FingerprintingResult)
    (r : IngestionResult) : Prop where
  fingerprinted : Fingerprinter.default.fingerprint py text = .ok result
  document : r.documentId = docId
  version : r.documentVersion = result.documentVersion
  count : result.fingerprints.length + 1 = r.fingerprintCount + repeats py text result

section

variable {py : Stdlib} {secret : Bytes} {clock : ℕ → String}

/-- A turn over a text whose fingerprints are known. -/
theorem addChunk_fingerprinted {text : String} {result : FingerprintingResult} {d v : String}
    {authorized : Bool} (hresult : Fingerprinter.default.fingerprint py text = .ok result) (total : ℕ) :
    addChunk py secret clock .default d v authorized total (.text text) =
      addFingerprint py secret clock
        ⟨Fingerprinter.default.fingerprintChunk py text, d, v, 0, text.length, authorized⟩ >>= fun _ =>
      forEach result.fingerprints (total + 1) (addWindow py secret clock d v authorized
        (Fingerprinter.default.fingerprintChunk py text)) := by
  have hread : ProvenexIngestor.documentText (.text text) = .ok text := rfl
  unfold addChunk
  rw [hread, lift_ok_into]
  simp only [hresult, lift_ok_into]

/-- The loop over the windows, where the command does not count. -/
theorem addWindows_related {d v : String} {authorized : Bool} {chunkFp : String}
    (windows : List Fingerprint) (s : Ingesting) :
    Related (fun _ total => windows.length + 1 =
        total + windows.countP fun w => w.fingerprint = chunkFp)
      (forEach windows () (fun _ w => if w.fingerprint = chunkFp then pure ()
        else addFingerprint py secret clock
          ⟨w.fingerprint, d, v, w.offset, w.length, authorized⟩) s)
      (forEach windows (0 + 1) (addWindow py secret clock d v authorized chunkFp) s) := by
  refine forEach_related (P := Eq) (fun done _ (_ : Unit) total => done.length + 1 =
    total + done.countP fun w : Fingerprint => w.fingerprint = chunkFp) ?_ (List.forall₂_eq_eq_eq ▸ rfl) [] [] () 1 s
    rfl
  rintro done _ _ total w _ s hcount rfl
  rw [List.countP_append, List.length_append]
  unfold addWindow
  by_cases hw : w.fingerprint = chunkFp
  · rw [if_pos hw, if_pos hw]
    refine .ok s ?_
    simp only [List.length_singleton, List.countP_singleton, decide_eq_true hw, if_true]
    omega
  · rw [if_neg hw, if_neg hw]
    nth_rewrite 1 [← bind_pure (addFingerprint py secret clock _)]
    refine Related.bind (addFingerprint py secret clock _) fun _ u _ => .ok u ?_
    simp only [List.length_singleton, List.countP_singleton, decide_eq_false hw,
      Bool.false_eq_true, if_false]
    omega

/-- The ingestor fingerprints the one text twice, with one result. -/
theorem ingestText_related (docId text : String) (unauthorized : Bool) (s : Ingesting) :
    Related (Counted py docId text) (ingestText py secret clock docId text unauthorized s)
      (ingestTexts py secret clock .default [text] docId (! unauthorized) s) := by
  have hsingle (f : ℕ → String → EStateM PyErr Ingesting ℕ) : forEach [text] 0 f = f 0 text := by
    rw [forEach]
    exact bind_pure _
  unfold ingestText ingestTexts
  refine Related.bind (lift _) fun result u hresult => ?_
  obtain ⟨hresult, -⟩ := lift_ok.mp hresult
  rw [hsingle, addChunk_fingerprinted hresult, bind_assoc]
  refine Related.bind (addFingerprint py secret clock _) fun _ u _ => ?_
  refine (addWindows_related result.fingerprints u).into ?_
  intro _ total u hcount
  exact .ok u ⟨hresult, rfl, rfl, hcount⟩

theorem ingest_one (docId text : String) (authorized : Bool) :
    ProvenexIngestor.ingest py secret clock ⟨none⟩ [.text text] docId authorized =
      ingestTexts py secret clock .default [text] docId authorized :=
  ingest_texts (.cons rfl .nil)

/-- The ingestor, a file at a time. -/
def ingestEach (py : Stdlib) (secret : Bytes) (clock : ℕ → String) (authorized : Bool)
    (files : List File) : EStateM PyErr Ingesting (List IngestionResult) :=
  forEach files [] fun results file => do
    let text ← lift file.text
    let result ← ProvenexIngestor.ingest py secret clock ⟨none⟩ [.text text] (basename file.path)
      authorized
    pure (results ++ [result])

/-- The line that is printed of a file counts the repeats of the whole as well. -/
structure FileLine (py : Stdlib) (file : File) (line : String) (r : IngestionResult) : Prop where
  document : r.documentId = basename file.path
  printed : ∃ text result, file.text = .ok text ∧
    Fingerprinter.default.fingerprint py text = .ok result ∧
    line = "ingested " ++ toString (r.fingerprintCount + repeats py text result) ++
      " fingerprints under document_id=" ++ r.documentId

/-- The lines, file by file. -/
structure FileLines (py : Stdlib) (files : List File) (lines : List String)
    (results : List IngestionResult) : Prop where
  length : results.length = files.length
  lines : List.Forall₂ (fun line (p : File × IngestionResult) => FileLine py p.1 line p.2) lines
    (files.zip results)

theorem FileLines.snoc {files : List File} {lines : List String} {results : List IngestionResult}
    {file : File} {line : String} {r : IngestionResult} (h : FileLines py files lines results)
    (hline : FileLine py file line r) :
    FileLines py (files ++ [file]) (lines ++ [line]) (results ++ [r]) where
  length := by
    rw [List.length_append, List.length_append, h.length]
    rfl
  lines := by
    rw [List.zip_append h.length.symm]
    exact List.rel_append h.lines (.cons hline .nil)

variable (py secret clock) in
theorem ingestFiles_related {args : IngestArgs} (hdoc : isSet args.docId = none) (s : Ingesting) :
    Related (FileLines py args.files) (ingestFiles py secret clock args s)
      (ingestEach py secret clock (! args.unauthorized) args.files s) := by
  unfold ingestFiles ingestEach
  rw [hdoc]
  refine forEach_related (P := Eq) (fun done _ lines results => FileLines py done lines results) ?_
    (List.forall₂_eq_eq_eq ▸ rfl) [] [] [] [] s ⟨rfl, .nil⟩
  rintro done _ lines results file _ s hlines rfl
  refine Related.bind (lift file.text) fun text u htext => ?_
  obtain ⟨htext, -⟩ := lift_ok.mp htext
  rw [ingest_one]
  refine (ingestText_related (basename file.path) text args.unauthorized u).into ?_
  intro result r u hcounted
  refine .ok u (hlines.snoc ⟨hcounted.document, text, result, htext, hcounted.fingerprinted, ?_⟩)
  rw [hcounted.count, hcounted.document]

variable (py secret clock) in
/-- Under an identifier of its own, the files are one document. -/
theorem ingestJoined_related {args : IngestArgs} {docId : String} {texts : List String}
    (hdoc : isSet args.docId = some docId)
    (htexts : List.Forall₂ (fun file text => File.text file = .ok text) args.files texts)
    (s : Ingesting) :
    Related (fun lines r => ∃ result,
        Fingerprinter.default.fingerprint py (joinWith "\n" texts) = .ok result ∧
        lines = ["ingested " ++ toString (r.fingerprintCount + repeats py (joinWith "\n" texts) result) ++
          " fingerprints under document_id=" ++ docId ++ " version=" ++ r.documentVersion])
      (ingestFiles py secret clock args s)
      (ingestTexts py secret clock .default [joinWith "\n" texts] docId (! args.unauthorized) s) := by
  have htext : Related (Counted py docId (joinWith "\n" texts))
      (ingestText py secret clock docId (joinWith "\n" texts) args.unauthorized s)
      (ingestTexts py secret clock .default [joinWith "\n" texts] docId (! args.unauthorized) s) :=
    ingestText_related docId (joinWith "\n" texts) args.unauthorized s
  unfold ingestFiles
  rw [hdoc]
  dsimp only
  rw [Guard.buildAll_ok.mpr htexts, lift_ok_into,
    ← bind_pure (ingestTexts py secret clock .default [joinWith "\n" texts] docId (! args.unauthorized))]
  refine htext.into ?_
  intro result r u hcounted
  refine .ok u ⟨result, hcounted.fingerprinted, ?_⟩
  rw [hcounted.count, hcounted.version]

end

end Cli

/-- The three front ends of ingest. For the texts that are read off its documents, the LangChain
and the LlamaIndex ingestor are one computation; the command `ingest` is that computation on the
one text of all its files, or on the texts of its files one by one. -/
theorem ingest_front_ends_agree (py : Stdlib) (secret : Bytes) (clock : ℕ → String) :
    (∀ (r : ProvenexIngestor) documents (r' : LlamaIndex.ProvenexIngestor) nodes texts docId authorized,
      r'.fingerprinter = r.fingerprinter →
      List.Forall₂ (fun doc text => ProvenexIngestor.documentText doc = .ok text) documents texts →
      List.Forall₂ (fun node text => LlamaIndex.ProvenexIngestor.documentText node = .ok text) nodes
        texts →
      r'.ingest py secret clock nodes docId authorized =
        r.ingest py secret clock documents docId authorized) ∧
    (∀ (args : Cli.IngestArgs) docId texts s, Cli.isSet args.docId = some docId →
      List.Forall₂ (fun file text => Cli.File.text file = .ok text) args.files texts →
      Related (fun lines r => ∃ result,
          Fingerprinter.default.fingerprint py (joinWith "\n" texts) = .ok result ∧
          lines = ["ingested " ++
            toString (r.fingerprintCount + Cli.repeats py (joinWith "\n" texts) result) ++
            " fingerprints under document_id=" ++ docId ++ " version=" ++ r.documentVersion])
        (Cli.ingestFiles py secret clock args s)
        (ProvenexIngestor.ingest py secret clock ⟨none⟩ [.text (joinWith "\n" texts)] docId
          (! args.unauthorized) s)) ∧
    ∀ (args : Cli.IngestArgs) s, Cli.isSet args.docId = none →
      Related (Cli.FileLines py args.files) (Cli.ingestFiles py secret clock args s)
        (Cli.ingestEach py secret clock (! args.unauthorized) args.files s) := by
  refine ⟨?_, ?_, ?_⟩
  · intro r documents r' nodes texts docId authorized hsame hdocs hnodes
    rw [ingest_texts hdocs, llamaindex_ingest_texts hnodes, hsame]
  · intro args docId texts s hdoc htexts
    rw [Cli.ingest_one]
    exact Cli.ingestJoined_related py secret clock hdoc htexts s
  · intro args s hdoc
    exact Cli.ingestFiles_related py secret clock hdoc s

namespace Sample

def textNode (text : String) : LlamaIndex.NodeLike := .node ⟨none, some text⟩

def twoFiles : List Cli.File := [⟨"docs/a", .ok "a"⟩, ⟨"docs/b", .ok "b"⟩]

end Sample

/-- Chunks of which two are one, with a window for each codepoint; and two files. -/
theorem ingest_front_ends_agree_sample :
    LlamaIndex.ProvenexIngestor.ingest Sample.gatePy [107] Sample.ingestClock ⟨some ⟨1, 1, .default⟩⟩
        (["b", "ab", "b"].map Sample.textNode) "d" true =
      ProvenexIngestor.ingest Sample.gatePy [107] Sample.ingestClock ⟨some ⟨1, 1, .default⟩⟩
        [.text "b", .text "ab", .text "b"] "d" true ∧
    (∃ lines s, Cli.ingestFiles Sample.gatePy [107] Sample.ingestClock
        ⟨some "d", false, Sample.twoFiles⟩ ⟨.init, 0⟩ = .ok lines s ∧ lines.length = 1) ∧
    ∃ lines s, Cli.ingestFiles Sample.gatePy [107] Sample.ingestClock
        ⟨none, false, Sample.twoFiles⟩ ⟨.init, 0⟩ = .ok lines s ∧ lines.length = 2 := by
  obtain ⟨hllama, hjoined, hfiles⟩ := ingest_front_ends_agree Sample.gatePy [107] Sample.ingestClock
  refine ⟨?_, ?_, ?_⟩
  · exact hllama ⟨some ⟨1, 1, .default⟩⟩ [.text "b", .text "ab", .text "b"] ⟨some ⟨1, 1, .default⟩⟩
      (["b", "ab", "b"].map Sample.textNode) ["b", "ab", "b"] "d" true rfl
      (.cons rfl (.cons rfl (.cons rfl .nil))) (.cons rfl (.cons rfl (.cons rfl .nil)))
  · obtain ⟨lines, hlines, result, -, hline⟩ :=
      (hjoined ⟨some "d", false, Sample.twoFiles⟩ "d" ["a", "b"] ⟨.init, 0⟩ rfl
        (.cons rfl (.cons rfl .nil))).right
    exact ⟨lines, _, hlines, hline ▸ rfl⟩
  · obtain ⟨lines, hlines, hprinted⟩ :=
      (hfiles ⟨none, false, Sample.twoFiles⟩ ⟨.init, 0⟩ rfl).right
    exact ⟨lines, _, hlines, hprinted.lines.length_eq⟩

end Provenex
