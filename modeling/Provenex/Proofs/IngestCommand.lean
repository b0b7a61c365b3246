import Provenex.Proofs.FrontEnds
import Provenex.Proofs.IngestFrontEnds
import Provenex.Proofs.StoredWindows

/-! What `provenex ingest` has stored, the other commands find: over any history of the database,
a text that was ingested gets the verdict it was ingested with. -/

namespace Provenex

open Effect

namespace Sqlite

section

variable {py : Stdlib} {secret : Bytes} {t : Tables} {b : Bool} {d v fp : String}
  {conn conn' : Connection}

/-- The rows of the version are current, and the documents that have the fingerprint are flagged
alike. -/
structure Ready (t : Tables) (b : Bool) (d v fp : String) : Prop where
  fresh : ∀ r ∈ t.fingerprints, r.documentId = d → r.documentVersion = v → r.superseded = 0
  flags : ∀ r ∈ t.fingerprints, r.fingerprint = fp → ∀ doc ∈ t.documents,
    doc.documentId = r.documentId → doc.authorized = sqlFlag b

/-- A row before an upsert, of a row after it. -/
theorem mem_upsertDocument_row {version : String} {authorized : Bool} {documentId : String}
    {r : FingerprintRow} (h : r ∈ (t.upsertDocument documentId version authorized).fingerprints) :
    ∃ r₀ ∈ t.fingerprints, r.key = r₀.key ∧
      (r = r₀ ∨ Tables.isOther documentId version r₀) := by
  obtain heq | heq := upsertDocument_fingerprints t documentId version authorized
  · exact ⟨r, heq ▸ h, rfl, .inl rfl⟩
  · obtain ⟨r₀, h₀, ⟨rfl, -⟩ | ⟨rfl, hother⟩⟩ := mem_sweep (heq ▸ h)
    · exact ⟨r, h₀, rfl, .inl rfl⟩
    · exact ⟨r₀, h₀, rfl, .inr hother⟩

/-- A call at the version, or on another document, with the flag. -/
theorem Ready.add {now : String} {a : AddArgs} (h : Ready conn.tables b d v fp)
    (hc : Consistent py secret conn.tables) (hb : a.authorized = b)
    (hv : a.documentId = d → a.documentVersion = v)
    (hstep : step py secret conn (.add now a) = .ok conn') : Ready conn'.tables b d v fp := by
  obtain ⟨payload, -, rfl⟩ := step_add hstep
  constructor
  · intro r hr hid hversion
    obtain hr | ⟨rfl, -⟩ := mem_insertOrIgnore.mp hr
    · obtain ⟨r₀, h₀, hkey, rfl | hother⟩ := mem_upsertDocument_row hr
      · exact h.fresh r h₀ hid hversion
      · obtain ⟨-, hid₀, hversion₀⟩ := key_eq.mp hkey
        simp only [Tables.isOther, decide_eq_true_eq] at hother
        exact absurd (hversion₀.symm.trans (hversion.trans (hv (hother.1.symm.trans
          (hid₀.symm.trans hid))).symm)) hother.2
    · rfl
  · intro r hr hfp doc hdoc hid
    subst hb
    change doc ∈ (Tables.insertOrIgnore _ _).documents at hdoc
    rw [insertOrIgnore_documents] at hdoc
    obtain rfl | ⟨hdoc, hne⟩ := (mem_upsertDocument hc).mp hdoc
    · rfl
    · obtain hr | ⟨rfl, -⟩ := mem_insertOrIgnore.mp hr
      · obtain ⟨r₀, h₀, hkey, -⟩ := mem_upsertDocument_row hr
        obtain ⟨hfp₀, hid₀, -⟩ := key_eq.mp hkey
        exact h.flags r₀ h₀ (hfp₀.symm.trans hfp) doc hdoc (hid.trans hid₀)
      · exact absurd hid hne

/-- A call keeps the keys and adds its own. -/
theorem keys_add {now : String} {a : AddArgs} {k : String × String × String}
    (hstep : step py secret conn (.add now a) = .ok conn') :
    k ∈ conn'.tables.fingerprints.map (·.key) ↔ k ∈ conn.tables.fingerprints.map (·.key) ∨
      k = (a.fingerprint, a.documentId, a.documentVersion) := by
  obtain ⟨payload, -, rfl⟩ := step_add hstep
  change k ∈ (Tables.insertOrIgnore _ _).fingerprints.map (·.key) ↔ _
  rw [insertOrIgnore_keys, upsertDocument_keys]
  rfl

/-- With a row at the version, the fingerprint gets the verdict of the flag. -/
theorem Ready.verify (h : Ready conn.tables b d v fp) (hc : Consistent py secret conn.tables)
    (hflagged : conn.tables.Flagged)
    (hheld : (fp, d, v) ∈ conn.tables.fingerprints.map (·.key)) (plan : QueryPlan) :
    verify py secret plan conn fp = .ok (if b then .verified else .unauthorized) := by
  obtain ⟨r, hr, hkey⟩ := List.mem_map.mp hheld
  simp only [FingerprintRow.key, Prod.mk.injEq] at hkey
  rw [verify_eq plan fp hc]
  cases hl : lookup plan conn fp with
  | none => exact absurd ⟨r, hr, hkey.1⟩ ((lookup_none plan hc).mp hl)
  | some entry =>
    obtain ⟨row, hrow, rfl, hleast⟩ := lookup_least hl
    obtain ⟨hr', hfp', hdoc, hid⟩ := mem_joined.mp hrow
    have hauth : row.2.authorized = sqlFlag b := h.flags row.1 hr' hfp' row.2 hdoc hid
    -- no row is before the one at the version
    have hcurrent : row.1.superseded = 0 := by
      obtain ⟨e, he, heid⟩ := List.mem_map.mp (hc.owner r hr)
      have hle : row.1.superseded ≤ r.superseded := by
        obtain hlt | ⟨heq, -⟩ := hleast (r, e) (mem_joined.mpr ⟨hr, hkey.1, he, heid⟩)
        · exact hlt.le
        · exact heq.le
      rw [h.fresh r hr hkey.2.1 hkey.2.2] at hle
      exact le_antisymm hle (hflagged row.1 hr')
    cases b <;> simp [entryOf, hauth, hcurrent, sqlFlag]

end

end Sqlite

/-! ## One ingest -/

namespace ProvenexIngestor

open Sqlite (Consistent step)

/-- The keys that are stored. -/
def storedKeys (s : Ingesting) : List (String × String × String) :=
  s.conn.tables.fingerprints.map (·.key)

/-- Everything is committed, and the tables are ready for the fingerprint. -/
structure Good (py : Stdlib) (secret : Bytes) (b : Bool) (d v fp : String) (s : Ingesting) : Prop where
  consistent : Consistent py secret s.conn.tables
  flagged : s.conn.tables.Flagged
  ready : Sqlite.Ready s.conn.tables b d v fp
  committed : s.conn.durable = s.conn.tables

section

variable {py : Stdlib} {secret : Bytes} {clock : ℕ → String} {b : Bool} {d v fp docId version : String}
  {s s' : Ingesting} {fingerprinter : Fingerprinter} {total total' : ℕ}

theorem Good.add {now : String} {a : Sqlite.AddArgs} (h : Good py secret b d v fp s)
    (hb : a.authorized = b) (hv : a.documentId = d → a.documentVersion = v)
    (hstep : step py secret s.conn (.add now a) = .ok s'.conn) : Good py secret b d v fp s' where
  consistent := Sqlite.step_consistent h.consistent hstep
  flagged := by
    obtain ⟨payload, -, hconn⟩ := Sqlite.step_add hstep
    rw [hconn]
    exact (h.flagged.upsert a.documentId a.documentVersion a.authorized).insert rfl
  ready := h.ready.add h.consistent hb hv hstep
  committed := by
    obtain ⟨payload, -, hconn⟩ := Sqlite.step_add hstep
    rw [hconn]
    rfl

theorem storedKeys_add {now : String} {a : Sqlite.AddArgs} {k : String × String × String}
    (hstep : step py secret s.conn (.add now a) = .ok s'.conn) :
    k ∈ storedKeys s' ↔ k ∈ storedKeys s ∨ k = (a.fingerprint, a.documentId, a.documentVersion) :=
  Sqlite.keys_add hstep

theorem addWindow_good {chunkFp : String} {w : Fingerprint} (hv : docId = d → version = v)
    (hs : Good py secret b d v fp s)
    (h : addWindow py secret clock docId version b chunkFp total w s = .ok total' s') :
    Good py secret b d v fp s' ∧ storedKeys s ⊆ storedKeys s' := by
  obtain ⟨-, rfl⟩ | ⟨-, hadd⟩ := addWindow_run h
  · exact ⟨hs, List.Subset.refl _⟩
  · exact ⟨hs.add rfl hv hadd, fun k hk => (storedKeys_add hadd).mpr (.inl hk)⟩

theorem addChunk_good {chunk : RetrievedItem} (hv : docId = d → version = v)
    (hs : Good py secret b d v fp s)
    (h : addChunk py secret clock fingerprinter docId version b total chunk s = .ok total' s') :
    Good py secret b d v fp s' ∧ storedKeys s ⊆ storedKeys s' ∧ ∀ text, documentText chunk = .ok text →
      (fingerprinter.fingerprintChunk py text, docId, version) ∈ storedKeys s' := by
  obtain ⟨text, result, m, htext, -, hadd, hwindows⟩ := addChunk_run h
  have hloop := forEach_invariant (fun _ _ u => Good py secret b d v fp u ∧ storedKeys m ⊆ storedKeys u)
    (fun done acc u w acc' u' hu hw => by
      obtain ⟨hgood, hkeys⟩ := addWindow_good hv hu.1 hw
      exact ⟨hgood, List.Subset.trans hu.2 hkeys⟩)
    result.fingerprints [] (total + 1) total' m s' ⟨hs.add rfl hv hadd, List.Subset.refl _⟩ hwindows
  refine ⟨hloop.1, fun k hk => hloop.2 ((storedKeys_add hadd).mpr (.inl hk)), fun text' htext' => ?_⟩
  obtain rfl := Except.ok.inj (htext.symm.trans htext')
  exact hloop.2 ((storedKeys_add hadd).mpr (.inr rfl))

/-- An ingest keeps what is stored, and stores the fingerprint of every document. -/
theorem ingest_good {r : ProvenexIngestor} {documents : List RetrievedItem}
    {result : IngestionResult} (h : r.ingest py secret clock documents docId b s = .ok result s')
    (hv : docId = d → result.documentVersion = v) (hs : Good py secret b d v fp s) :
    Good py secret b d v fp s' ∧ storedKeys s ⊆ storedKeys s' ∧ ∀ doc ∈ documents, ∀ text,
      documentText doc = .ok text → ((r.fingerprinter.getD .default).fingerprintChunk py text, docId,
        result.documentVersion) ∈ storedKeys s' := by
  obtain ⟨texts, full, total, -, -, hversion, hloop⟩ := ingest_run h
  rw [hversion] at hv ⊢
  have hall := forEach_invariant (fun done _ u => Good py secret b d v fp u ∧ storedKeys s ⊆ storedKeys u ∧
      ∀ doc ∈ done, ∀ text, documentText doc = .ok text →
        ((r.fingerprinter.getD .default).fingerprintChunk py text, docId, full.documentVersion) ∈
          storedKeys u)
    (fun done acc u chunk acc' u' hu hchunk => by
      obtain ⟨hgood, hkeys, hnew⟩ := addChunk_good hv hu.1 hchunk
      refine ⟨hgood, List.Subset.trans hu.2.1 hkeys, fun doc hdoc text htext => ?_⟩
      obtain hdoc | hdoc := List.mem_append.mp hdoc
      · exact hkeys (hu.2.2 doc hdoc text htext)
      · obtain rfl := List.mem_singleton.mp hdoc
        exact hnew text htext)
    documents [] 0 total s s' ⟨hs, List.Subset.refl _, fun _ h => absurd h List.not_mem_nil⟩ hloop
  exact hall

end

end ProvenexIngestor

/-! ## The command -/

namespace Cli

open ProvenexIngestor (Good storedKeys ingest_good)

/-- The command takes the text as a document: all files as one, or each as its own. -/
inductive Taken (args : IngestArgs) : String → String → Prop
  | joined {docId : String} {texts : List String} (hdoc : isSet args.docId = some docId)
      (htexts : List.Forall₂ (fun file text => File.text file = .ok text) args.files texts) :
      Taken args docId (joinWith "\n" texts)
  | file {file : File} {text : String} (hdoc : isSet args.docId = none) (hfile : file ∈ args.files)
      (htext : file.text = .ok text) : Taken args (basename file.path) text

section

variable {py : Stdlib} {secret : Bytes} {clock : ℕ → String} {b : Bool} {d v text : String}
  {s s' : Ingesting} {args : IngestArgs} {result : FingerprintingResult}

/-- The version of an ingest of one text. -/
theorem ingest_one_version {docId text' : String} {r : IngestionResult}
    (h : ProvenexIngestor.ingest py secret clock ⟨none⟩ [.text text'] docId b s = .ok r s')
    (hresult : Fingerprinter.default.fingerprint py text' = .ok result) :
    r.documentVersion = result.documentVersion :=
  (ProvenexIngestor.ingest_version h [text'] result rfl hresult).symm

/-- After these files, of which those of the document have the text. -/
def Stored (py : Stdlib) (secret : Bytes) (b : Bool) (d v text : String) (done : List File)
    (s : Ingesting) : Prop :=
  (∀ file ∈ done, basename file.path = d → file.text = .ok text) →
    Good py secret b d v (Fingerprinter.default.fingerprintChunk py text) s ∧
      ((∃ file ∈ done, basename file.path = d) →
        (Fingerprinter.default.fingerprintChunk py text, d, v) ∈ storedKeys s)

theorem Stored.snoc {done : List File} {file : File} {text' : String} {r : IngestionResult}
    (h : Stored py secret b d result.documentVersion text done s)
    (hresult : Fingerprinter.default.fingerprint py text = .ok result)
    (htext' : file.text = .ok text')
    (hingest : ProvenexIngestor.ingest py secret clock ⟨none⟩ [.text text'] (basename file.path) b s =
      .ok r s') : Stored py secret b d result.documentVersion text (done ++ [file]) s' := by
  intro honly
  obtain ⟨hgood, hheld⟩ := h fun file hfile => honly file (List.mem_append_left _ hfile)
  have hown : basename file.path = d → text' = text := fun hd =>
    Except.ok.inj (htext'.symm.trans (honly file (List.mem_append_right _ List.mem_cons_self) hd))
  have hversion : basename file.path = d → r.documentVersion = result.documentVersion := by
    intro hd
    obtain rfl := hown hd
    exact ingest_one_version hingest hresult
  obtain ⟨hgood', hkeys, hnew⟩ := ingest_good hingest hversion hgood
  refine ⟨hgood', ?_⟩
  rintro ⟨file', hfile', hd⟩
  obtain hfile' | hfile' := List.mem_append.mp hfile'
  · exact hkeys (hheld ⟨file', hfile', hd⟩)
  · obtain rfl := List.mem_singleton.mp hfile'
    have hkey := hnew (.text text') List.mem_cons_self text' rfl
    rw [hversion hd, hown hd, hd] at hkey
    exact hkey

theorem ingestEach_stored {files : List File} {results : List IngestionResult}
    (hresult : Fingerprinter.default.fingerprint py text = .ok result)
    (h : ingestEach py secret clock b files s = .ok results s')
    (hs : Good py secret b d result.documentVersion (Fingerprinter.default.fingerprintChunk py text) s) :
    Stored py secret b d result.documentVersion text files s' := by
  have hstart : Stored py secret b d result.documentVersion text [] s := by
    refine fun _ => ⟨hs, ?_⟩
    rintro ⟨file, hfile, -⟩
    exact absurd hfile List.not_mem_nil
  unfold ingestEach at h
  refine forEach_invariant (fun done _ u => Stored py secret b d result.documentVersion text done u) ?_
    files [] [] results s s' hstart h
  intro done acc u file acc' u' hu hturn
  obtain ⟨text', m, hlift, hturn⟩ := bind_ok.mp hturn
  obtain ⟨htext', rfl⟩ := lift_ok.mp hlift
  obtain ⟨r, m, hingest, hturn⟩ := bind_ok.mp hturn
  obtain ⟨-, rfl⟩ := pure_ok.mp hturn
  exact hu.snoc hresult htext' hingest

/-- What the command has taken is stored at its version. -/
theorem ingestFiles_good {lines : List String} {docId : String}
    (hresult : Fingerprinter.default.fingerprint py text = .ok result)
    (hdistinct : isSet args.docId = none → (args.files.map fun f => basename f.path).Nodup)
    (htaken : Taken args docId text)
    (h : ingestFiles py secret clock args s = .ok lines s')
    (hs : Good py secret (! args.unauthorized) docId result.documentVersion
      (Fingerprinter.default.fingerprintChunk py text) s) :
    Good py secret (! args.unauthorized) docId result.documentVersion
        (Fingerprinter.default.fingerprintChunk py text) s' ∧
      (Fingerprinter.default.fingerprintChunk py text, docId, result.documentVersion) ∈ storedKeys s' := by
  cases htaken with
  | @joined docId texts hdoc htexts =>
    have hrelated := ingestJoined_related py secret clock hdoc htexts s
    rw [h, ← ingest_one] at hrelated
    obtain ⟨r, hingest, -⟩ := hrelated.left
    have hversion : r.documentVersion = result.documentVersion := ingest_one_version hingest hresult
    obtain ⟨hgood, -, hnew⟩ := ingest_good hingest (fun _ => hversion) hs
    have hkey := hnew (.text (joinWith "\n" texts)) List.mem_cons_self _ rfl
    rw [hversion] at hkey
    exact ⟨hgood, hkey⟩
  | @file file text hdoc hfile htext =>
    have hrelated := ingestFiles_related py secret clock hdoc s
    rw [h] at hrelated
    obtain ⟨results, heach, -⟩ := hrelated.left
    have honly : ∀ file' ∈ args.files, basename file'.path = basename file.path →
        file'.text = .ok text := by
      intro file' hfile' hsame
      obtain rfl : file' = file := List.inj_on_of_nodup_map (hdistinct hdoc) hfile' hfile hsame
      exact htext
    obtain ⟨hgood, hheld⟩ := ingestEach_stored hresult heach hs honly
    exact ⟨hgood, hheld ⟨file, hfile, rfl⟩⟩

/-! ## The commands after it -/

theorem foldlM_gateAt {plan : Sqlite.QueryPlan} {conn : Sqlite.Connection} {o : VerificationOutcome}
    {texts : List String} {acc gated : ReceiptBuilder × List Bool}
    (hverify : ∀ text ∈ texts, Sqlite.verify py secret plan conn
      (Fingerprinter.default.fingerprintChunk py text) = .ok o)
    (h : texts.foldlM (gateAt py secret plan conn) acc = .ok gated) :
    gated.1.sources.map (·.verificationOutcome) =
        acc.1.sources.map (·.verificationOutcome) ++ List.replicate texts.length o ∧
      gated.2 = acc.2 ++ List.replicate texts.length (VerificationPolicy.default.shouldBlock o) := by
  induction texts generalizing acc with
  | nil =>
    obtain rfl := Except.ok.inj h
    exact ⟨(List.append_nil _).symm, (List.append_nil _).symm⟩
  | cons text texts ih =>
    rw [List.foldlM_cons, Guard.bind_ok] at h
    obtain ⟨acc', hturn, h⟩ := h
    obtain ⟨hsources, hmarks⟩ := ih (fun text' h' => hverify text' (List.mem_cons_of_mem _ h')) h
    unfold gateAt at hturn
    obtain ⟨o', ho', hturn⟩ := Guard.bind_ok.mp hturn
    obtain rfl := Except.ok.inj ((hverify text List.mem_cons_self).symm.trans ho')
    obtain ⟨result, -, hturn⟩ := Guard.bind_ok.mp hturn
    obtain rfl := Except.ok.inj hturn
    rw [hsources, hmarks, ReceiptBuilder.addSource, List.map_append, List.append_assoc,
      List.append_assoc, List.length_cons, List.replicate_succ, List.replicate_succ]
    exact ⟨rfl, rfl⟩

/-- A text is fingerprinted, and its version is the fingerprint of the whole. -/
theorem fingerprint_default (py : Stdlib) (text : String) :
    ∃ result, Fingerprinter.default.fingerprint py text = .ok result ∧
      result.documentVersion = Fingerprinter.default.fingerprintChunk py text := by
  obtain ⟨result, hresult⟩ : ∃ result, Fingerprinter.default.fingerprint py text = .ok result := by
    have hwindows := iterWindowHashes_direct py (normalize py .default text).text
      (by decide : (1 : ℤ) ≤ 128) (by decide : (1 : ℤ) ≤ 64)
    exact ⟨_, Guard.bind_ok.mpr ⟨_, hwindows, rfl⟩⟩
  exact ⟨result, hresult, (fingerprint_ok py hresult).1⟩

/-- The verdict on what was ingested so. -/
def ingestedOutcome (args : IngestArgs) : VerificationOutcome :=
  if args.unauthorized then .unauthorized else .verified

/-- The tables are ready for every text that the command takes. -/
def ReadyFor (py : Stdlib) (args : IngestArgs) (tables : Sqlite.Tables) : Prop :=
  ∀ docId text, Taken args docId text → Sqlite.Ready tables (! args.unauthorized) docId
    (Fingerprinter.default.fingerprintChunk py text) (Fingerprinter.default.fingerprintChunk py text)

theorem cmdIngest_outcome {env : Environment} {history : List Sqlite.Op} {lines : List String}
    {tables : Sqlite.Tables} {docId : String} (hsecret : env.resolveIndexSecret = .ok secret)
    (hdistinct : isSet args.docId = none → (args.files.map fun f => basename f.path).Nodup)
    (hready : ReadyFor py args (Sqlite.applyAll py secret history .init).tables)
    (hrun : cmdIngest py env clock args (Sqlite.applyAll py secret history .init).tables =
      (.ok ⟨0, lines⟩, tables)) (htaken : Taken args docId text) (plan : Sqlite.QueryPlan) :
    Sqlite.verify py secret plan (.commit tables) (Fingerprinter.default.fingerprintChunk py text) =
      .ok (ingestedOutcome args) := by
  obtain ⟨result, hresult, hversion⟩ := fingerprint_default py text
  have hstart : Good py secret (! args.unauthorized) docId result.documentVersion
      (Fingerprinter.default.fingerprintChunk py text)
      ⟨.commit (Sqlite.applyAll py secret history .init).tables, 0⟩ := by
    rw [hversion]
    exact ⟨Sqlite.applyAll_consistent history Sqlite.consistent_init, Sqlite.flagged_applyAll history,
      hready docId text htaken, rfl⟩
  unfold cmdIngest at hrun
  rw [hsecret] at hrun
  dsimp only at hrun
  split_ifs at hrun with hempty
  · simp at hrun
  · cases hfiles : ingestFiles py secret clock args
        ⟨.commit (Sqlite.applyAll py secret history .init).tables, 0⟩ with
    | error e s =>
      rw [hfiles] at hrun
      cases hrun
    | ok lines s =>
      rw [hfiles] at hrun
      obtain ⟨hgood, hkey⟩ := ingestFiles_good hresult hdistinct htaken hfiles hstart
      have htables : tables = s.conn.tables :=
        (congrArg Prod.snd hrun).symm.trans hgood.committed
      subst htables
      have hverdict : Sqlite.verify py secret plan (.commit s.conn.tables)
          (Fingerprinter.default.fingerprintChunk py text) =
          .ok (if ! args.unauthorized then .verified else .unauthorized) :=
        Sqlite.Ready.verify hgood.ready hgood.consistent hgood.flagged hkey plan
      rw [hverdict]
      unfold ingestedOutcome
      cases args.unauthorized <;> rfl

end

/-- After an ingest, over any history of the database: `verify` on a file of an ingested text reports
the verdict it was ingested with, and so does every source of a receipt over such texts, where the
verifier keeps all of them or blocks all of them. -/
theorem ingested_is_found (py : Stdlib) (env : Environment) (clock : ℕ → String)
    (plan : Sqlite.QueryPlan) (history : List Sqlite.Op) (args : IngestArgs) (lines : List String)
    (tables : Sqlite.Tables) (secret : Bytes) (hsecret : env.resolveIndexSecret = .ok secret)
    (hdistinct : isSet args.docId = none → (args.files.map fun f => basename f.path).Nodup)
    (hready : ReadyFor py args (Sqlite.applyAll py secret history .init).tables)
    (hrun : cmdIngest py env clock args (Sqlite.applyAll py secret history .init).tables =
      (.ok ⟨0, lines⟩, tables)) :
    (∀ docId text file, Taken args docId text → file.text = .ok text →
      ∃ output, cmdVerify py env plan tables file = .ok ⟨if args.unauthorized then 1 else 0, output⟩ ∧
        "outcome:     " ++ (ingestedOutcome args).value ∈ output) ∧
    ∀ texts signer outputText issue out s, (∀ text ∈ texts, ∃ docId, Taken args docId text) →
      verifyTexts py (Sqlite.asIndex py secret plan) none signer none outputText issue texts none none
        none (.commit tables) = .ok out s →
      out.receipt.sources.map (·.verificationOutcome) =
          List.replicate texts.length (ingestedOutcome args) ∧
        out.kept = (if args.unauthorized then [] else texts) ∧
        out.blocked = if args.unauthorized then texts else [] := by
  constructor
  · intro docId text file htaken hfile
    have hverify := cmdIngest_outcome hsecret hdistinct hready hrun htaken plan
    unfold cmdVerify
    refine ⟨["fingerprint: " ++ Fingerprinter.default.fingerprintChunk py text,
      "outcome:     " ++ (ingestedOutcome args).value] ++ ((Sqlite.lookup plan (.commit tables)
        (Fingerprinter.default.fingerprintChunk py text)).map entryLines).getD [], ?_, ?_⟩
    · rw [hsecret, hfile]
      simp only [Except.mapError, bind, Except.bind, hverify]
      unfold ingestedOutcome
      cases args.unauthorized <;> rfl
    · simp
  · intro texts signer outputText issue out s htexts hout
    have hverify : ∀ text ∈ texts, Sqlite.verify py secret plan (.commit tables)
        (Fingerprinter.default.fingerprintChunk py text) = .ok (ingestedOutcome args) := by
      intro text htext
      obtain ⟨docId, htaken⟩ := htexts text htext
      exact cmdIngest_outcome hsecret hdistinct hready hrun htaken plan
    have hsame : Guard.SameOutcome (fun out r => out.receipt = r.1 ∧ Split texts out.kept out.blocked r.2)
        (outcomeOf (verifyTexts py (Sqlite.asIndex py secret plan) none signer none outputText issue
          texts none none none (.commit tables)))
        (issueAt py secret plan signer outputText issue texts (.commit tables)) :=
      outcome_verifyTexts texts (.commit tables)
    rw [hout] at hsame
    obtain ⟨issued, hissued, hreceipt, hsplit⟩ := hsame.left
    obtain ⟨gated, hgated, hissued⟩ := Guard.bind_ok.mp hissued
    obtain ⟨receipt, hfinal, hissued⟩ := Guard.bind_ok.mp hissued
    obtain rfl := Except.ok.inj hissued
    obtain ⟨hsources, hmarks⟩ := foldlM_gateAt hverify hgated
    have hmarks : gated.2 = List.replicate texts.length args.unauthorized := by
      rw [hmarks]
      unfold ingestedOutcome
      cases args.unauthorized <;> rfl
    rw [hmarks] at hsplit
    refine ⟨?_, ?_, ?_⟩
    · rw [hreceipt, (finalize_ok hfinal).sources, hsources]
      rfl
    · rw [hsplit.kept, select_replicate]
      cases args.unauthorized <;> rfl
    · rw [hsplit.blocked, select_replicate]

/-! A file of a document that is stored at an older version. -/

namespace Sample

def foundEnv : Environment := ⟨some "k", none, none⟩

def foundFile : File := ⟨"docs/doc", .ok "a"⟩

def foundArgs : IngestArgs := ⟨none, false, [foundFile]⟩

def foundTables : Sqlite.Tables :=
  (Sqlite.applyAll Provenex.Sample.gatePy (encodeUtf8 "k") Provenex.Sample.olderVersion .init).tables

theorem foundTables_rows : ∀ row ∈ foundTables.fingerprints,
    row.documentVersion = "sha256:01" ∧ row.fingerprint = "sha256:aa" := by
  decide +kernel

theorem found_fresh :
    Fingerprinter.default.fingerprintChunk Provenex.Sample.gatePy "a" ≠ "sha256:01" ∧
      Fingerprinter.default.fingerprintChunk Provenex.Sample.gatePy "a" ≠ "sha256:aa" := by
  decide +kernel

theorem found_ready : ReadyFor Provenex.Sample.gatePy foundArgs foundTables := by
  intro docId text htaken
  cases htaken with
  | joined hdoc htexts => cases hdoc
  | file hdoc hfile htext =>
    obtain rfl := List.mem_singleton.mp hfile
    obtain rfl := Except.ok.inj htext
    constructor
    · intro r hr hid hversion
      exact absurd (hversion.symm.trans (foundTables_rows r hr).1) found_fresh.1
    · intro r hr hfp
      exact absurd (hfp.symm.trans (foundTables_rows r hr).2) found_fresh.2

theorem found_code : (cmdIngest Provenex.Sample.gatePy foundEnv Provenex.Sample.ingestClock foundArgs
    foundTables).1.toOption.map Exit.code = some 0 := by
  decide +kernel

end Sample

theorem ingested_is_found_sample :
    ∃ lines tables output, cmdIngest Provenex.Sample.gatePy Sample.foundEnv Provenex.Sample.ingestClock
        Sample.foundArgs Sample.foundTables = (.ok ⟨0, lines⟩, tables) ∧
      cmdVerify Provenex.Sample.gatePy Sample.foundEnv Provenex.Sample.gatePlan tables
        ⟨"copy.txt", .ok "a"⟩ = .ok ⟨0, output⟩ := by
  obtain ⟨lines, tables, hrun⟩ : ∃ lines tables, cmdIngest Provenex.Sample.gatePy Sample.foundEnv
      Provenex.Sample.ingestClock Sample.foundArgs Sample.foundTables = (.ok ⟨0, lines⟩, tables) := by
    have hcode := Sample.found_code
    generalize cmdIngest Provenex.Sample.gatePy Sample.foundEnv Provenex.Sample.ingestClock
      Sample.foundArgs Sample.foundTables = run at hcode ⊢
    obtain ⟨result, tables⟩ := run
    cases result with
    | error e => cases hcode
    | ok exit =>
      obtain ⟨code, lines⟩ := exit
      obtain rfl : code = 0 := Option.some.inj hcode
      exact ⟨lines, tables, rfl⟩
  have hfound := ingested_is_found Provenex.Sample.gatePy Sample.foundEnv Provenex.Sample.ingestClock
    Provenex.Sample.gatePlan Provenex.Sample.olderVersion Sample.foundArgs lines tables (encodeUtf8 "k")
    rfl (fun _ => List.nodup_singleton _) Sample.found_ready hrun
  have htaken : Taken Sample.foundArgs (basename Sample.foundFile.path) "a" :=
    @Taken.file Sample.foundArgs Sample.foundFile "a" rfl List.mem_cons_self rfl
  obtain ⟨output, houtput, -⟩ := hfound.1 _ "a" ⟨"copy.txt", .ok "a"⟩ htaken rfl
  exact ⟨lines, tables, output, hrun, houtput⟩

end Cli

end Provenex
