import Provenex.Integrations.Ingestor
import Provenex.Proofs.FailedAdd

/-! Ingest and re-ingest. The calls of one ingest write one version of one
document, so what the index says after any number of them is what it says after
each: an invariant of the loop, over whatever was stored before. -/

namespace Provenex

namespace Sqlite

section

variable {py : Stdlib} {secret : Bytes} {t t₀ : Tables} {d v fp : String} {done : List String}

/-! ## The flag of a row -/

/-- No row is flagged below zero. -/
def Tables.Flagged (t : Tables) : Prop := ∀ r ∈ t.fingerprints, 0 ≤ r.superseded

theorem Tables.Flagged.sweep (h : t.Flagged) (d v : String) : (t.sweep d v).Flagged := by
  intro r hr
  obtain ⟨r0, h0, ⟨rfl, -⟩ | ⟨rfl, -⟩⟩ := mem_sweep hr
  · exact h r h0
  · exact Int.one_nonneg

theorem Tables.Flagged.upsert (h : t.Flagged) (d v : String) (authorized : Bool) :
    (t.upsertDocument d v authorized).Flagged := by
  obtain heq | heq := upsertDocument_fingerprints t d v authorized
  · exact fun r hr => h r (heq ▸ hr)
  · exact fun r hr => h.sweep d v r (heq ▸ hr)

theorem Tables.Flagged.insert (h : t.Flagged) {row : FingerprintRow} (hrow : row.superseded = 0) :
    (t.insertOrIgnore row).Flagged := by
  intro r hr
  obtain hr | ⟨rfl, -⟩ := mem_insertOrIgnore.mp hr
  · exact h r hr
  · exact hrow.ge

theorem flagged_apply {conn : Connection} (h : conn.tables.Flagged) (op : Op) :
    (apply py secret conn op).tables.Flagged := by
  cases op with
  | add now a =>
    rw [apply]
    cases hadd : (add py secret conn now a).1 with
    | ok u =>
      obtain ⟨payload, -, heq⟩ := step_add (add_returned hadd)
      rw [heq]
      exact (h.upsert _ _ _).insert rfl
    | error e =>
      obtain heq | heq := add_raised hadd <;> rw [heq]
      · exact h
      · exact h.upsert _ _ _
  | setAuthorization d authorized => exact h
  | supersede d v => exact h.sweep d v

theorem flagged_applyAll (ops : List Op) : (applyAll py secret ops .init).tables.Flagged := by
  induction ops using List.reverseRecOn with
  | nil => exact nofun
  | append_singleton ops op ih =>
    rw [applyAll_append]
    exact flagged_apply ih op

/-! ## One call -/

theorem key_eq {r r' : FingerprintRow} : r.key = r'.key ↔ r.fingerprint = r'.fingerprint ∧
    r.documentId = r'.documentId ∧ r.documentVersion = r'.documentVersion := by
  simp [FingerprintRow.key]

theorem upsertDocument_keys (t : Tables) (d v : String) (authorized : Bool) :
    (t.upsertDocument d v authorized).fingerprints.map (·.key) = t.fingerprints.map (·.key) := by
  obtain heq | heq := upsertDocument_fingerprints t d v authorized
  · rw [heq]
  · rw [heq, sweep_keys]

theorem insertOrIgnore_keys {row : FingerprintRow} {k : String × String × String} :
    k ∈ (t.insertOrIgnore row).fingerprints.map (·.key) ↔
      k ∈ t.fingerprints.map (·.key) ∨ k = row.key := by
  simp only [List.mem_map, mem_insertOrIgnore]
  constructor
  · rintro ⟨r, hr | ⟨rfl, -⟩, rfl⟩
    · exact .inl ⟨r, hr, rfl⟩
    · exact .inr rfl
  · rintro (⟨r, hr, rfl⟩ | rfl)
    · exact ⟨r, .inl hr, rfl⟩
    · by_cases hheld : ∃ r ∈ t.fingerprints, r.key = row.key
      · obtain ⟨r, hr, hkey⟩ := hheld
        exact ⟨r, .inl hr, hkey⟩
      · exact ⟨row, .inr ⟨rfl, fun r hr hkey => hheld ⟨r, hr, hkey⟩⟩, rfl⟩

/-- Keys are never lost, so a document that does not have the fingerprint never had it. -/
theorem unowned_of_keys {t' : Tables}
    (hkeys : ∀ k ∈ t.fingerprints.map (·.key), k ∈ t'.fingerprints.map (·.key))
    (h : ∀ r ∈ t'.fingerprints, r.fingerprint = fp → r.documentId ≠ d) :
    ∀ r ∈ t.fingerprints, r.fingerprint = fp → r.documentId ≠ d := by
  intro r hr hfp
  obtain ⟨r', hr', hkey⟩ := List.mem_map.mp (hkeys r.key (List.mem_map_of_mem hr))
  obtain ⟨hfp', hid, -⟩ := key_eq.mp hkey
  exact hid ▸ h r' hr' (hfp'.trans hfp)

/-- The rows of a fingerprint that the document does not have. -/
theorem upsertDocument_rows (authorized : Bool)
    (h : ∀ r ∈ t.fingerprints, r.fingerprint = fp → r.documentId ≠ d) :
    (t.upsertDocument d v authorized).fingerprints.filter (fun r => r.fingerprint = fp) =
      t.fingerprints.filter fun r => r.fingerprint = fp := by
  obtain heq | heq := upsertDocument_fingerprints t d v authorized
  · rw [heq]
  · have hcomp : ((fun r : FingerprintRow => decide (r.fingerprint = fp)) ∘ fun r =>
        if Tables.isOther d v r then { r with superseded := 1 } else r) =
        fun r => decide (r.fingerprint = fp) := by
      funext r
      simp only [Function.comp_apply]
      split_ifs <;> rfl
    rw [heq, Tables.sweep, List.filter_map, hcomp]
    refine (List.map_congr_left fun r hr => ?_).trans (List.map_id _)
    obtain ⟨hr, hfp⟩ := List.mem_filter.mp hr
    exact if_neg (by simp [Tables.isOther, h r hr (of_decide_eq_true hfp)])

/-- A call on a document leaves what is joined with a fingerprint that the document does not have. -/
theorem joined_add {row : FingerprintRow} (authorized : Bool) (hrow : row.documentId = d)
    (h : ∀ r ∈ ((t.upsertDocument d v authorized).insertOrIgnore row).fingerprints,
      r.fingerprint = fp → r.documentId ≠ d) :
    ((t.upsertDocument d v authorized).insertOrIgnore row).joined fp = t.joined fp := by
  have hold : ∀ r ∈ t.fingerprints, r.fingerprint = fp → r.documentId ≠ d := by
    refine unowned_of_keys (fun k hk => ?_) h
    rw [insertOrIgnore_keys, upsertDocument_keys]
    exact .inl hk
  have hrows : ((t.upsertDocument d v authorized).insertOrIgnore row).fingerprints.filter
      (fun r => r.fingerprint = fp) = t.fingerprints.filter fun r => r.fingerprint = fp := by
    rw [← upsertDocument_rows authorized hold]
    by_cases hheld : ∃ r ∈ (t.upsertDocument d v authorized).fingerprints, r.key = row.key
    · rw [insertOrIgnore_held hheld]
    · have hne : row.fingerprint ≠ fp := by
        intro hfp
        refine h row (mem_insertOrIgnore.mpr (.inr ⟨rfl, ?_⟩)) hfp hrow
        exact fun r hr hkey => hheld ⟨r, hr, hkey⟩
      rw [Tables.insertOrIgnore, if_neg fun hany => hheld (any_key.mp hany), List.filter_append]
      simp [hne]
  unfold Tables.joined
  rw [hrows]
  refine List.flatMap_congr fun r hr => ?_
  obtain ⟨hr, hfp⟩ := List.mem_filter.mp hr
  have hdocs : ((t.upsertDocument d v authorized).insertOrIgnore row).docOf r.documentId =
      t.docOf r.documentId := by
    rw [docOf_insertOrIgnore, docOf_upsert_other authorized (hold r hr (of_decide_eq_true hfp))]
  unfold Tables.docOf at hdocs
  rw [hdocs]

/-! ## The calls of an ingest -/

/-- The tables after calls that stored these fingerprints at one new version of the document. -/
structure Ingested (py : Stdlib) (secret : Bytes) (t₀ : Tables) (d v : String) (done : List String)
    (t : Tables) : Prop where
  consistent : Consistent py secret t
  flagged : t.Flagged
  current : done ≠ [] → ⟨d, 1, v⟩ ∈ t.documents
  fresh : ∀ r ∈ t.fingerprints, r.documentId = d → r.documentVersion = v → r.superseded = 0
  keys : ∀ k, k ∈ t.fingerprints.map (·.key) ↔
    k ∈ t₀.fingerprints.map (·.key) ∨ ∃ fp ∈ done, k = (fp, d, v)
  frame : ∀ fp, (∀ r ∈ t.fingerprints, r.fingerprint = fp → r.documentId ≠ d) →
    t.joined fp = t₀.joined fp

theorem ingested_nil (hc : Consistent py secret t₀) (hf : t₀.Flagged)
    (hnew : ∀ r ∈ t₀.fingerprints, r.documentId = d → r.documentVersion ≠ v) :
    Ingested py secret t₀ d v [] t₀ where
  consistent := hc
  flagged := hf
  current h := absurd rfl h
  fresh r hr hid hv := absurd hv (hnew r hr hid)
  keys k := by simp
  frame _ _ := rfl

/-- The call stores the fingerprint at the version. -/
theorem Ingested.add {conn conn' : Connection} {now : String} {a : AddArgs}
    (h : Ingested py secret t₀ a.documentId a.documentVersion done conn.tables)
    (ha : a.authorized = true) (hstep : step py secret conn (.add now a) = .ok conn') :
    Ingested py secret t₀ a.documentId a.documentVersion (done ++ [a.fingerprint]) conn'.tables := by
  have hconsistent := step_consistent h.consistent hstep
  obtain ⟨payload, -, rfl⟩ := step_add hstep
  set t := conn.tables
  set u := t.upsertDocument a.documentId a.documentVersion a.authorized
  set row := a.row py secret now payload
  have hkeys (k : String × String × String) : k ∈ (u.insertOrIgnore row).fingerprints.map (·.key) ↔
      k ∈ t.fingerprints.map (·.key) ∨ k = (a.fingerprint, a.documentId, a.documentVersion) := by
    rw [insertOrIgnore_keys, upsertDocument_keys]
    rfl
  refine ⟨hconsistent, (h.flagged.upsert _ _ _).insert rfl, fun _ => ?_, ?_, fun k => ?_, ?_⟩
  · change _ ∈ (u.insertOrIgnore row).documents
    rw [insertOrIgnore_documents]
    exact (mem_upsertDocument h.consistent).mpr (.inl (by rw [ha]; rfl))
  · intro r hr hid hv
    obtain hr | ⟨rfl, -⟩ := mem_insertOrIgnore.mp hr
    · obtain heq | heq := upsertDocument_fingerprints t a.documentId a.documentVersion a.authorized
      · exact h.fresh r (heq ▸ hr) hid hv
      · obtain ⟨r0, h0, ⟨rfl, -⟩ | ⟨rfl, hother⟩⟩ := mem_sweep (heq ▸ hr)
        · exact h.fresh r h0 hid hv
        · exact absurd hv (of_decide_eq_true hother).2
    · rfl
  · change k ∈ (u.insertOrIgnore row).fingerprints.map (·.key) ↔ _
    rw [hkeys, h.keys]
    simp only [List.mem_append, List.mem_singleton, or_and_right, exists_or, exists_eq_left]
    exact or_assoc
  · intro fp hfp
    have hrow : row.documentId = a.documentId := rfl
    have hjoined : (u.insertOrIgnore row).joined fp = t.joined fp :=
      joined_add a.authorized hrow hfp
    exact hjoined.trans (h.frame fp (unowned_of_keys (fun k hk => (hkeys k).mpr (.inl hk)) hfp))

/-- A call whose row is there already, at the document's version, leaves the tables. -/
theorem Ingested.again {conn : Connection} {now : String} {a : AddArgs}
    (h : Ingested py secret t₀ a.documentId a.documentVersion done conn.tables)
    (ha : a.authorized = true) (hdone : a.fingerprint ∈ done) :
    (Sqlite.add py secret conn now a).2.tables = conn.tables := by
  have hdoc : (⟨a.documentId, sqlFlag a.authorized, a.documentVersion⟩ : DocumentRow) ∈
      conn.tables.documents := by
    rw [ha]
    exact h.current (List.ne_nil_of_mem hdone)
  have hupsert := (upsertDocument_self h.consistent).mpr hdoc
  cases hadd : (Sqlite.add py secret conn now a).1 with
  | ok u =>
    obtain ⟨payload, -, heq⟩ := step_add (add_returned hadd)
    obtain ⟨r, hr, hkey⟩ := List.mem_map.mp ((h.keys _).mpr (.inr ⟨a.fingerprint, hdone, rfl⟩))
    rw [heq, hupsert]
    exact insertOrIgnore_held ⟨r, hr, hkey⟩
  | error e =>
    obtain heq | heq := add_raised hadd
    · rw [heq]
    · rw [heq]
      exact hupsert

/-! ## What the index then says -/

variable {conn : Connection} (plan : QueryPlan)

/-- The document's row decides for every fingerprint that no other document has. -/
theorem Ingested.owned (h : Ingested py secret t₀ d v done conn.tables) (hdone : done ≠ [])
    (howner : ∀ r ∈ conn.tables.fingerprints, r.fingerprint = fp → r.documentId = d)
    (hheld : ∃ r ∈ conn.tables.fingerprints, r.fingerprint = fp) :
    ∃ r ∈ conn.tables.fingerprints, r.fingerprint = fp ∧
      (∀ r' ∈ conn.tables.fingerprints, r'.fingerprint = fp → r.superseded ≤ r'.superseded) ∧
      verify py secret plan conn fp = .ok (if r.superseded = 0 then .verified else .stale) := by
  rw [verify_eq plan fp h.consistent]
  cases hl : lookup plan conn fp with
  | none => exact absurd hheld ((lookup_none plan h.consistent).mp hl)
  | some entry =>
    obtain ⟨row, hrow, rfl, hleast⟩ := lookup_least hl
    obtain ⟨hr, hfp, hd, hid⟩ := mem_joined.mp hrow
    have hdoc : row.2 = ⟨d, 1, v⟩ :=
      h.consistent.document_eq hd (h.current hdone) (hid.trans (howner row.1 hr hfp))
    refine ⟨row.1, hr, hfp, fun r' hr' hfp' => ?_, ?_⟩
    · obtain ⟨e, he, heid⟩ := List.mem_map.mp (h.consistent.owner r' hr')
      obtain hlt | ⟨heq, -⟩ := hleast (r', e) (mem_joined.mpr ⟨hr', hfp', he, heid⟩)
      · exact hlt.le
      · exact heq.le
    · simp only [entryOf, hdoc]
      by_cases hs : row.1.superseded = 0 <;> simp [hs]

theorem Ingested.verified (h : Ingested py secret t₀ d v done conn.tables) (hfp : fp ∈ done)
    (howner : ∀ r ∈ conn.tables.fingerprints, r.fingerprint = fp → r.documentId = d) :
    verify py secret plan conn fp = .ok .verified := by
  obtain ⟨r, hr, hkey⟩ := List.mem_map.mp ((h.keys _).mpr (.inr ⟨fp, hfp, rfl⟩))
  simp only [FingerprintRow.key, Prod.mk.injEq] at hkey
  obtain ⟨r', hr', -, hleast, hverify⟩ :=
    h.owned plan (List.ne_nil_of_mem hfp) howner ⟨r, hr, hkey.1⟩
  have hzero : r'.superseded = 0 :=
    le_antisymm (h.fresh r hr hkey.2.1 hkey.2.2 ▸ hleast r hr hkey.1) (h.flagged r' hr')
  rw [hverify, if_pos hzero]

theorem Ingested.stale (h : Ingested py secret t₀ d v done conn.tables) (hdone : done ≠ [])
    (howner : ∀ r ∈ conn.tables.fingerprints, r.fingerprint = fp → r.documentId = d)
    (hheld : ∃ r ∈ conn.tables.fingerprints, r.fingerprint = fp)
    (holder : ∀ r ∈ conn.tables.fingerprints, r.fingerprint = fp → r.documentVersion ≠ v) :
    verify py secret plan conn fp = .ok .stale := by
  obtain ⟨r, hr, hfp, -, hverify⟩ := h.owned plan hdone howner hheld
  rw [hverify, if_neg fun hs => holder r hr hfp
    (h.consistent.current r hr _ (h.current hdone) (howner r hr hfp).symm hs)]

/-- No other document has got a row. -/
theorem Ingested.foreign (h : Ingested py secret t₀ d v done t) {r : FingerprintRow}
    (hr : r ∈ t.fingerprints) (hid : r.documentId ≠ d) :
    ∃ r₀ ∈ t₀.fingerprints, r₀.fingerprint = r.fingerprint ∧ r₀.documentId ≠ d := by
  obtain hk | ⟨fp, -, hk⟩ := (h.keys r.key).mp (List.mem_map_of_mem hr)
  · obtain ⟨r₀, h₀, hkey⟩ := List.mem_map.mp hk
    obtain ⟨hfp, hid', -⟩ := key_eq.mp hkey
    exact ⟨r₀, h₀, hfp, hid' ▸ hid⟩
  · exact absurd (congrArg (·.2.1) hk) hid

end

end Sqlite

namespace ProvenexIngestor

open Sqlite Effect
open Guard (buildAll)

section

variable {py : Stdlib} {secret : Bytes} {clock : ℕ → String} {t₀ : Tables} {d v : String}
  {done : List String} {s s' : Ingesting} {fingerprinter : Fingerprinter} {total total' : ℕ}

/-! ## The loop -/

theorem addFingerprint_ok {a : AddArgs} {u : Unit}
    (h : addFingerprint py secret clock a s = .ok u s') :
    step py secret s.conn (.add (clock s.reads) a) = .ok s'.conn := by
  unfold addFingerprint at h
  split at h
  · next heq =>
    obtain ⟨-, rfl⟩ := EStateM.Result.ok.inj h
    rw [step, heq]
  · cases h

theorem addWindow_run {authorized : Bool} {chunkFp : String} {w : Fingerprint}
    (h : addWindow py secret clock d v authorized chunkFp total w s = .ok total' s') :
    w.fingerprint = chunkFp ∧ s' = s ∨ w.fingerprint ≠ chunkFp ∧
      step py secret s.conn (.add (clock s.reads)
        ⟨w.fingerprint, d, v, w.offset, w.length, authorized⟩) = .ok s'.conn := by
  unfold addWindow at h
  split_ifs at h with hw
  · exact .inl ⟨hw, (pure_ok.mp h).2.symm⟩
  · obtain ⟨u, m, hadd, h⟩ := bind_ok.mp h
    obtain ⟨-, rfl⟩ := pure_ok.mp h
    exact .inr ⟨hw, addFingerprint_ok hadd⟩

theorem addChunk_run {authorized : Bool} {chunk : RetrievedItem}
    (h : addChunk py secret clock fingerprinter d v authorized total chunk s = .ok total' s') :
    ∃ text result m, documentText chunk = .ok text ∧ fingerprinter.fingerprint py text = .ok result ∧
      step py secret s.conn (.add (clock s.reads)
        ⟨fingerprinter.fingerprintChunk py text, d, v, 0, text.length, authorized⟩) =
        .ok m.conn ∧
      forEach result.fingerprints (total + 1) (addWindow py secret clock d v authorized
        (fingerprinter.fingerprintChunk py text)) m = .ok total' s' := by
  unfold addChunk at h
  obtain ⟨text, m, hlift, h⟩ := bind_ok.mp h
  obtain ⟨htext, rfl⟩ := lift_ok.mp hlift
  obtain ⟨u, m, hadd, h⟩ := bind_ok.mp h
  obtain ⟨result, m', hlift, h⟩ := bind_ok.mp h
  obtain ⟨hresult, rfl⟩ := lift_ok.mp hlift
  exact ⟨text, result, m, htext, hresult, addFingerprint_ok hadd, h⟩

/-- What an ingest that returns has done. -/
theorem ingest_run {r : ProvenexIngestor} {documents : List RetrievedItem} {authorized : Bool}
    {result : IngestionResult} (h : r.ingest py secret clock documents d authorized s = .ok result s') :
    ∃ texts full total, buildAll documents documentText = .ok texts ∧
      (r.fingerprinter.getD .default).fingerprint py (joinWith "\n" texts) = .ok full ∧
      result.documentVersion = full.documentVersion ∧
      forEach documents 0 (addChunk py secret clock (r.fingerprinter.getD .default) d
        full.documentVersion authorized) s = .ok total s' := by
  unfold ingest at h
  obtain ⟨texts, m, hlift, h⟩ := bind_ok.mp h
  obtain ⟨htexts, rfl⟩ := lift_ok.mp hlift
  obtain ⟨full, m, hlift, h⟩ := bind_ok.mp h
  obtain ⟨hfull, rfl⟩ := lift_ok.mp hlift
  obtain ⟨total, m, hloop, h⟩ := bind_ok.mp h
  obtain ⟨rfl, rfl⟩ := pure_ok.mp h
  exact ⟨texts, full, total, htexts, hfull, rfl, hloop⟩

/-- The fingerprints of a document are among these. -/
def Covered (py : Stdlib) (fingerprinter : Fingerprinter) (done : List String)
    (doc : RetrievedItem) : Prop :=
  ∀ text, documentText doc = .ok text → fingerprinter.fingerprintChunk py text ∈ done ∧
    ∀ result, fingerprinter.fingerprint py text = .ok result →
      ∀ w ∈ result.fingerprints, w.fingerprint ∈ done

theorem Covered.mono {done' : List String} {doc : RetrievedItem}
    (h : Covered py fingerprinter done doc) (hsub : done ⊆ done') :
    Covered py fingerprinter done' doc :=
  fun text htext => ⟨hsub (h text htext).1, fun result hresult w hw => hsub ((h text htext).2 result hresult w hw)⟩

theorem addWindow_ok {chunkFp : String} {w : Fingerprint}
    (hs : Ingested py secret t₀ d v done s.conn.tables) (hchunk : chunkFp ∈ done)
    (h : addWindow py secret clock d v true chunkFp total w s = .ok total' s') :
    ∃ done', done ⊆ done' ∧ w.fingerprint ∈ done' ∧
      Ingested py secret t₀ d v done' s'.conn.tables := by
  rcases addWindow_run h with ⟨hw, rfl⟩ | ⟨-, hadd⟩
  · exact ⟨done, List.Subset.refl done, hw ▸ hchunk, hs⟩
  · have hnext := hs.add (a := ⟨w.fingerprint, d, v, w.offset, w.length, true⟩) rfl hadd
    exact ⟨_, List.subset_append_left _ _, by simp, hnext⟩

theorem addChunk_ok {chunk : RetrievedItem} (hs : Ingested py secret t₀ d v done s.conn.tables)
    (h : addChunk py secret clock fingerprinter d v true total chunk s = .ok total' s') :
    ∃ done', done ⊆ done' ∧ done' ≠ [] ∧ Covered py fingerprinter done' chunk ∧
      Ingested py secret t₀ d v done' s'.conn.tables := by
  obtain ⟨text, result, m, htext, hresult, hadd, h⟩ := addChunk_run h
  have hnext := hs.add (a := ⟨fingerprinter.fingerprintChunk py text, d, v, 0, text.length, true⟩) rfl
    hadd
  -- the windows only add to what is stored
  obtain ⟨done', hsub, hwindows, hlast⟩ := forEach_invariant (fun windows _ (s : Ingesting) =>
      ∃ done', done ++ [fingerprinter.fingerprintChunk py text] ⊆ done' ∧
        (∀ w ∈ windows, w.fingerprint ∈ done') ∧ Ingested py secret t₀ d v done' s.conn.tables)
    (fun windows acc s w acc' s' hinv hturn => by
      obtain ⟨done', hsub, hwindows, hs⟩ := hinv
      obtain ⟨done'', hsub', hw, hs'⟩ := addWindow_ok hs (hsub (by simp)) hturn
      refine ⟨done'', List.Subset.trans hsub hsub', fun x hx => ?_, hs'⟩
      obtain hx | hx := List.mem_append.mp hx
      · exact hsub' (hwindows x hx)
      · exact List.mem_singleton.mp hx ▸ hw)
    result.fingerprints [] _ _ m s' ⟨_, List.Subset.refl _, by simp, hnext⟩ h
  have hchunk : fingerprinter.fingerprintChunk py text ∈ done' := hsub (by simp)
  refine ⟨done', List.Subset.trans (List.subset_append_left _ _) hsub, List.ne_nil_of_mem hchunk,
    fun text' htext' => ?_, hlast⟩
  obtain rfl := Except.ok.inj (htext.symm.trans htext')
  refine ⟨hchunk, fun result' hresult' w hw => ?_⟩
  obtain rfl := Except.ok.inj (hresult.symm.trans hresult')
  exact hwindows w hw

theorem ingest_ok {r : ProvenexIngestor} {documents : List RetrievedItem} {result : IngestionResult}
    (hdocs : documents ≠ []) (h : r.ingest py secret clock documents d true s = .ok result s')
    (hs : Ingested py secret t₀ d result.documentVersion [] s.conn.tables) :
    ∃ done, done ≠ [] ∧ (∀ doc ∈ documents, Covered py (r.fingerprinter.getD .default) done doc) ∧
      Ingested py secret t₀ d result.documentVersion done s'.conn.tables := by
  obtain ⟨texts, full, total, -, -, hversion, hloop⟩ := ingest_run h
  rw [hversion] at hs ⊢
  obtain ⟨done, hne, hcovered, hdone⟩ := forEach_invariant (fun docs _ (s : Ingesting) =>
      ∃ done, (docs ≠ [] → done ≠ []) ∧
        (∀ doc ∈ docs, Covered py (r.fingerprinter.getD .default) done doc) ∧
        Ingested py secret t₀ d full.documentVersion done s.conn.tables)
    (fun docs acc s doc acc' s' hinv hturn => by
      obtain ⟨done, -, hcovered, hs⟩ := hinv
      obtain ⟨done', hsub, hne, hdoc, hs'⟩ := addChunk_ok hs hturn
      refine ⟨done', fun _ => hne, fun x hx => ?_, hs'⟩
      obtain hx | hx := List.mem_append.mp hx
      · exact (hcovered x hx).mono hsub
      · exact List.mem_singleton.mp hx ▸ hdoc)
    documents [] _ _ s s' ⟨[], fun h => absurd rfl h, by simp, hs⟩ hloop
  exact ⟨done, hne hdocs, hcovered, hdone⟩

/-! ## The same ingest again -/

theorem addFingerprint_again {conn : Connection} {a : AddArgs}
    (h : Ingested py secret t₀ a.documentId a.documentVersion done conn.tables)
    (ha : a.authorized = true) (hdone : a.fingerprint ∈ done) :
    Keeps (fun s : Ingesting => s.conn.tables = conn.tables) (addFingerprint py secret clock a) := by
  intro s hs
  have hagain : (Sqlite.add py secret s.conn (clock s.reads) a).2.tables = s.conn.tables :=
    Ingested.again (hs ▸ h) ha hdone
  unfold addFingerprint
  generalize Sqlite.add py secret s.conn (clock s.reads) a = outcome at hagain
  obtain ⟨outcome, conn'⟩ := outcome
  cases outcome <;> exact hagain.trans hs

/-- Whether the second call returns or raises, it leaves the tables. -/
theorem ingest_again {r : ProvenexIngestor} {documents : List RetrievedItem} {conn : Connection}
    {version : String} (hversion : ∀ texts full, buildAll documents documentText = .ok texts →
      (r.fingerprinter.getD .default).fingerprint py (joinWith "\n" texts) = .ok full →
      full.documentVersion = version)
    (h : Ingested py secret t₀ d version done conn.tables)
    (hcovered : ∀ doc ∈ documents, Covered py (r.fingerprinter.getD .default) done doc) :
    Keeps (fun s : Ingesting => s.conn.tables = conn.tables)
      (r.ingest py secret clock documents d true) := by
  refine keeps_bind (keeps_lift _) fun texts _ _ htexts => ?_
  refine keeps_bind (keeps_lift _) fun full _ _ hfull => ?_
  obtain rfl := hversion texts full (lift_ok.mp htexts).1 (lift_ok.mp hfull).1
  refine keeps_bind (keeps_forEach (fun chunk hchunk total => ?_) 0) fun _ _ _ _ => keeps_pure _
  refine keeps_bind (keeps_lift _) fun text _ _ htext => ?_
  obtain ⟨hfp, hwindows⟩ := hcovered chunk hchunk text (lift_ok.mp htext).1
  refine keeps_bind (addFingerprint_again (a := ⟨_, d, full.documentVersion, 0, text.length, true⟩)
    h rfl hfp) fun _ _ _ _ => ?_
  refine keeps_bind (keeps_lift _) fun result _ _ hresult => ?_
  refine keeps_forEach (fun w hw total => ?_) _
  unfold addWindow
  split_ifs
  · exact keeps_pure _
  · exact keeps_bind (addFingerprint_again
      (a := ⟨w.fingerprint, d, full.documentVersion, w.offset, w.length, true⟩) h rfl
      (hwindows result (lift_ok.mp hresult).1 w hw)) fun _ _ _ _ => keeps_pure _

/-- The version of the documents is a function of their texts. -/
theorem ingest_version {r : ProvenexIngestor} {documents : List RetrievedItem}
    {result : IngestionResult} {authorized : Bool}
    (h : r.ingest py secret clock documents d authorized s = .ok result s') (texts : List String)
    (full : FingerprintingResult) (htexts : buildAll documents documentText = .ok texts)
    (hfull : (r.fingerprinter.getD .default).fingerprint py (joinWith "\n" texts) = .ok full) :
    full.documentVersion = result.documentVersion := by
  obtain ⟨texts', full', -, htexts', hfull', hversion, -⟩ := ingest_run h
  obtain rfl := Except.ok.inj (htexts'.symm.trans htexts)
  rw [hversion, Except.ok.inj (hfull.symm.trans hfull')]

end

end ProvenexIngestor

/-- The chunks of one ingest, by the fingerprint that is looked up for them. -/
def IngestedChunk (py : Stdlib) (r : ProvenexIngestor) (documents : List RetrievedItem)
    (fp : String) : Prop :=
  ∃ doc ∈ documents, ∃ text, ProvenexIngestor.documentText doc = .ok text ∧
    fp = (r.fingerprinter.getD .default).fingerprintChunk py text

/-- After an ingest at a new version, over any history: its chunks are verified, what only older
versions have is stale, what the document does not have is as before, and the same ingest again
changes nothing. -/
theorem ingest_outcomes (py : Stdlib) (secret : Bytes) (clock : ℕ → String)
    (plan : Sqlite.QueryPlan) (history : List Sqlite.Op) (r : ProvenexIngestor)
    (documents : List RetrievedItem) (hdocs : documents ≠ []) (d : String) (reads : ℕ)
    (result : IngestionResult) (s : Ingesting)
    (h : r.ingest py secret clock documents d true
      ⟨Sqlite.applyAll py secret history .init, reads⟩ = .ok result s)
    (hnew : ∀ row ∈ (Sqlite.applyAll py secret history .init).tables.fingerprints,
      row.documentId = d → row.documentVersion ≠ result.documentVersion)
    (hforeign : ∀ row ∈ (Sqlite.applyAll py secret history .init).tables.fingerprints,
      row.documentId ≠ d → ¬ IngestedChunk py r documents row.fingerprint ∧
        ∀ row' ∈ (Sqlite.applyAll py secret history .init).tables.fingerprints,
          row'.documentId = d → row'.fingerprint ≠ row.fingerprint) :
    (∀ fp, IngestedChunk py r documents fp →
      Sqlite.verify py secret plan s.conn fp = .ok .verified) ∧
    (∀ fp, (∃ row ∈ s.conn.tables.fingerprints, row.documentId = d ∧ row.fingerprint = fp) →
      (∀ row ∈ s.conn.tables.fingerprints, row.documentId = d → row.fingerprint = fp →
        row.documentVersion ≠ result.documentVersion) →
      Sqlite.verify py secret plan s.conn fp = .ok .stale) ∧
    (∀ fp, (∀ row ∈ s.conn.tables.fingerprints, row.fingerprint = fp → row.documentId ≠ d) →
      Sqlite.verify py secret plan s.conn fp =
        Sqlite.verify py secret plan (Sqlite.applyAll py secret history .init) fp) ∧
    ∀ fp, Sqlite.verify py secret plan
        (Effect.stateOf (r.ingest py secret clock documents d true s)).conn fp =
      Sqlite.verify py secret plan s.conn fp := by
  set t₀ := (Sqlite.applyAll py secret history .init).tables
  have hstart : Sqlite.Ingested py secret t₀ d result.documentVersion [] t₀ :=
    Sqlite.ingested_nil (Sqlite.applyAll_consistent history Sqlite.consistent_init)
      (Sqlite.flagged_applyAll history) hnew
  obtain ⟨done, hne, hcovered, hdone⟩ := ProvenexIngestor.ingest_ok hdocs h hstart
  refine ⟨fun fp hfp => ?_, fun fp hheld holder => ?_, fun fp hfp => ?_, fun fp => ?_⟩
  · obtain ⟨doc, hdoc, text, htext, rfl⟩ := hfp
    refine hdone.verified plan (hcovered doc hdoc text htext).1 fun row hrow hfp => ?_
    by_contra hid
    obtain ⟨row₀, h₀, hfp₀, hid₀⟩ := hdone.foreign hrow hid
    exact (hforeign row₀ h₀ hid₀).1 ⟨doc, hdoc, text, htext, hfp₀.trans hfp⟩
  · obtain ⟨row, hrow, hid, rfl⟩ := hheld
    -- the row is not new, so no other document has its fingerprint
    have howner : ∀ r ∈ s.conn.tables.fingerprints, r.fingerprint = row.fingerprint →
        r.documentId = d := by
      intro r hr hfp
      by_contra hne
      obtain ⟨r₀, h₀, hfp₀, hid₀⟩ := hdone.foreign hr hne
      obtain hkey | ⟨fp, -, hkey⟩ := (hdone.keys row.key).mp (List.mem_map_of_mem hrow)
      · obtain ⟨row₀, hrow₀, hkey⟩ := List.mem_map.mp hkey
        obtain ⟨hrfp, hrid, -⟩ := Sqlite.key_eq.mp hkey
        exact (hforeign r₀ h₀ hid₀).2 row₀ hrow₀ (hrid.trans hid)
          (hrfp.trans (hfp₀.trans hfp).symm)
      · exact holder row hrow hid rfl (congrArg (·.2.2) hkey)
    exact hdone.stale plan hne howner ⟨row, hrow, rfl⟩ fun r hr hfp =>
      holder r hr (howner r hr hfp) hfp
  · rw [Sqlite.verify, Sqlite.verify, Sqlite.lookup, Sqlite.lookup, hdone.frame fp hfp]
  · have hagain : (Effect.stateOf (r.ingest py secret clock documents d true s)).conn.tables =
        s.conn.tables :=
      ProvenexIngestor.ingest_again (ProvenexIngestor.ingest_version h) hdone hcovered s rfl
    rw [Sqlite.verify, Sqlite.verify, Sqlite.lookup, Sqlite.lookup, hagain]

/-! The document at one version, ingested at another; the digests are those of SHA-256. -/

namespace Sample

def ingestor : ProvenexIngestor := ⟨none⟩

def ingestClock (n : ℕ) : String := if n = 0 then "2024-01-01" else "2024-01-02"

def olderVersion : List Sqlite.Op := [.add "2023-12-31" ⟨"sha256:aa", "doc", "sha256:01", 0, 5, true⟩]

end Sample

theorem ingest_outcomes_sample :
    ∃ result s, Sample.ingestor.ingest Sample.gatePy [107] Sample.ingestClock [.text "a"] "doc" true
        ⟨Sqlite.applyAll Sample.gatePy [107] Sample.olderVersion .init, 0⟩ = .ok result s ∧
      Sqlite.verify Sample.gatePy [107] Sample.gatePlan s.conn "sha256:aa" = .ok .stale := by
  have howner : ∀ row ∈ (Sqlite.applyAll Sample.gatePy [107] Sample.olderVersion
      .init).tables.fingerprints, row.documentId = "doc" := by decide +kernel
  refine ⟨_, _, rfl, ?_⟩
  refine (ingest_outcomes Sample.gatePy [107] Sample.ingestClock Sample.gatePlan Sample.olderVersion
    Sample.ingestor [.text "a"] (by simp) "doc" 0 _ _ rfl ?_ ?_).2.1 "sha256:aa" ?_ ?_
  · decide +kernel
  · exact fun row hrow hne => absurd (howner row hrow) hne
  · decide +kernel
  · decide +kernel

end Provenex
