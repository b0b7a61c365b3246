import Provenex.Proofs.Rechunking

/-! Where stored coordinates point. An ingest keeps one row for each fingerprint,
with the coordinates of the first call that adds it: for a chunk the start of the
document and the length of the raw text, for a window its place in the chunk. So
they hold in the joined document where every new chunk is the start of it. -/

namespace Provenex

/-- What one call of `add` says of a row of the document. -/
structure Placed where
  fingerprint : String
  offset : ℕ
  length : ℕ
  deriving DecidableEq, Repr

/-- The calls whose rows are kept: the first for each fingerprint. -/
def kept (calls : List Placed) : List Placed :=
  calls.foldl (fun acc p => if acc.any fun q => q.fingerprint = p.fingerprint then acc else acc ++ [p]) []

theorem kept_snoc (calls : List Placed) (p : Placed) :
    kept (calls ++ [p]) =
      if (kept calls).any fun q => q.fingerprint = p.fingerprint then kept calls else kept calls ++ [p] := by
  rw [kept, List.foldl_append]
  rfl

theorem kept_fingerprint {calls : List Placed} {fp : String} :
    (∃ q ∈ kept calls, q.fingerprint = fp) ↔ ∃ q ∈ calls, q.fingerprint = fp := by
  induction calls using List.reverseRecOn with
  | nil => rfl
  | append_singleton calls p ih =>
    rw [kept_snoc]
    split_ifs with hany
    · rw [ih]
      simp only [List.any_eq_true, decide_eq_true_eq] at hany
      constructor
      · rintro ⟨q, hq, hfp⟩
        exact ⟨q, List.mem_append_left _ hq, hfp⟩
      · rintro ⟨q, hq, hfp⟩
        rcases List.mem_append.mp hq with hq | hq
        · exact ⟨q, hq, hfp⟩
        · rw [List.mem_singleton.mp hq] at hfp
          rwa [← ih, ← hfp]
    · simp only [List.mem_append, or_and_right, exists_or, ih]

/-- A kept call is the first with its fingerprint. -/
theorem mem_kept {calls : List Placed} {p : Placed} :
    p ∈ kept calls ↔ ∃ before after, calls = before ++ p :: after ∧
      ∀ q ∈ before, q.fingerprint ≠ p.fingerprint := by
  induction calls using List.reverseRecOn with
  | nil => simp [kept]
  | append_singleton calls p' ih =>
    have hany : ((kept calls).any fun q => q.fingerprint = p'.fingerprint) = true ↔
        ∃ q ∈ calls, q.fingerprint = p'.fingerprint := by
      rw [← kept_fingerprint]
      simp
    constructor
    · intro hp
      have hold (hp : p ∈ kept calls) : ∃ before after, calls ++ [p'] = before ++ p :: after ∧
          ∀ q ∈ before, q.fingerprint ≠ p.fingerprint := by
        obtain ⟨before, after, rfl, hbefore⟩ := ih.mp hp
        exact ⟨before, after ++ [p'], by simp, hbefore⟩
      rw [kept_snoc] at hp
      split_ifs at hp with h
      · exact hold hp
      · rcases List.mem_append.mp hp with hp | hp
        · exact hold hp
        · obtain rfl := List.mem_singleton.mp hp
          exact ⟨calls, [], rfl, fun q hq hfp => h (hany.mpr ⟨q, hq, hfp⟩)⟩
    · rintro ⟨before, after, heq, hbefore⟩
      rw [kept_snoc]
      rcases List.eq_nil_or_concat after with rfl | ⟨after, last, rfl⟩
      · obtain ⟨rfl, hlast⟩ := List.append_inj' heq rfl
        obtain rfl := List.singleton_inj.mp hlast
        rw [if_neg fun h => (hany.mp h).elim fun q hq => hbefore q hq.1 hq.2]
        exact List.mem_append_right _ (List.mem_singleton_self _)
      · rw [List.concat_eq_append, ← List.cons_append, ← List.append_assoc] at heq
        have hp : p ∈ kept calls := ih.mpr ⟨before, after, (List.append_inj' heq rfl).1, hbefore⟩
        split_ifs
        · exact hp
        · exact List.mem_append_left _ hp

namespace Sqlite

section

variable {py : Stdlib} {secret : Bytes} {t : Tables} {d v : String}

/-- The rows of a document: fingerprint, version, offset and length. -/
def rowsOf (d : String) (t : Tables) : List (String × String × ℤ × ℤ) :=
  (t.fingerprints.filter fun r => r.documentId = d).map fun r =>
    (r.fingerprint, r.documentVersion, r.chunkOffset, r.chunkLength)

theorem rowsOf_upsert (t : Tables) (d' v : String) (authorized : Bool) :
    rowsOf d (t.upsertDocument d' v authorized) = rowsOf d t := by
  obtain heq | heq := upsertDocument_fingerprints t d' v authorized
  · rw [rowsOf, heq, rowsOf]
  · have hflag (r : FingerprintRow) (p : Bool) :
        (if p then { r with superseded := 1 } else r).documentId = r.documentId ∧
          (if p then { r with superseded := 1 } else r).fingerprint = r.fingerprint ∧
          (if p then { r with superseded := 1 } else r).documentVersion = r.documentVersion ∧
          (if p then { r with superseded := 1 } else r).chunkOffset = r.chunkOffset ∧
          (if p then { r with superseded := 1 } else r).chunkLength = r.chunkLength := by
      cases p <;> exact ⟨rfl, rfl, rfl, rfl, rfl⟩
    rw [rowsOf, heq, rowsOf, Tables.sweep, List.filter_map, List.map_map]
    simp only [Function.comp_def, hflag]

theorem rowsOf_held {row : FingerprintRow} (h : ∃ r ∈ t.fingerprints, r.key = row.key) :
    rowsOf d (t.insertOrIgnore row) = rowsOf d t := by
  rw [Tables.insertOrIgnore, if_pos (any_key.mpr h)]

theorem rowsOf_new {row : FingerprintRow} (h : ¬ ∃ r ∈ t.fingerprints, r.key = row.key)
    (hid : row.documentId = d) :
    rowsOf d (t.insertOrIgnore row) =
      rowsOf d t ++ [(row.fingerprint, row.documentVersion, row.chunkOffset, row.chunkLength)] := by
  rw [Tables.insertOrIgnore, if_neg (any_key.not.mpr h), rowsOf, List.filter_append, List.map_append]
  simp [rowsOf, hid]

/-- The rows of a document that an ingest at version `v` has written, and no others. -/
def Holds (d v : String) (t : Tables) (calls : List Placed) : Prop :=
  rowsOf d t = (kept calls).map fun p => (p.fingerprint, v, (p.offset : ℤ), (p.length : ℤ))

theorem Holds.held {calls : List Placed} (h : Holds d v t calls) {fp : String} :
    (∃ r ∈ t.fingerprints, r.key = (fp, d, v)) ↔ ∃ q ∈ kept calls, q.fingerprint = fp := by
  have hrow (c : String × String × ℤ × ℤ) : c ∈ rowsOf d t ↔
      ∃ q ∈ kept calls, (q.fingerprint, v, (q.offset : ℤ), (q.length : ℤ)) = c := by rw [h, List.mem_map]
  constructor
  · rintro ⟨r, hr, hkey⟩
    obtain ⟨hfp, hkey⟩ := Prod.mk.inj hkey
    have hmem : (r.fingerprint, r.documentVersion, r.chunkOffset, r.chunkLength) ∈ rowsOf d t :=
      List.mem_map_of_mem (List.mem_filter.mpr ⟨hr, decide_eq_true (Prod.mk.inj hkey).1⟩)
    obtain ⟨q, hq, heq⟩ := (hrow _).mp hmem
    exact ⟨q, hq, (Prod.mk.inj heq).1.trans hfp⟩
  · rintro ⟨q, hq, hfp⟩
    obtain ⟨r, hr, heq⟩ := List.mem_map.mp ((hrow _).mpr ⟨q, hq, rfl⟩)
    obtain ⟨hr, hid⟩ := List.mem_filter.mp hr
    obtain ⟨hrfp, heq⟩ := Prod.mk.inj heq
    refine ⟨r, hr, ?_⟩
    rw [FingerprintRow.key, hrfp, hfp, of_decide_eq_true hid, (Prod.mk.inj heq).1]

theorem Holds.forall_rows {calls : List Placed} (h : Holds d v t calls) (P : String → ℤ → ℤ → Prop) :
    (∀ r ∈ t.fingerprints, r.documentId = d → P r.fingerprint r.chunkOffset r.chunkLength) ↔
      ∀ p ∈ kept calls, P p.fingerprint p.offset p.length := by
  have hrows : (∀ c ∈ rowsOf d t, P c.1 c.2.2.1 c.2.2.2) ↔ ∀ p ∈ kept calls, P p.fingerprint p.offset p.length := by
    rw [h, List.forall_mem_map]
  rw [← hrows, rowsOf, List.forall_mem_map]
  simp only [List.mem_filter, decide_eq_true_eq, and_imp]

theorem Holds.add {conn conn' : Connection} {calls : List Placed} (h : Holds d v conn.tables calls)
    {now : String} {p : Placed} {authorized : Bool}
    (hadd : step py secret conn (.add now ⟨p.fingerprint, d, v, p.offset, p.length, authorized⟩) = .ok conn') :
    Holds d v conn'.tables (calls ++ [p]) := by
  obtain ⟨payload, -, rfl⟩ := step_add hadd
  have hupsert : Holds d v (conn.tables.upsertDocument d v authorized) calls :=
    (rowsOf_upsert conn.tables d v authorized).trans h
  obtain ⟨row, hrow⟩ : ∃ row, row =
    AddArgs.row py secret ⟨p.fingerprint, d, v, p.offset, p.length, authorized⟩ now payload := ⟨_, rfl⟩
  have hheld : (∃ r ∈ (conn.tables.upsertDocument d v authorized).fingerprints, r.key = (p.fingerprint, d, v)) ↔
      ∃ q ∈ kept calls, q.fingerprint = p.fingerprint := hupsert.held
  rw [show (p.fingerprint, d, v) = row.key by rw [hrow]; rfl] at hheld
  unfold Holds
  rw [kept_snoc, Connection.commit, ← hrow]
  by_cases hkept : ∃ q ∈ kept calls, q.fingerprint = p.fingerprint
  · rw [if_pos (by simpa using hkept), rowsOf_held (hheld.mpr hkept)]
    exact hupsert
  · rw [if_neg (by simpa using hkept), rowsOf_new (hheld.not.mpr hkept) (by rw [hrow]; rfl), hupsert,
      List.map_append, hrow]
    rfl

end

end Sqlite

open ProvenexIngestor Effect Sqlite
open Guard (buildAll buildAll_ok)

section

variable (py : Stdlib) {secret : Bytes} {clock : ℕ → String} {d v : String} {authorized : Bool}
  {s s' : Ingesting} {total total' : ℕ}

/-! ## The calls of an ingest -/

/-- The normalized text of a chunk. -/
def normalized (fp : Fingerprinter) (text : String) : String := (normalize py fp.normalization text).text

/-- The calls for a chunk: itself, and the windows that are not the whole of it. -/
def chunkCalls (fp : Fingerprinter) (text : String) : List Placed :=
  ⟨fp.fingerprintChunk py text, 0, text.length⟩ ::
    ((windowSpans (codepoints (normalized py fp text)).length fp.windowSize.toNat fp.stride.toNat).map
      fun span => ⟨sha256Fingerprint py (sliceText (normalized py fp text) span.1 span.2), span.1,
        span.2⟩).filter fun p => p.fingerprint ≠ fp.fingerprintChunk py text

theorem addWindow_holds {chunkFp : String} {w : Fingerprint} {calls : List Placed}
    (h : Holds d v s.conn.tables calls)
    (hadd : addWindow py secret clock d v authorized chunkFp total w s = .ok total' s') :
    Holds d v s'.conn.tables
      (calls ++ [⟨w.fingerprint, w.offset, w.length⟩].filter fun p => p.fingerprint ≠ chunkFp) := by
  rcases addWindow_run hadd with ⟨hw, rfl⟩ | ⟨hw, hcall⟩
  · simpa [hw] using h
  · have hnext := Holds.add h (p := ⟨w.fingerprint, w.offset, w.length⟩) hcall
    simpa [hw] using hnext

theorem addChunk_holds {fp : Fingerprinter} {chunk : RetrievedItem} {calls : List Placed}
    (h : Holds d v s.conn.tables calls)
    (hadd : addChunk py secret clock fp d v authorized total chunk s = .ok total' s') :
    ∃ text, documentText chunk = .ok text ∧ Holds d v s'.conn.tables (calls ++ chunkCalls py fp text) := by
  obtain ⟨text, result, m, htext, hresult, hfirst, hadd⟩ := addChunk_run hadd
  have hnext := Holds.add h (p := ⟨fp.fingerprintChunk py text, 0, text.length⟩) hfirst
  have hwindows := forEach_invariant (fun windows _ (s : Ingesting) => Holds d v s.conn.tables
      (calls ++ [⟨fp.fingerprintChunk py text, 0, text.length⟩] ++
        (windows.map fun w => ⟨w.fingerprint, w.offset, w.length⟩).filter fun p =>
          p.fingerprint ≠ fp.fingerprintChunk py text))
    (fun windows acc s w acc' s' hinv hturn => by
      have hw := addWindow_holds py hinv hturn
      rw [List.append_assoc, ← List.filter_append] at hw
      rwa [List.map_append])
    result.fingerprints [] _ _ _ s' (by simpa using hnext) hadd
  refine ⟨text, htext, ?_⟩
  rw [List.nil_append, (fingerprint_ok py hresult).2, List.map_map, List.append_assoc] at hwindows
  exact hwindows

/-- The rows of an ingested document, which had none, are those of its chunks. -/
theorem ingest_holds {r : ProvenexIngestor} {documents : List RetrievedItem} {texts : List String}
    {result : IngestionResult} (htexts : buildAll documents documentText = .ok texts)
    (hnew : ∀ row ∈ s.conn.tables.fingerprints, row.documentId ≠ d)
    (h : r.ingest py secret clock documents d authorized s = .ok result s') :
    Holds d result.documentVersion s'.conn.tables
      (texts.flatMap (chunkCalls py (r.fingerprinter.getD .default))) := by
  obtain ⟨texts', full, total, -, -, hversion, hloop⟩ := ingest_run h
  rw [hversion]
  have hnone : Holds d full.documentVersion s.conn.tables [] := by
    have hnil : (s.conn.tables.fingerprints.filter fun r => r.documentId = d) = [] :=
      List.filter_eq_nil_iff.mpr fun row hrow => by simpa using hnew row hrow
    unfold Holds rowsOf
    rw [hnil]
    rfl
  obtain ⟨done, hdone, hholds⟩ := forEach_invariant (fun docs _ (s : Ingesting) =>
      ∃ done, List.Forall₂ (fun doc text => documentText doc = .ok text) docs done ∧
        Holds d full.documentVersion s.conn.tables
          (done.flatMap (chunkCalls py (r.fingerprinter.getD .default))))
    (fun docs acc s doc acc' s' hinv hturn => by
      obtain ⟨done, hdone, hholds⟩ := hinv
      obtain ⟨text, htext, hnext⟩ := addChunk_holds py hholds hturn
      refine ⟨done ++ [text], List.rel_append hdone (.cons htext .nil), ?_⟩
      rwa [List.flatMap_append, List.flatMap_singleton])
    documents [] _ _ s s' ⟨[], .nil, hnone⟩ hloop
  obtain rfl := Except.ok.inj (htexts.symm.trans (buildAll_ok.mpr hdone))
  exact hholds

/-! ## What they point at -/

theorem windowSpans_le {n w k : ℕ} {span : ℕ × ℕ} (h : span ∈ windowSpans n w k) :
    span.1 + span.2 ≤ n ∧ span.2 ≤ w ∧ (n ≤ w → span = (0, n)) := by
  unfold windowSpans at h
  split_ifs at h with hzero hshort
  · cases h
  · obtain rfl := List.mem_singleton.mp h
    exact ⟨(Nat.zero_add n).le, hshort, fun _ => rfl⟩
  · obtain ⟨i, hi, rfl⟩ := List.mem_map.mp h
    obtain ⟨m, rfl, hle⟩ := Windows.mem_offsets.mp hi
    exact ⟨by simp only; omega, le_rfl, fun h => absurd h hshort⟩

theorem codepoints_length (text : String) : (codepoints text).length = text.length := by
  rw [codepoints, List.length_map, String.length_toList]

theorem sliceText_length {text : String} {i n : ℕ} (h : i + n ≤ text.length) :
    (sliceText text i n).length = n := by
  rw [← codepoints_length, codepoints_slice]
  exact Windows.slice_length (by rwa [codepoints_length])

/-- A slice that lies in a first part of a text is a slice of that part. -/
theorem sliceText_first {text part : String} {k i n : ℕ} (h : sliceText text 0 k = part)
    (hin : i + n ≤ part.length) : sliceText part i n = sliceText text i n := by
  have hlength : part.length ≤ k := by
    rw [← h, ← String.length_toList, sliceText, String.toList_ofList, List.drop_zero, List.length_take]
    exact min_le_left _ _
  rw [← h, sliceText, sliceText, sliceText, String.toList_ofList, List.drop_zero, List.drop_take,
    List.take_take, min_eq_left (by omega)]

theorem flatMap_split {α β : Type} {f : α → List β} {l : List α} {before after : List β} {p : β}
    (h : l.flatMap f = before ++ p :: after) :
    ∃ l₁ x l₂ b a, l = l₁ ++ x :: l₂ ∧ f x = b ++ p :: a ∧ before = l₁.flatMap f ++ b := by
  induction l generalizing before with
  | nil => simp at h
  | cons x l ih =>
    rw [List.flatMap_cons, List.append_eq_append_iff] at h
    rcases h with ⟨rest, rfl, hrest⟩ | ⟨rest, hfx, hrest⟩
    · obtain ⟨l₁, y, l₂, b, a, rfl, hy, rfl⟩ := ih hrest
      exact ⟨x :: l₁, y, l₂, b, a, rfl, hy, by rw [List.flatMap_cons, List.append_assoc]⟩
    · cases rest with
      | nil =>
        obtain ⟨l₁, y, l₂, b, a, rfl, hy, hb⟩ := @ih [] hrest.symm
        obtain ⟨hnone, rfl⟩ := List.append_eq_nil_iff.mp hb.symm
        exact ⟨x :: l₁, y, l₂, [], a, rfl, hy, by simp [hfx, hnone]⟩
      | cons q rest =>
        obtain ⟨rfl, -⟩ := List.cons.inj hrest
        exact ⟨[], x, l, before, rest, rfl, hfx, rfl⟩

section

variable (py : Stdlib) (fp : Fingerprinter)

/-- The text is cut from the joined document or from a chunk, both normalized. -/
def CutFrom (texts : List String) (s : String) : Prop :=
  ∃ i n, s = sliceText (normalized py fp (joinWith "\n" texts)) i n ∨
    ∃ text ∈ texts, s = sliceText (normalized py fp text) i n

variable {py fp} {texts : List String}

theorem CutFrom.whole {text : String} (h : text ∈ texts) : CutFrom py fp texts (normalized py fp text) :=
  ⟨0, (codepoints (normalized py fp text)).length, Or.inr ⟨text, h, (sliceText_all rfl).symm⟩⟩

/-- What the calls for a chunk add: the chunk, or a proper window of it. -/
theorem mem_chunkCalls {text : String} {p : Placed} (h : p ∈ chunkCalls py fp text) :
    p = ⟨fp.fingerprintChunk py text, 0, text.length⟩ ∨
      ∃ span ∈ windowSpans (codepoints (normalized py fp text)).length fp.windowSize.toNat fp.stride.toNat,
        p = ⟨sha256Fingerprint py (sliceText (normalized py fp text) span.1 span.2), span.1, span.2⟩ ∧
          p.fingerprint ≠ fp.fingerprintChunk py text := by
  rcases List.mem_cons.mp h with rfl | h
  · exact Or.inl rfl
  · obtain ⟨hmap, hne⟩ := List.mem_filter.mp h
    obtain ⟨span, hspan, rfl⟩ := List.mem_map.mp hmap
    exact Or.inr ⟨span, hspan, rfl, of_decide_eq_true hne⟩

/-- A window that is kept belongs to a chunk that is kept: a chunk met before has the same windows,
and a chunk that is a window of one met before has no proper ones. -/
theorem kept_window {before : List String} {text : String} {span : ℕ × ℕ}
    (hsha : ∀ s t, CutFrom py fp texts s → CutFrom py fp texts t → ¬ Collide py s t)
    (hbefore : before ⊆ texts) (htext : text ∈ texts)
    (hspan : span ∈
      windowSpans (codepoints (normalized py fp text)).length fp.windowSize.toNat fp.stride.toNat)
    (hne : sha256Fingerprint py (sliceText (normalized py fp text) span.1 span.2) ≠ fp.fingerprintChunk py text)
    (hfirst : ∀ q ∈ before.flatMap (chunkCalls py fp),
      q.fingerprint ≠ sha256Fingerprint py (sliceText (normalized py fp text) span.1 span.2)) :
    ∀ q ∈ before.flatMap (chunkCalls py fp), q.fingerprint ≠ fp.fingerprintChunk py text := by
  intro q hq heq
  obtain ⟨earlier, hearlier, hq⟩ := List.mem_flatMap.mp hq
  have hsame {s : String} (hs : CutFrom py fp texts s)
      (h : sha256Fingerprint py s = fp.fingerprintChunk py text) : s = normalized py fp text :=
    ((sha256Fingerprint_eq_iff py).mp h).resolve_right (hsha _ _ hs (.whole htext))
  rcases mem_chunkCalls hq with rfl | ⟨span', hspan', rfl, -⟩
  · -- the same chunk: its window was added then
    have hnormalized := hsame (.whole (hbefore hearlier)) heq
    have hchunk : fp.fingerprintChunk py earlier = fp.fingerprintChunk py text := heq
    refine hfirst _ (List.mem_flatMap.mpr ⟨earlier, hearlier, List.mem_cons_of_mem _
      (List.mem_filter.mpr ⟨List.mem_map.mpr ⟨span, ?_, rfl⟩, ?_⟩)⟩) ?_
    · rwa [hnormalized]
    · rw [hnormalized, hchunk]
      exact decide_eq_true hne
    · rw [hnormalized]
  · -- a window of another chunk: this one is no longer than a window
    have hnormalized := hsame ⟨span'.1, span'.2, Or.inr ⟨earlier, hbefore hearlier, rfl⟩⟩ heq
    obtain ⟨hle, hw, -⟩ := windowSpans_le hspan'
    have hlength := sliceText_length (by rwa [codepoints_length] at hle)
    rw [hnormalized] at hlength
    obtain ⟨-, -, hwhole⟩ := windowSpans_le hspan
    rw [hwhole (by rw [codepoints_length, hlength]; exact hw), sliceText_all rfl] at hne
    exact hne rfl

/-- Of a document that had none, every row points at its content in the joined document exactly where
each chunk that is new, as no earlier chunk of it nor a window of one is stored under its fingerprint,
is as normalized the first codepoints of it, as many as the raw chunk has. -/
theorem coordinates_point_iff {secret : Bytes} {clock : ℕ → String} {r : ProvenexIngestor}
    {documents : List RetrievedItem} {d : String} {authorized : Bool} {s s' : Ingesting}
    {result : IngestionResult} (hfp : r.fingerprinter.getD .default = fp)
    (hsha : ∀ s t, CutFrom py fp texts s → CutFrom py fp texts t → ¬ Collide py s t)
    (htexts : buildAll documents documentText = .ok texts)
    (hnew : ∀ row ∈ s.conn.tables.fingerprints, row.documentId ≠ d)
    (h : r.ingest py secret clock documents d authorized s = .ok result s') :
    (∀ row ∈ s'.conn.tables.fingerprints, row.documentId = d →
      sha256Fingerprint py (sliceText (normalized py fp (joinWith "\n" texts)) row.chunkOffset.toNat
        row.chunkLength.toNat) = row.fingerprint) ↔
    ∀ before text after, texts = before ++ text :: after →
      (∀ q ∈ before.flatMap (chunkCalls py fp), q.fingerprint ≠ fp.fingerprintChunk py text) →
      sliceText (normalized py fp (joinWith "\n" texts)) 0 text.length = normalized py fp text := by
  subst hfp
  rw [(ingest_holds py htexts hnew h).forall_rows fun f o l =>
    sha256Fingerprint py (sliceText (normalized py _ (joinWith "\n" texts)) o.toNat l.toNat) = f]
  constructor
  · rintro hpoints before text after rfl hfirst
    have hkept : (⟨(r.fingerprinter.getD .default).fingerprintChunk py text, 0, text.length⟩ : Placed) ∈
        kept ((before ++ text :: after).flatMap (chunkCalls py (r.fingerprinter.getD .default))) :=
      mem_kept.mpr ⟨_, _, by rw [List.flatMap_append, List.flatMap_cons, chunkCalls, List.cons_append], hfirst⟩
    exact ((sha256Fingerprint_eq_iff py).mp (hpoints _ hkept)).resolve_right
      (hsha _ _ ⟨0, text.length, Or.inl rfl⟩ (.whole (by simp)))
  · intro hchunks p hp
    obtain ⟨calls, calls', hcalls, hfirst⟩ := mem_kept.mp hp
    obtain ⟨before, text, after, b, a, rfl, hsplit, rfl⟩ := flatMap_split hcalls
    have hmem : p ∈ chunkCalls py (r.fingerprinter.getD .default) text := by simp [hsplit]
    have hearlier (q : Placed) (hq : q ∈ before.flatMap (chunkCalls py (r.fingerprinter.getD .default))) :=
      hfirst q (List.mem_append_left _ hq)
    rcases mem_chunkCalls hmem with rfl | ⟨span, hspan, rfl, hne⟩
    · exact congrArg (sha256Fingerprint py) (hchunks before text after rfl hearlier)
    · -- the chunk of the window is new, so it is the start of the document
      have hstart := hchunks before text after rfl
        (kept_window hsha (List.subset_append_left _ _) (by simp) hspan hne hearlier)
      obtain ⟨hle, -⟩ := windowSpans_le hspan
      rw [codepoints_length] at hle
      exact congrArg (sha256Fingerprint py) (sliceText_first hstart hle).symm

end

end

theorem chunkDigests_distinguish (s t : String) : ¬ Collide Sample.chunkDigests s t := fun h =>
  h.1 (encodeUtf8_inj (Sample.spread_injective (by decide) (by decide) h.2))

namespace Sample

/-- Every codepoint is a window. -/
def narrow : Fingerprinter := ⟨1, 1, .default⟩

end Sample

/-- One chunk twice, with its windows. -/
theorem coordinates_point_sample :
    ∃ result s, (ProvenexIngestor.mk (some Sample.narrow)).ingest Sample.chunkDigests [107] (fun _ => "")
        [.text "ab", .text "ab"] "doc" true Sample.emptyTables = .ok result s ∧
      ∀ row ∈ s.conn.tables.fingerprints, row.documentId = "doc" →
        sha256Fingerprint Sample.chunkDigests (sliceText
          (normalized Sample.chunkDigests Sample.narrow (joinWith "\n" ["ab", "ab"]))
          row.chunkOffset.toNat row.chunkLength.toNat) = row.fingerprint := by
  obtain ⟨result, s, h⟩ : ∃ result s, (ProvenexIngestor.mk (some Sample.narrow)).ingest
    Sample.chunkDigests [107] (fun _ => "") [.text "ab", .text "ab"] "doc" true Sample.emptyTables =
      .ok result s := ⟨_, _, rfl⟩
  have hnew : ∀ row ∈ Sample.emptyTables.conn.tables.fingerprints, row.documentId ≠ "doc" := by decide
  refine ⟨result, s, h, (coordinates_point_iff rfl (fun s t _ _ => chunkDigests_distinguish s t) rfl
    hnew h).mpr ?_⟩
  intro before text after htexts _
  have htext : text ∈ ["ab", "ab"] := htexts ▸ List.mem_append_right _ List.mem_cons_self
  obtain rfl : text = "ab" := by simpa using htext
  decide

/-- The row of the second chunk points at the first. -/
theorem coordinates_miss :
    ∃ result s, (ProvenexIngestor.mk none).ingest Sample.chunkDigests [107] (fun _ => "")
        [.text "a", .text "b"] "doc" true Sample.emptyTables = .ok result s ∧
      ∃ row ∈ s.conn.tables.fingerprints, row.documentId = "doc" ∧
        row.fingerprint = sha256Fingerprint Sample.chunkDigests "b" ∧
        sliceText (normalized Sample.chunkDigests .default (joinWith "\n" ["a", "b"])) row.chunkOffset.toNat
          row.chunkLength.toNat = "a" ∧
        sha256Fingerprint Sample.chunkDigests "a" ≠ row.fingerprint := by
  refine ⟨_, _, rfl, _, List.mem_cons_of_mem _ List.mem_cons_self, rfl, rfl, by decide, fun heq => ?_⟩
  exact chunkDigests_distinguish "a" "b" ⟨by decide, sha256Hex_inj heq⟩

end Provenex
