import Provenex.Index.Sqlite

/-! What every run of successful writes keeps true of the two tables: a row that
is not superseded has its document's current version, every row is signed, and
the documents remember the last authorization. -/

namespace Provenex.Sqlite

open Guard

variable (py : Stdlib) (secret : Bytes)

/-! ## The history -/

def authorizationStep (documentId : String) (last : Option Bool) : Op → Option Bool
  | .add _ a => if a.documentId = documentId then some a.authorized else last
  | .setAuthorization d authorized =>
    if d = documentId then last.map fun _ => authorized else last
  | .supersede _ _ => last

/-- What the last `add` or `set_authorization` naming the document, since its first `add`, said. -/
def lastAuthorization (documentId : String) (ops : List Op) : Option Bool :=
  ops.foldl (authorizationStep documentId) none

theorem lastAuthorization_snoc (documentId : String) (ops : List Op) (op : Op) :
    lastAuthorization documentId (ops ++ [op]) =
      authorizationStep documentId (lastAuthorization documentId ops) op := by
  rw [lastAuthorization, List.foldl_append]
  rfl

/-- Some `add` of the history stored this fingerprint. -/
def Added (ops : List Op) (fingerprint : String) : Prop :=
  ∃ now a, Op.add now a ∈ ops ∧ a.fingerprint = fingerprint

theorem added_snoc (ops : List Op) (op : Op) (fp : String) :
    Added (ops ++ [op]) fp ↔ Added ops fp ∨ ∃ now a, op = .add now a ∧ a.fingerprint = fp := by
  constructor
  · rintro ⟨now, a, h, rfl⟩
    rcases List.mem_append.mp h with h | h
    · exact .inl ⟨now, a, h, rfl⟩
    · exact .inr ⟨now, a, (List.mem_singleton.mp h).symm, rfl⟩
  · rintro (⟨now, a, h, rfl⟩ | ⟨now, a, rfl, rfl⟩)
    · exact ⟨now, a, List.mem_append_left _ h, rfl⟩
    · exact ⟨now, a, List.mem_append_right _ (List.mem_singleton_self _), rfl⟩

/-! ## The tables -/

/-- The row's signature is the MAC of its other fields. -/
def Signed (r : FingerprintRow) : Prop :=
  ∃ payload, canonicalPayload r.fingerprint r.documentId r.documentVersion r.ingestedAt
    r.chunkOffset r.chunkLength = .ok payload ∧ r.signature = sign py payload secret

def Tables.ids (t : Tables) : List String := t.documents.map (·.documentId)

structure Consistent (t : Tables) : Prop where
  ids : t.ids.Nodup
  keys : (t.fingerprints.map (·.key)).Nodup
  owner : ∀ r ∈ t.fingerprints, r.documentId ∈ t.ids
  current : ∀ r ∈ t.fingerprints, ∀ d ∈ t.documents, d.documentId = r.documentId →
    r.superseded = 0 → r.documentVersion = d.currentVersion
  signed : ∀ r ∈ t.fingerprints, Signed py secret r

/-- The tables agree with the history that led to them. -/
structure Tracks (ops : List Op) (t : Tables) : Prop where
  authorized : ∀ d ∈ t.documents, lastAuthorization d.documentId ops = some (d.authorized != 0)
  absent : ∀ id ∉ t.ids, lastAuthorization id ops = none
  added : ∀ fp, (∃ r ∈ t.fingerprints, r.fingerprint = fp) ↔ Added ops fp

variable {py secret} {t : Tables} {documentId version : String}

theorem Consistent.document_eq (h : Consistent py secret t) {d e : DocumentRow}
    (hd : d ∈ t.documents) (he : e ∈ t.documents) (hid : d.documentId = e.documentId) : d = e :=
  List.inj_on_of_nodup_map h.ids hd he hid

theorem Consistent.row_eq (h : Consistent py secret t) {r r' : FingerprintRow}
    (hr : r ∈ t.fingerprints) (hr' : r' ∈ t.fingerprints) (hk : r.key = r'.key) : r = r' :=
  List.inj_on_of_nodup_map h.keys hr hr' hk

theorem selectCurrentVersion_none (h : t.selectCurrentVersion documentId = none) :
    documentId ∉ t.ids := by
  intro hm
  obtain ⟨d, hd, rfl⟩ := List.mem_map.mp hm
  simp only [Tables.selectCurrentVersion, Option.map_eq_none_iff, List.find?_eq_none] at h
  exact h d hd (by simp)

theorem selectCurrentVersion_some {current : String}
    (h : t.selectCurrentVersion documentId = some current) :
    ∃ d ∈ t.documents, d.documentId = documentId ∧ d.currentVersion = current := by
  simp only [Tables.selectCurrentVersion, Option.map_eq_some_iff] at h
  obtain ⟨d, hd, rfl⟩ := h
  exact ⟨d, List.mem_of_find?_eq_some hd, by simpa using List.find?_some hd, rfl⟩

theorem Consistent.selectCurrentVersion_iff (h : Consistent py secret t) {v : String} :
    t.selectCurrentVersion documentId = some v ↔
      ∃ d ∈ t.documents, d.documentId = documentId ∧ d.currentVersion = v := by
  refine ⟨selectCurrentVersion_some, ?_⟩
  rintro ⟨d, hd, rfl, rfl⟩
  cases hs : t.selectCurrentVersion d.documentId with
  | none => exact absurd (List.mem_map_of_mem hd) (selectCurrentVersion_none hs)
  | some v =>
    obtain ⟨e, he, hid, rfl⟩ := selectCurrentVersion_some hs
    rw [h.document_eq he hd hid]

section Statements

theorem updateDocument_ids (documentId : String) {set : DocumentRow → DocumentRow}
    (hid : ∀ e, (set e).documentId = e.documentId) :
    (t.updateDocument documentId set).ids = t.ids := by
  rw [Tables.ids, Tables.updateDocument, List.map_map]
  refine List.map_congr_left fun d _ => ?_
  simp only [Function.comp_apply]
  split_ifs
  · exact hid d
  · rfl

@[simp] theorem sweep_ids : (t.sweep documentId version).ids = t.ids := rfl

/-- A row after a sweep, and the row it was. -/
theorem mem_sweep {r : FingerprintRow} (h : r ∈ (t.sweep documentId version).fingerprints) :
    ∃ r0 ∈ t.fingerprints, (r = r0 ∧ ¬ Tables.isOther documentId version r0) ∨
      (r = { r0 with superseded := 1 } ∧ Tables.isOther documentId version r0) := by
  obtain ⟨r0, h0, rfl⟩ := List.mem_map.mp h
  refine ⟨r0, h0, ?_⟩
  by_cases hr : Tables.isOther documentId version r0
  · exact .inr ⟨if_pos hr, hr⟩
  · exact .inl ⟨if_neg hr, hr⟩

theorem sweep_fingerprint (fp : String) :
    (∃ r ∈ (t.sweep documentId version).fingerprints, r.fingerprint = fp) ↔
      ∃ r ∈ t.fingerprints, r.fingerprint = fp := by
  constructor
  · rintro ⟨r, hr, rfl⟩
    obtain ⟨r0, h0, ⟨rfl, -⟩ | ⟨rfl, -⟩⟩ := mem_sweep hr <;> exact ⟨_, h0, rfl⟩
  · rintro ⟨r, hr, rfl⟩
    refine ⟨_, List.mem_map_of_mem hr, ?_⟩
    split_ifs <;> rfl

theorem sweep_keys : (t.sweep documentId version).fingerprints.map (·.key) =
    t.fingerprints.map (·.key) := by
  simp only [Tables.sweep, List.map_map]
  refine List.map_congr_left fun r _ => ?_
  simp only [Function.comp_apply]
  split_ifs <;> rfl

/-- A sweep leaves the rows it does not name. -/
theorem mem_sweep_of_not {r : FingerprintRow} (hr : r ∈ t.fingerprints)
    (ho : ¬ Tables.isOther documentId version r) : r ∈ (t.sweep documentId version).fingerprints :=
  List.mem_map.mpr ⟨r, hr, if_neg ho⟩

theorem Consistent.sweep (h : Consistent py secret t) :
    Consistent py secret (t.sweep documentId version) := by
  refine ⟨h.ids, by rw [sweep_keys]; exact h.keys, ?_, ?_, ?_⟩
  · intro r hr
    obtain ⟨r0, h0, hr0⟩ := mem_sweep hr
    have := h.owner r0 h0
    rcases hr0 with ⟨rfl, -⟩ | ⟨rfl, -⟩ <;> exact this
  · intro r hr d hd hid hs
    obtain ⟨r0, h0, ⟨rfl, -⟩ | ⟨rfl, -⟩⟩ := mem_sweep hr
    · exact h.current r h0 d hd hid hs
    · simp at hs
  · intro r hr
    obtain ⟨r0, h0, hr0⟩ := mem_sweep hr
    have := h.signed r0 h0
    rcases hr0 with ⟨rfl, -⟩ | ⟨rfl, -⟩ <;> exact this

/-- After a sweep, what is left of the document has the version swept for. -/
theorem sweep_version {r : FingerprintRow} (h : r ∈ (t.sweep documentId version).fingerprints)
    (hd : r.documentId = documentId) (hs : r.superseded = 0) : r.documentVersion = version := by
  obtain ⟨r0, -, ⟨rfl, ho⟩ | ⟨rfl, -⟩⟩ := mem_sweep h
  · by_contra hv
    exact ho (by simp [Tables.isOther, hd, hv])
  · simp at hs

theorem Consistent.updateDocument (h : Consistent py secret t) {set : DocumentRow → DocumentRow}
    (hid : ∀ e, (set e).documentId = e.documentId)
    (hcur : ∀ r ∈ t.fingerprints, ∀ e ∈ t.documents, r.documentId = documentId →
      e.documentId = documentId → r.superseded = 0 → r.documentVersion = (set e).currentVersion) :
    Consistent py secret (t.updateDocument documentId set) := by
  have hids := updateDocument_ids (t := t) documentId hid
  refine ⟨hids ▸ h.ids, h.keys, hids ▸ h.owner, ?_, h.signed⟩
  intro r hr d hd hdr hs
  obtain ⟨e, he, rfl⟩ := List.mem_map.mp hd
  by_cases heq : e.documentId = documentId
  · rw [if_pos heq] at hdr ⊢
    rw [hid] at hdr
    exact hcur r hr e he (hdr ▸ heq) heq hs
  · rw [if_neg heq] at hdr ⊢
    exact h.current r hr e he hdr hs

theorem Consistent.authorize (h : Consistent py secret t) (flag : ℤ) :
    Consistent py secret (t.updateDocument documentId fun d => { d with authorized := flag }) :=
  h.updateDocument (fun _ => rfl) fun r hr e he hrd hed hs =>
    h.current r hr e he (hed.trans hrd.symm) hs

theorem Consistent.renew (h : Consistent py secret t) {set : DocumentRow → DocumentRow}
    (hid : ∀ e, (set e).documentId = e.documentId) (hset : ∀ e, (set e).currentVersion = version) :
    Consistent py secret ((t.sweep documentId version).updateDocument documentId set) :=
  h.sweep.updateDocument hid fun r hr e _ hrd _ hs => by
    rw [hset]
    exact sweep_version hr hrd hs

theorem Consistent.insertDocument (h : Consistent py secret t) {d : DocumentRow}
    (hd : d.documentId ∉ t.ids) : Consistent py secret (t.insertDocument d) := by
  have hids : (t.insertDocument d).ids = t.ids ++ [d.documentId] := by
    simp [Tables.ids, Tables.insertDocument]
  refine ⟨?_, h.keys, fun r hr => ?_, ?_, h.signed⟩
  · rw [hids]
    exact List.nodup_append'.mpr ⟨h.ids, by simp, by simpa using hd⟩
  · rw [hids]
    exact List.mem_append_left _ (h.owner r hr)
  · intro r hr e he hid hs
    rcases List.mem_append.mp he with he | he
    · exact h.current r hr e he hid hs
    · obtain rfl := List.mem_singleton.mp he
      exact absurd (hid ▸ h.owner r hr) hd

theorem any_key {row : FingerprintRow} :
    (t.fingerprints.any fun r => r.key = row.key) = true ↔ ∃ r ∈ t.fingerprints, r.key = row.key := by
  simp

theorem mem_insertOrIgnore {row r : FingerprintRow} :
    r ∈ (t.insertOrIgnore row).fingerprints ↔
      r ∈ t.fingerprints ∨ r = row ∧ ∀ r' ∈ t.fingerprints, r'.key ≠ row.key := by
  unfold Tables.insertOrIgnore
  split_ifs with h
  · obtain ⟨r', hr', hk⟩ := any_key.mp h
    exact ⟨.inl, fun hr => hr.elim id fun hr => absurd hk (hr.2 r' hr')⟩
  · rw [any_key] at h
    push Not at h
    simp only [List.mem_append, List.mem_singleton]
    exact ⟨fun hr => hr.imp_right fun hr => ⟨hr, h⟩, fun hr => hr.imp_right And.left⟩

@[simp] theorem insertOrIgnore_documents (row : FingerprintRow) :
    (t.insertOrIgnore row).documents = t.documents := by
  unfold Tables.insertOrIgnore
  split_ifs <;> rfl

/-- A row of the document's current version may be inserted. -/
theorem Consistent.insertOrIgnore (h : Consistent py secret t) {row : FingerprintRow}
    (hd : t.selectCurrentVersion row.documentId = some row.documentVersion)
    (hs : Signed py secret row) : Consistent py secret (t.insertOrIgnore row) := by
  obtain ⟨e, he, hid, hcv⟩ := selectCurrentVersion_some hd
  have hids : (t.insertOrIgnore row).ids = t.ids := by
    rw [Tables.ids, insertOrIgnore_documents, Tables.ids]
  refine ⟨hids ▸ h.ids, ?_, ?_, ?_, ?_⟩
  · unfold Tables.insertOrIgnore
    split_ifs with hk
    · exact h.keys
    · rw [any_key] at hk
      push Not at hk
      simp only [List.map_append, List.map_cons, List.map_nil]
      exact List.nodup_append'.mpr ⟨h.keys, by simp, by simpa using hk⟩
  · intro r hr
    rw [hids]
    rcases mem_insertOrIgnore.mp hr with hr | ⟨rfl, -⟩
    · exact h.owner r hr
    · exact hid ▸ List.mem_map_of_mem he
  · intro r hr d hdm hdr hsup
    rw [insertOrIgnore_documents] at hdm
    rcases mem_insertOrIgnore.mp hr with hr | ⟨rfl, -⟩
    · exact h.current r hr d hdm hdr hsup
    · rw [h.document_eq hdm he (hdr.trans hid.symm), hcv]
  · intro r hr
    rcases mem_insertOrIgnore.mp hr with hr | ⟨rfl, -⟩
    · exact h.signed r hr
    · exact hs

end Statements

/-! ## Upsert -/

section Upsert

variable {authorized : Bool}

theorem Consistent.upsertDocument (h : Consistent py secret t) :
    Consistent py secret (t.upsertDocument documentId version authorized) := by
  unfold Tables.upsertDocument
  split
  · next hs => exact h.insertDocument (selectCurrentVersion_none hs)
  · split_ifs
    · exact h.renew (fun _ => rfl) fun _ => rfl
    · exact h.authorize _

/-- Whatever branch was taken, the document's row is the one just written. -/
theorem mem_upsertDocument (h : Consistent py secret t) {d : DocumentRow} :
    d ∈ (t.upsertDocument documentId version authorized).documents ↔
      d = ⟨documentId, sqlFlag authorized, version⟩ ∨
        d ∈ t.documents ∧ d.documentId ≠ documentId := by
  have key (t' : Tables) (set : DocumentRow → DocumentRow) (ht' : t'.documents = t.documents)
      (e0 : DocumentRow) (h0 : e0 ∈ t.documents) (hid : e0.documentId = documentId)
      (hset : set e0 = ⟨documentId, sqlFlag authorized, version⟩) :
      d ∈ (t'.updateDocument documentId set).documents ↔
        d = ⟨documentId, sqlFlag authorized, version⟩ ∨
          d ∈ t.documents ∧ d.documentId ≠ documentId := by
    simp only [Tables.updateDocument, List.mem_map, ht']
    constructor
    · rintro ⟨e, he, rfl⟩
      by_cases hed : e.documentId = documentId
      · obtain rfl := h.document_eq he h0 (hed.trans hid.symm)
        exact .inl (by rw [if_pos hed, hset])
      · exact .inr (by rw [if_neg hed]; exact ⟨he, hed⟩)
    · rintro (rfl | ⟨hd, hne⟩)
      · exact ⟨e0, h0, by rw [if_pos hid, hset]⟩
      · exact ⟨d, hd, if_neg hne⟩
  unfold Tables.upsertDocument
  split
  · next hs =>
    have hnot := selectCurrentVersion_none hs
    simp only [Tables.insertDocument, List.mem_append, List.mem_singleton]
    constructor
    · rintro (hd | rfl)
      · exact .inr ⟨hd, fun hid => hnot (hid ▸ List.mem_map_of_mem hd)⟩
      · exact .inl rfl
    · rintro (rfl | ⟨hd, -⟩)
      · exact .inr rfl
      · exact .inl hd
  · next current hs =>
    obtain ⟨e0, h0, hid, hcv⟩ := selectCurrentVersion_some hs
    split_ifs with hv
    · exact key (t.sweep documentId version) _ rfl e0 h0 hid (by simp [hid])
    · exact key t _ rfl e0 h0 hid (by simp [← hid, hcv, not_not.mp hv])

/-- The rows an upsert leaves are those of before, some of them newly superseded. -/
theorem upsertDocument_fingerprints (t : Tables) (documentId version : String) (authorized : Bool) :
    (t.upsertDocument documentId version authorized).fingerprints = t.fingerprints ∨
      (t.upsertDocument documentId version authorized).fingerprints =
        (t.sweep documentId version).fingerprints := by
  unfold Tables.upsertDocument
  split
  · exact .inl rfl
  · split_ifs
    · exact .inr rfl
    · exact .inl rfl

theorem upsertDocument_fingerprint (fp : String) :
    (∃ r ∈ (t.upsertDocument documentId version authorized).fingerprints, r.fingerprint = fp) ↔
      ∃ r ∈ t.fingerprints, r.fingerprint = fp := by
  rcases upsertDocument_fingerprints t documentId version authorized with h | h
  · rw [h]
  · rw [h, sweep_fingerprint]

/-- An upsert leaves the rows that are not of another version of its document. -/
theorem mem_upsertDocument_of_not {r : FingerprintRow} (hr : r ∈ t.fingerprints)
    (ho : ¬ Tables.isOther documentId version r) :
    r ∈ (t.upsertDocument documentId version authorized).fingerprints := by
  rcases upsertDocument_fingerprints t documentId version authorized with h | h
  · rwa [h]
  · rw [h]
    exact mem_sweep_of_not hr ho

theorem upsertDocument_current (h : Consistent py secret t) :
    (t.upsertDocument documentId version authorized).selectCurrentVersion documentId =
      some version :=
  h.upsertDocument.selectCurrentVersion_iff.mpr ⟨_, (mem_upsertDocument h).mpr (.inl rfl), rfl, rfl⟩

end Upsert

end Provenex.Sqlite
