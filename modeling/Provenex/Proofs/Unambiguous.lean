import Provenex.Index.MerkleSqlite
import Provenex.Index.SqliteTexts
import Provenex.Proofs.Payload
import Provenex.Proofs.Received

/-! The payload of a row is accepted exactly where its texts are clean and can be encoded and its
integers can be written, and then it determines the row. -/

namespace Provenex

open Guard

/-! ## Texts -/

/-- Without half a surrogate pair a text is one that UTF-8 can hold. -/
theorem exists_string {t : PyText} : (∃ s, t = .of s) ↔ ∀ i, CodePoint.half i ∉ t := by
  constructor
  · rintro ⟨s, rfl⟩ i h
    obtain ⟨c, -, hc⟩ := List.mem_map.mp h
    cases hc
  · intro h
    induction t with
    | nil => exact ⟨"", rfl⟩
    | cons p t ih =>
      obtain ⟨s, hs⟩ := ih fun i hi => h i (List.mem_cons_of_mem _ hi)
      cases p with
      | char c => exact ⟨String.ofList (c :: s.toList), by rw [hs, PyText.of, PyText.of]; simp⟩
      | half i => exact absurd List.mem_cons_self (h i)

theorem of_append (s t : String) : PyText.of (s ++ t) = .of s ++ .of t := by simp [PyText.of]

theorem join_cons (sep : CodePoint) (t t' : PyText) (rest : List PyText) :
    PyText.join sep (t :: t' :: rest) = t ++ sep :: PyText.join sep (t' :: rest) := rfl

theorem join_of (parts : List String) :
    PyText.join (.char '\n') (parts.map .of) = .of (joinWith "\n" parts) := by
  induction parts with
  | nil => rfl
  | cons s rest ih =>
    cases rest with
    | nil => rfl
    | cons s' rest =>
      have hjoin : joinWith "\n" (s :: s' :: rest) = s ++ "\n" ++ joinWith "\n" (s' :: rest) := rfl
      rw [List.map_cons, List.map_cons, join_cons, ← List.map_cons, ih, hjoin, of_append, of_append,
        List.append_assoc]
      rfl

/-- A joined text holds what its parts hold, and the separator. -/
theorem mem_join {sep p : CodePoint} (hp : p ≠ sep) (parts : List PyText) :
    p ∈ PyText.join sep parts ↔ ∃ t ∈ parts, p ∈ t := by
  induction parts with
  | nil => simp [PyText.join]
  | cons t rest ih =>
    cases rest with
    | nil => simp [PyText.join]
    | cons t' rest =>
      rw [join_cons, List.mem_append, List.mem_cons, ih, or_iff_right hp]
      simp only [List.exists_mem_cons_iff]

theorem encode_ok {t : PyText} {b : Bytes} : t.encode = .ok b ↔ ∃ s, t = .of s ∧ encodeUtf8 s = b := by
  unfold PyText.encode
  cases hs : t.string? with
  | none =>
    simp only [reduceCtorEq, false_iff]
    rintro ⟨s, rfl, -⟩
    rw [string_of] at hs
    cases hs
  | some s =>
    obtain rfl := string_eq.mp hs
    simp [of_inj]

namespace Sqlite

/-! ## Fields -/

/-- The field holds a character that could be taken for a separator. -/
def Ambiguous (t : PyText) : Prop := ∃ c ∈ forbiddenFieldChars, CodePoint.char c ∈ t

namespace SigningFields

/-- The four texts, with the names they have in an error. -/
def texts (f : SigningFields) : List (String × PyText) :=
  [("fingerprint", f.fingerprint), ("document_id", f.documentId),
    ("document_version", f.documentVersion), ("ingested_at", f.ingestedAt)]

/-- The fields of a row in the database. -/
def ofRow (r : FingerprintRow) : SigningFields :=
  ⟨.of r.fingerprint, .of r.documentId, .of r.documentVersion, .of r.ingestedAt, r.chunkOffset,
    r.chunkLength⟩

theorem validateSigningField_ok {name : String} {t : PyText} {u : Unit} :
    validateSigningField name t = .ok u ↔ ¬ Ambiguous t := by
  rw [validateSigningField, raiseIf_ok, Ambiguous]
  simp

theorem ambiguous_of {s : String} : ¬ Ambiguous (.of s) ↔ Clean s := by
  unfold Ambiguous Clean PyText.of
  simp only [List.mem_map, CodePoint.char.injEq, exists_eq_right, not_exists, not_and]
  exact ⟨fun h c hc hf => h c hf hc, fun h c hf hc => h c hc hf⟩

theorem validateSigningField_error {name : String} {t : PyText} (h : Ambiguous t) :
    validateSigningField name t = .error (.valueError (some (name ++
      " must not contain newline, carriage return, or " ++
      "null byte; these would create signing-payload ambiguity"))) := by
  obtain ⟨c, hc, ht⟩ := h
  exact if_pos (List.any_eq_true.mpr ⟨c, hc, decide_eq_true ht⟩)

theorem canonicalPayload_ok {f : SigningFields} {payload : Bytes} :
    f.canonicalPayload = .ok payload ↔ ((∀ e ∈ f.texts, ¬ Ambiguous e.2) ∧
        writableInt f.chunkOffset = true ∧ writableInt f.chunkLength = true) ∧
      (PyText.join (.char '\n') [f.fingerprint, f.documentId, f.documentVersion, f.ingestedAt,
        .of (toString f.chunkOffset), .of (toString f.chunkLength)]).encode = .ok payload := by
  unfold canonicalPayload
  rw [seq_ok, seq_ok, seq_ok, seq_ok]
  simp only [validateSigningField_ok, bind_ok, intText_ok, texts, List.forall_mem_cons,
    List.not_mem_nil, false_imp_iff, implies_true, and_true]
  constructor
  · rintro ⟨hf, hd, hv, ht, _, ⟨ho, rfl⟩, _, ⟨hl, rfl⟩, h⟩
    exact ⟨⟨⟨hf, hd, hv, ht⟩, ho, hl⟩, h⟩
  · rintro ⟨⟨⟨hf, hd, hv, ht⟩, ho, hl⟩, h⟩
    exact ⟨hf, hd, hv, ht, _, ⟨ho, rfl⟩, _, ⟨hl, rfl⟩, h⟩

/-- On texts that UTF-8 can hold the payload is that of a row. -/
theorem canonicalPayload_of {f d v t : String} {o l : ℤ} {payload : Bytes} :
    canonicalPayload ⟨.of f, .of d, .of v, .of t, o, l⟩ = .ok payload ↔
      Sqlite.canonicalPayload f d v t o l = .ok payload := by
  have hjoin := join_of [f, d, v, t, toString o, toString l]
  rw [canonicalPayload_ok, Sqlite.canonicalPayload_ok]
  simp only [List.map_cons, List.map_nil] at hjoin
  rw [hjoin, encode_ok]
  simp only [texts, List.forall_mem_cons, ambiguous_of, of_inj, exists_eq_left', List.not_mem_nil,
    false_imp_iff, implies_true, and_true]

/-- What is accepted can be encoded. -/
theorem accepted_strings {f : SigningFields} {payload : Bytes} (h : f.canonicalPayload = .ok payload) :
    ∀ e ∈ f.texts, ∃ s, e.2 = .of s := by
  obtain ⟨-, hencode⟩ := canonicalPayload_ok.mp h
  obtain ⟨s, hs, -⟩ := encode_ok.mp hencode
  have hjoined := exists_string.mp ⟨s, hs⟩
  intro e he
  refine exists_string.mpr fun i hi => hjoined i ((mem_join (by nofun) _).mpr ⟨e.2, ?_, hi⟩)
  simp only [texts, List.mem_cons, List.not_mem_nil, or_false] at he ⊢
  rcases he with rfl | rfl | rfl | rfl <;> simp

/-- The texts of fields that are accepted. -/
theorem accepted_of {f : SigningFields} {payload : Bytes} (h : f.canonicalPayload = .ok payload) :
    ∃ a d v t, f = ⟨.of a, .of d, .of v, .of t, f.chunkOffset, f.chunkLength⟩ ∧
      Sqlite.canonicalPayload a d v t f.chunkOffset f.chunkLength = .ok payload := by
  have hstrings := accepted_strings h
  simp only [texts, List.forall_mem_cons] at hstrings
  obtain ⟨⟨a, ha⟩, ⟨d, hd⟩, ⟨v, hv⟩, ⟨t, ht⟩, -⟩ := hstrings
  have hf : f = ⟨.of a, .of d, .of v, .of t, f.chunkOffset, f.chunkLength⟩ := by
    rw [← ha, ← hd, ← hv, ← ht]
  refine ⟨a, d, v, t, hf, canonicalPayload_of.mp ?_⟩
  rw [← hf]
  exact h

theorem accepted_iff {f : SigningFields} : (∃ payload, f.canonicalPayload = .ok payload) ↔
    (∀ e ∈ f.texts, ¬ Ambiguous e.2 ∧ ∃ s, e.2 = .of s) ∧
      writableInt f.chunkOffset = true ∧ writableInt f.chunkLength = true := by
  constructor
  · rintro ⟨payload, h⟩
    obtain ⟨⟨hclean, hints⟩, -⟩ := canonicalPayload_ok.mp h
    exact ⟨fun e he => ⟨hclean e he, accepted_strings h e he⟩, hints⟩
  · rintro ⟨h, hints⟩
    obtain ⟨s, hs⟩ : ∃ s, PyText.join (.char '\n') [f.fingerprint, f.documentId, f.documentVersion,
        f.ingestedAt, .of (toString f.chunkOffset), .of (toString f.chunkLength)] = .of s := by
      have hfields := fun e he => (h e he).2
      simp only [texts, List.forall_mem_cons] at hfields
      obtain ⟨⟨a, ha⟩, ⟨d, hd⟩, ⟨v, hv⟩, ⟨t, ht⟩, -⟩ := hfields
      rw [ha, hd, hv, ht]
      exact ⟨_, join_of [a, d, v, t, toString f.chunkOffset, toString f.chunkLength]⟩
    exact ⟨_, canonicalPayload_ok.mpr ⟨⟨fun e he => (h e he).1, hints⟩,
      encode_ok.mpr ⟨s, hs, rfl⟩⟩⟩

/-- A field that could be taken for several is refused, by name, whatever the others hold. -/
theorem ambiguous_raises {f : SigningFields} (h : ∃ e ∈ f.texts, Ambiguous e.2) :
    ∃ e ∈ f.texts, f.canonicalPayload = .error (.valueError (some (e.1 ++
      " must not contain newline, carriage return, or " ++
      "null byte; these would create signing-payload ambiguity"))) := by
  -- the first of the four that is ambiguous
  have hstep {name : String} {t : PyText} (ht : ¬ Ambiguous t) (rest : Except PyErr Bytes) :
      (validateSigningField name t >>= fun _ => rest) = rest := by
    rw [(validateSigningField_ok (u := ())).mpr ht]
    rfl
  unfold canonicalPayload
  by_cases hf : Ambiguous f.fingerprint
  · exact ⟨("fingerprint", f.fingerprint), by simp [texts], by rw [validateSigningField_error hf]; rfl⟩
  rw [hstep hf]
  by_cases hd : Ambiguous f.documentId
  · exact ⟨("document_id", f.documentId), by simp [texts], by rw [validateSigningField_error hd]; rfl⟩
  rw [hstep hd]
  by_cases hv : Ambiguous f.documentVersion
  · exact ⟨("document_version", f.documentVersion), by simp [texts],
      by rw [validateSigningField_error hv]; rfl⟩
  rw [hstep hv]
  by_cases ht : Ambiguous f.ingestedAt
  · exact ⟨("ingested_at", f.ingestedAt), by simp [texts], by rw [validateSigningField_error ht]; rfl⟩
  · simp [texts, hf, hd, hv, ht] at h

theorem canonicalPayload_injective {f g : SigningFields} {payload : Bytes}
    (hf : f.canonicalPayload = .ok payload) (hg : g.canonicalPayload = .ok payload) : f = g := by
  obtain ⟨a, d, v, t, hfeq, hf⟩ := accepted_of hf
  obtain ⟨a', d', v', t', hgeq, hg⟩ := accepted_of hg
  obtain ⟨rfl, rfl, rfl, rfl, ho, hl⟩ := canonicalPayload_inj hf hg
  rw [hfeq, hgeq, ho, hl]

/-- Rows with one payload agree in all that is signed. -/
theorem ofRow_eq {r r' : FingerprintRow} {payload : Bytes} (h : r.payload = .ok payload)
    (h' : r'.payload = .ok payload) : ofRow r = ofRow r' :=
  canonicalPayload_injective (canonicalPayload_of.mpr h) (canonicalPayload_of.mpr h')

end SigningFields

end Sqlite

open Sqlite SigningFields

/-- The leaf of a row is its payload. -/
theorem newLeaf_payload {s : MerkleSqlite.Index} {a : AddArgs} {row : FingerprintRow}
    {leaf : MerkleSqlite.LeafRow}
    (hrow : s.conn.tables.fingerprints.find? (fun r => r.key = a.key) = some row)
    (h : s.newLeaf a = .ok leaf) : row.payload = .ok leaf.leafBytes := by
  unfold MerkleSqlite.Index.newLeaf at h
  rw [hrow] at h
  obtain ⟨payload, hpayload, rfl⟩ := map_ok.mp h
  exact hpayload

/-- The payload is injective on the fields it accepts, these are the ones whose texts are clean and can
be encoded and whose integers can be written, and it raises on every text that is not clean. So rows
that differ in a field have different inputs of the MAC, and different leaves. -/
theorem payload_unambiguous :
    (∀ f g : SigningFields, ∀ payload, f.canonicalPayload = .ok payload →
      g.canonicalPayload = .ok payload → f = g) ∧
    (∀ f : SigningFields, (∃ payload, f.canonicalPayload = .ok payload) ↔
      (∀ e ∈ f.texts, ¬ Ambiguous e.2 ∧ ∃ s, e.2 = .of s) ∧
        writableInt f.chunkOffset = true ∧ writableInt f.chunkLength = true) ∧
    (∀ f : SigningFields, (∃ e ∈ f.texts, Ambiguous e.2) →
      ∃ e ∈ f.texts, f.canonicalPayload = .error (.valueError (some (e.1 ++
        " must not contain newline, carriage return, or " ++
        "null byte; these would create signing-payload ambiguity")))) ∧
    (∀ r r' : FingerprintRow, ofRow r ≠ ofRow r' →
      ∀ payload payload', r.payload = .ok payload → r'.payload = .ok payload' → payload ≠ payload') ∧
    ∀ (s s' : MerkleSqlite.Index) (a a' : AddArgs) (r r' : FingerprintRow),
      s.conn.tables.fingerprints.find? (fun r => r.key = a.key) = some r →
      s'.conn.tables.fingerprints.find? (fun r => r.key = a'.key) = some r' →
      ofRow r ≠ ofRow r' → ∀ leaf leaf', s.newLeaf a = .ok leaf → s'.newLeaf a' = .ok leaf' →
        leaf.leafBytes ≠ leaf'.leafBytes := by
  have hrows (r r' : FingerprintRow) (hne : ofRow r ≠ ofRow r') (payload payload' : Bytes)
      (h : r.payload = .ok payload) (h' : r'.payload = .ok payload') : payload ≠ payload' := by
    rintro rfl
    exact hne (ofRow_eq h h')
  refine ⟨fun f g payload => canonicalPayload_injective, fun f => accepted_iff,
    fun f => ambiguous_raises, hrows, ?_⟩
  intro s s' a a' r r' hr hr' hne leaf leaf' h h'
  exact hrows r r' hne _ _ (newLeaf_payload hr h) (newLeaf_payload hr' h')

namespace Sample

/-- Fields of which one holds the others. -/
def imitating : SigningFields := ⟨.of "f", .of "d\nv\nt", .of "v", .of "t", 0, 12⟩

def digitsOnly : SigningFields := ⟨.of "", .of "1", .of "2", .of "", 3, -4⟩

end Sample

/-- Empty and digit-only fields have a payload, which only they have; a field with line breaks has
none. -/
theorem payload_unambiguous_sample : ∃ payload, Sample.digitsOnly.canonicalPayload = .ok payload ∧
    (∀ f : SigningFields, f.canonicalPayload = .ok payload → f = Sample.digitsOnly) ∧
    ∃ e, Sample.imitating.canonicalPayload = .error e := by
  obtain ⟨hinj, hiff, hraises, -⟩ := payload_unambiguous
  have hempty : Sqlite.Clean "" := by simp [Sqlite.Clean]
  have hone : Sqlite.Clean "1" := by simp [Sqlite.Clean, forbiddenFieldChars]
  have htwo : Sqlite.Clean "2" := by simp [Sqlite.Clean, forbiddenFieldChars]
  obtain ⟨payload, hpayload⟩ := (hiff Sample.digitsOnly).mpr (by
    simp only [texts, Sample.digitsOnly, List.forall_mem_cons, ambiguous_of]
    exact ⟨⟨⟨hempty, _, rfl⟩, ⟨hone, _, rfl⟩, ⟨htwo, _, rfl⟩, ⟨hempty, _, rfl⟩, by simp⟩, by decide,
      by decide⟩)
  have hbreaks : Ambiguous Sample.imitating.documentId := ⟨'\n', by decide, by decide⟩
  obtain ⟨e, -, he⟩ := hraises Sample.imitating ⟨("document_id", Sample.imitating.documentId),
    by simp [texts], hbreaks⟩
  exact ⟨payload, hpayload, fun f hf => hinj f _ payload hf hpayload, _, he⟩

end Provenex
