import Provenex.Index.Sqlite
import Provenex.Proofs.Canonical

/-! The bytes that are signed for a row determine its fields. -/

namespace Provenex

theorem joinWith_toList (c : Char) : ∀ parts : List String,
    (joinWith (String.singleton c) parts).toList = [c].intercalate (parts.map String.toList)
  | [] => rfl
  | [s] => by simp [joinWith]
  | s :: t :: rest => by
    rw [joinWith, String.toList_append, String.toList_append, joinWith_toList c (t :: rest)]
    · simp
    · simp

/-- Parts without the separator can be told apart in the text they are joined to. -/
theorem joinWith_inj {c : Char} {xs ys : List String} (hx : ∀ s ∈ xs, c ∉ s.toList)
    (hy : ∀ s ∈ ys, c ∉ s.toList) (hnx : xs ≠ []) (hny : ys ≠ [])
    (h : joinWith (String.singleton c) xs = joinWith (String.singleton c) ys) : xs = ys := by
  have hl := congrArg String.toList h
  rw [joinWith_toList, joinWith_toList] at hl
  have hsplit := congrArg (List.splitOn c) hl
  rw [List.splitOn_intercalate c (by simpa using hx) (by simpa using hnx),
    List.splitOn_intercalate c (by simpa using hy) (by simpa using hny)] at hsplit
  exact List.map_injective_iff.mpr (fun _ _ => String.toList_inj.mp) hsplit

theorem count_joinWith (c : Char) : ∀ {parts : List String}, parts ≠ [] →
    (joinWith (String.singleton c) parts).toList.count c + 1 =
      (parts.map fun s => s.toList.count c).sum + parts.length
  | [s], _ => by simp [joinWith]
  | s :: t :: rest, _ => by
    have ih := @count_joinWith c (t :: rest) (by simp)
    rw [joinWith]
    · simp only [String.toList_append, String.toList_singleton, List.count_append,
        List.count_singleton_self, List.map_cons, List.sum_cons, List.length_cons] at ih ⊢
      omega
    · simp

theorem sum_count_zero {c : Char} {xs : List String} :
    (xs.map fun s => s.toList.count c).sum = 0 ↔ ∀ s ∈ xs, c ∉ s.toList := by
  rw [List.sum_eq_zero_iff_forall_eq_nat, List.forall_mem_map]
  simp only [List.count_eq_zero]

/-- Of as many parts, only one side need be without the separator. -/
theorem joinWith_inj_length {c : Char} {xs ys : List String} (hy : ∀ s ∈ ys, c ∉ s.toList)
    (hlen : xs.length = ys.length)
    (h : joinWith (String.singleton c) xs = joinWith (String.singleton c) ys) : xs = ys := by
  rcases eq_or_ne ys [] with rfl | hny
  · exact List.length_eq_zero_iff.mp hlen
  have hnx : xs ≠ [] := by
    rintro rfl
    exact hny (List.length_eq_zero_iff.mp hlen.symm)
  have hcount := count_joinWith c hnx
  rw [h, count_joinWith c hny, sum_count_zero.mpr hy, hlen] at hcount
  have hx : (xs.map fun s => s.toList.count c).sum = 0 := by omega
  exact joinWith_inj (sum_count_zero.mp hx) hy hnx hny h

theorem intToken_newline (i : ℤ) : '\n' ∉ (toString i).toList := by
  intro h
  rcases intToken_chars h with h | h
  · exact absurd h (by decide)
  · exact absurd h (by decide)

namespace Sqlite

/-- The field may stand in a payload. -/
def Clean (value : String) : Prop := ∀ c ∈ value.toList, c ∉ forbiddenFieldChars

theorem validateSigningField_ok {name value : String} {u : Unit} :
    validateSigningField name value = .ok u ↔ Clean value := by
  rw [validateSigningField, Guard.raiseIf_ok, Clean]
  simp

theorem Clean.newline {value : String} (h : Clean value) : '\n' ∉ value.toList :=
  fun hm => h _ hm (by decide)

theorem canonicalPayload_ok {fingerprint documentId documentVersion ingestedAt : String}
    {chunkOffset chunkLength : ℤ} {payload : Bytes} :
    canonicalPayload fingerprint documentId documentVersion ingestedAt chunkOffset chunkLength =
        .ok payload ↔
      ((Clean fingerprint ∧ Clean documentId ∧ Clean documentVersion ∧ Clean ingestedAt) ∧
        writableInt chunkOffset = true ∧ writableInt chunkLength = true) ∧
        encodeUtf8 (joinWith "\n" [fingerprint, documentId, documentVersion, ingestedAt,
          toString chunkOffset, toString chunkLength]) = payload := by
  unfold canonicalPayload
  rw [Guard.seq_ok, Guard.seq_ok, Guard.seq_ok, Guard.seq_ok]
  simp only [validateSigningField_ok, Guard.bind_ok, intText_ok, Except.ok.injEq]
  constructor
  · rintro ⟨hf, hd, hv, ht, _, ⟨ho, rfl⟩, _, ⟨hl, rfl⟩, rfl⟩
    exact ⟨⟨⟨hf, hd, hv, ht⟩, ho, hl⟩, rfl⟩
  · rintro ⟨⟨⟨hf, hd, hv, ht⟩, ho, hl⟩, rfl⟩
    exact ⟨hf, hd, hv, ht, _, ⟨ho, rfl⟩, _, ⟨hl, rfl⟩, rfl⟩

theorem payload_parts {fingerprint documentId documentVersion ingestedAt : String}
    (hf : Clean fingerprint) (hd : Clean documentId) (hv : Clean documentVersion)
    (ht : Clean ingestedAt) (chunkOffset chunkLength : ℤ) :
    ∀ s ∈ [fingerprint, documentId, documentVersion, ingestedAt, toString chunkOffset,
      toString chunkLength], '\n' ∉ s.toList := by
  simp only [List.forall_mem_cons]
  exact ⟨hf.newline, hd.newline, hv.newline, ht.newline, intToken_newline _, intToken_newline _,
    by simp⟩

/-- The payload of a row. -/
def FingerprintRow.payload (r : FingerprintRow) : Except PyErr Bytes :=
  canonicalPayload r.fingerprint r.documentId r.documentVersion r.ingestedAt r.chunkOffset
    r.chunkLength

/-- Two payloads are equal only where all six fields are. -/
theorem canonicalPayload_inj {f f' d d' v v' t t' : String} {o o' l l' : ℤ} {payload : Bytes}
    (h : canonicalPayload f d v t o l = .ok payload)
    (h' : canonicalPayload f' d' v' t' o' l' = .ok payload) :
    f = f' ∧ d = d' ∧ v = v' ∧ t = t' ∧ o = o' ∧ l = l' := by
  obtain ⟨⟨⟨hf, hd, hv, ht⟩, -⟩, rfl⟩ := canonicalPayload_ok.mp h
  obtain ⟨⟨⟨hf', hd', hv', ht'⟩, -⟩, heq⟩ := canonicalPayload_ok.mp h'
  have hparts := joinWith_inj (payload_parts hf' hd' hv' ht' o' l') (payload_parts hf hd hv ht o l)
    (by simp) (by simp) (encodeUtf8_inj heq)
  simp only [List.cons.injEq, and_true] at hparts
  obtain ⟨rfl, rfl, rfl, rfl, ho, hl⟩ := hparts
  exact ⟨rfl, rfl, rfl, rfl, intToken_inj (congrArg String.toList ho.symm),
    intToken_inj (congrArg String.toList hl.symm)⟩

end Sqlite

end Provenex
