import Provenex.Index.SqliteCells
import Provenex.Proofs.Payload
import Provenex.Proofs.SqliteSafety

/-! Verification of tables that anyone may have written to. The checks that guard the
writing side are repeated on the way, and raise on what they would not have let in. -/

namespace Provenex.Sqlite

open Guard

variable {py : Stdlib} {secret : Bytes}

/-! ## Tables of the declared types -/

/-- An integer as it is bound to a statement, where it fits. -/
def Cell.ofInt (i : ℤ) : Cell := .int (i.bmod (2 ^ 64))

theorem Cell.ofInt_eq {i : ℤ} (h : fitsInt64 i) : Cell.ofInt i = .int i := by
  rw [ofInt, Int.bmod_eq_of_le (by have := h.1; omega) (by have := h.2; omega)]

theorem Cell.inInteger_ofInt (i : ℤ) : (Cell.ofInt i).inInteger = true := by
  have hle := Int.le_bmod (x := i) (m := 2 ^ 64) (by decide)
  have hlt := Int.bmod_lt (x := i) (m := 2 ^ 64) (by decide)
  rw [ofInt, inInteger, decide_eq_true_eq, fitsInt64]
  omega

def FingerprintRow.stored (r : FingerprintRow) : StoredFingerprint where
  fingerprint := .text r.fingerprint
  documentId := .text r.documentId
  documentVersion := .text r.documentVersion
  ingestedAt := .text r.ingestedAt
  chunkOffset := .ofInt r.chunkOffset
  chunkLength := .ofInt r.chunkLength
  superseded := .ofInt r.superseded
  signature := .text r.signature
  inText := by simp [Cell.inText]
  inInteger := by simp [Cell.inInteger_ofInt]

def DocumentRow.stored (d : DocumentRow) : StoredDocument where
  documentId := .text d.documentId
  authorized := .ofInt d.authorized
  inText := rfl
  inInteger := Cell.inInteger_ofInt _

def storedPair (row : FingerprintRow × DocumentRow) : StoredRow := (row.1.stored, row.2.stored)

def Tables.stored (t : Tables) : StoredTables :=
  ⟨t.documents.map (·.stored), t.fingerprints.map (·.stored)⟩

/-- All integers fit the columns. -/
structure Tables.Fits (t : Tables) : Prop where
  documents : ∀ d ∈ t.documents, fitsInt64 d.authorized
  fingerprints : ∀ r ∈ t.fingerprints,
    fitsInt64 r.chunkOffset ∧ fitsInt64 r.chunkLength ∧ fitsInt64 r.superseded

/-- Both queries visit the same rows in the same order. -/
def SamePlan (plan : QueryPlan) (stored : StoredPlan) : Prop :=
  ∀ rows, stored.scan (rows.map storedPair) = (plan.scan rows).map storedPair

theorem joined_stored (t : Tables) (fp : String) :
    t.stored.joined fp = (t.joined fp).map storedPair := by
  unfold StoredTables.joined Tables.joined Tables.stored
  rw [List.filter_map, List.flatMap_map, List.map_flatMap]
  have hfp : ((fun f : StoredFingerprint => decide (f.fingerprint = .text fp)) ∘
      FingerprintRow.stored) = fun f => decide (f.fingerprint = fp) := by
    funext f
    simp [FingerprintRow.stored]
  rw [hfp]
  refine List.flatMap_congr fun f _ => ?_
  have hdoc : ((fun d : StoredDocument => decide (d.documentId = f.stored.documentId)) ∘
      DocumentRow.stored) = fun d => decide (d.documentId = f.documentId) := by
    funext d
    simp [DocumentRow.stored, FingerprintRow.stored]
  rw [List.filter_map, hdoc, List.map_map, List.map_map]
  rfl

theorem storedBefore_stored {a b : FingerprintRow × DocumentRow} (ha : fitsInt64 a.1.superseded)
    (hb : fitsInt64 b.1.superseded) :
    storedBefore (storedPair a) (storedPair b) ↔ orderedBefore a b := by
  simp only [storedBefore, orderedBefore, storedPair, FingerprintRow.stored, Cell.ofInt_eq ha,
    Cell.ofInt_eq hb, Cell.le, Cell.rank, Cell.num, PyNum.le, ne_eq, not_true_eq_false, if_false,
    if_true, Int.cast_le, decide_eq_true_eq]
  rcases lt_trichotomy a.1.superseded b.1.superseded with h | h | h
  · simp [h, h.le, h.not_ge]
  · simp [h]
  · simp [h.not_ge, h.not_gt, h.ne']

theorem writableInt_of_fits {i : ℤ} (h : fitsInt64 i) : writableInt i = true := by
  obtain ⟨k, hk, hle⟩ : ∃ k, maxIntDigits = k + 1 ∧ 20 ≤ k + 1 := ⟨4299, rfl, by decide⟩
  have hpow : 10 ^ 20 ≤ 10 ^ (k + 1) := Nat.pow_le_pow_right (by decide) hle
  obtain ⟨hlo, hhi⟩ := h
  rw [writableInt, hk, digitsWithin_iff]
  omega

theorem payload_stored {r : FingerprintRow} (ho : fitsInt64 r.chunkOffset)
    (hl : fitsInt64 r.chunkLength) : r.stored.payload = r.payload := by
  have hfield (name value : String) {β : Type} (f : String → Except PyErr β) :
      (signingField name (.text value) >>= f) = (validateSigningField name value >>= fun _ => f value) := by
    change ((validateSigningField name value).map fun _ => value) >>= f = _
    cases validateSigningField name value <;> rfl
  have hint {i : ℤ} (h : fitsInt64 i) : intText i = .ok (Cell.int i).str :=
    intText_ok.mpr ⟨writableInt_of_fits h, rfl⟩
  unfold StoredFingerprint.payload FingerprintRow.payload canonicalPayload
  simp only [FingerprintRow.stored, hfield, Cell.ofInt_eq ho, Cell.ofInt_eq hl, hint ho, hint hl]
  rfl

theorem storedRow_stored {plan : QueryPlan} {stored : StoredPlan} (hplan : SamePlan plan stored)
    {t : Tables} (ht : t.Fits) (fp : String) : storedRow stored t.stored fp =
      (((plan.scan (t.joined fp)).insertionSort orderedBefore).head?).map storedPair := by
  have hfits : ∀ row ∈ plan.scan (t.joined fp), fitsInt64 row.1.superseded := fun row hrow =>
    (ht.fingerprints _ (mem_joined.mp ((plan.perm _).mem_iff.mp hrow)).1).2.2
  have hsort := List.map_insertionSort (r := orderedBefore) (s := storedBefore) storedPair
    (plan.scan (t.joined fp)) fun a ha b hb => (storedBefore_stored (hfits a ha) (hfits b hb)).symm
  rw [storedRow, joined_stored, hplan, ← hsort, List.head?_map]

/-- On tables of the declared types the reads are those of the index. -/
theorem verifyStored_stored {plan : QueryPlan} {stored : StoredPlan} (hplan : SamePlan plan stored)
    {conn : Connection} (ht : conn.tables.Fits) (fp : String) :
    verifyStored py secret stored conn.tables.stored fp = verify py secret plan conn fp := by
  rw [verifyStored, storedRow_stored hplan ht, verify, lookup]
  cases hrow : ((plan.scan (conn.tables.joined fp)).insertionSort orderedBefore).head? with
  | none => rfl
  | some row =>
    have hmem : row ∈ conn.tables.joined fp := by
      have := List.mem_of_mem_head? hrow
      rwa [List.mem_insertionSort, (plan.perm _).mem_iff] at this
    obtain ⟨hr, -, hd, -⟩ := mem_joined.mp hmem
    obtain ⟨ho, hl, hs⟩ := ht.fingerprints _ hr
    have htruthy {i : ℤ} (h : fitsInt64 i) : (Cell.ofInt i).truthy = (i != 0) := by
      rw [Cell.ofInt_eq h, Cell.truthy]
    simp only [Option.map_some, storedPair, payload_stored ho hl]
    simp only [DocumentRow.stored, FingerprintRow.stored, htruthy hs, htruthy (ht.documents _ hd)]
    rfl

/-! ## Corrupted tables -/

/-- Every column that is selected is UTF-8 where it is text, the text columns that are signed hold
text without a line break or a null byte, and the signature is ASCII text. -/
structure Readable (row : StoredRow) : Prop where
  decoded : ∀ c ∈ selected row, c.isGarbled = false
  signed : ∀ c ∈ [row.1.fingerprint, row.1.documentId, row.1.documentVersion, row.1.ingestedAt],
    ∃ s, c = .text s ∧ Clean s
  signature : ∃ s, row.1.signature = .text s ∧ isAscii s = true

/-- The signature is the HMAC of the signed columns. -/
def SignedNow (py : Stdlib) (secret : Bytes) (r : StoredFingerprint) : Prop :=
  ∃ payload, r.payload = .ok payload ∧ r.signature = .text (sign py payload secret)

theorem signingField_ok {name : String} {c : Cell} {s : String} :
    signingField name c = .ok s ↔ c = .text s ∧ Clean s := by
  cases c with
  | text v =>
    change (validateSigningField name v).map (fun _ => v) = .ok s ↔ _
    rw [map_ok]
    constructor
    · rintro ⟨u, hu, rfl⟩
      exact ⟨rfl, validateSigningField_ok.mp hu⟩
    · rintro ⟨hv, hs⟩
      obtain rfl := Cell.text.inj hv
      exact ⟨(), validateSigningField_ok.mpr hs, rfl⟩
  | int i | real x r | garbled b | blob b => simp [signingField]

theorem stored_payload_eq {r : StoredFingerprint} {payload : Bytes} :
    r.payload = .ok payload ↔ ∃ f d v t, (r.fingerprint = .text f ∧ r.documentId = .text d ∧
      r.documentVersion = .text v ∧ r.ingestedAt = .text t) ∧
      (Clean f ∧ Clean d ∧ Clean v ∧ Clean t) ∧
      encodeUtf8 (joinWith "\n" [f, d, v, t, r.chunkOffset.str, r.chunkLength.str]) = payload := by
  simp only [StoredFingerprint.payload, bind_ok, signingField_ok, Except.ok.injEq]
  constructor
  · rintro ⟨f, ⟨hf, cf⟩, d, ⟨hd, cd⟩, v, ⟨hv, cv⟩, t, ⟨ht, ct⟩, h⟩
    exact ⟨f, d, v, t, ⟨hf, hd, hv, ht⟩, ⟨cf, cd, cv, ct⟩, h⟩
  · rintro ⟨f, d, v, t, ⟨hf, hd, hv, ht⟩, ⟨cf, cd, cv, ct⟩, h⟩
    exact ⟨f, ⟨hf, cf⟩, d, ⟨hd, cd⟩, v, ⟨hv, cv⟩, t, ⟨ht, ct⟩, h⟩

theorem stored_payload_ok {r : StoredFingerprint} :
    (∃ payload, r.payload = .ok payload) ↔
      ∀ c ∈ [r.fingerprint, r.documentId, r.documentVersion, r.ingestedAt],
        ∃ s, c = .text s ∧ Clean s := by
  simp only [stored_payload_eq, List.forall_mem_cons]
  constructor
  · rintro ⟨_, f, d, v, t, ⟨hf, hd, hv, ht⟩, ⟨cf, cd, cv, ct⟩, -⟩
    exact ⟨⟨f, hf, cf⟩, ⟨d, hd, cd⟩, ⟨v, hv, cv⟩, ⟨t, ht, ct⟩, by simp⟩
  · rintro ⟨⟨f, hf, cf⟩, ⟨d, hd, cd⟩, ⟨v, hv, cv⟩, ⟨t, ht, ct⟩, -⟩
    exact ⟨_, f, d, v, t, ⟨hf, hd, hv, ht⟩, ⟨cf, cd, cv, ct⟩, rfl⟩

theorem compareCell_ok {expected : String} {c : Cell} (h : isAscii expected = true) :
    (∃ same, compareCell expected c = .ok same) ↔ ∃ s, c = .text s ∧ isAscii s = true := by
  cases c with
  | text s => simp only [compareCell, compareDigest_ok h, Cell.text.injEq, exists_eq_left']
  | int i | real x r | garbled b | blob b => simp [compareCell]

theorem compareCell_true {expected : String} {c : Cell} (h : isAscii expected = true) :
    compareCell expected c = .ok true ↔ c = .text expected := by
  cases c with
  | text s =>
    rw [compareCell, compareDigest_true h, Cell.text.injEq]
    exact eq_comm
  | int i | real x r | garbled b | blob b => simp [compareCell]

theorem decoded_iff {row : StoredRow} {e : PyErr} :
    raiseIf ((selected row).any Cell.isGarbled) e = .ok () ↔
      ∀ c ∈ selected row, c.isGarbled = false := by
  rw [raiseIf_ok]
  simp

/-- A row that can be read is checked, and found tampered where its signature does not fit. -/
theorem verifyStored_readable {plan : StoredPlan} {t : StoredTables} {fp : String} {row : StoredRow}
    (hrow : storedRow plan t fp = some row) (h : Readable row) :
    ∃ outcome, verifyStored py secret plan t fp = .ok outcome ∧
      (¬ SignedNow py secret row.1 → outcome = .tampered) := by
  obtain ⟨payload, hpayload⟩ := stored_payload_ok.mpr h.signed
  obtain ⟨sig, hsig, hascii⟩ := h.signature
  have hcompare : compareCell (sign py payload secret) row.1.signature =
      .ok (sign py payload secret == sig) := by
    rw [hsig, compareCell, compareDigest, if_pos ⟨hexdigest_ascii _, hascii⟩]
  rw [verifyStored, hrow]
  dsimp only
  rw [decoded_iff.mpr h.decoded, hpayload]
  by_cases hsame : sign py payload secret = sig
  · have hsigned : SignedNow py secret row.1 := ⟨payload, hpayload, by rw [hsig, hsame]⟩
    refine ⟨if ¬ row.2.authorized.truthy then .unauthorized else
      if row.1.superseded.truthy then .stale else .verified, ?_, fun hnot => absurd hsigned hnot⟩
    refine bind_ok.mpr ⟨(), rfl, bind_ok.mpr ⟨payload, rfl, bind_ok.mpr ⟨true, ?_, ?_⟩⟩⟩
    · rw [hcompare, hsame, beq_self_eq_true]
    · rw [if_neg (by simp)]
      split_ifs <;> rfl
  · refine ⟨.tampered, bind_ok.mpr ⟨(), rfl, bind_ok.mpr ⟨payload, rfl, bind_ok.mpr ⟨false, ?_,
      if_pos (by simp)⟩⟩⟩, fun _ => rfl⟩
    rw [hcompare, beq_eq_false_iff_ne.mpr hsame]

theorem readable_of_ok {plan : StoredPlan} {t : StoredTables} {fp : String} {row : StoredRow}
    {outcome : VerificationOutcome} (hrow : storedRow plan t fp = some row)
    (h : verifyStored py secret plan t fp = .ok outcome) : Readable row := by
  rw [verifyStored, hrow] at h
  obtain ⟨_, hdecoded, h⟩ := bind_ok.mp h
  obtain ⟨payload, hpayload, h⟩ := bind_ok.mp h
  obtain ⟨same, hsame, -⟩ := bind_ok.mp h
  exact ⟨decoded_iff.mp hdecoded, stored_payload_ok.mp ⟨payload, hpayload⟩,
    (compareCell_ok (hexdigest_ascii _)).mp ⟨same, hsame⟩⟩

/-- Whatever the tables hold, verification returns, and reports a selected row whose signature does
not fit as tampered, exactly where the selected row can be read. -/
theorem verify_total_iff (py : Stdlib) (secret : Bytes) (plan : StoredPlan) (t : StoredTables)
    (fp : String) :
    (∃ outcome, verifyStored py secret plan t fp = .ok outcome ∧
        ∀ row, storedRow plan t fp = some row → ¬ SignedNow py secret row.1 →
          outcome = .tampered) ↔
      ∀ row, storedRow plan t fp = some row → Readable row := by
  constructor
  · rintro ⟨outcome, h, -⟩ row hrow
    exact readable_of_ok hrow h
  · intro h
    cases hrow : storedRow plan t fp with
    | none =>
      refine ⟨.unverified, ?_, by simp⟩
      rw [verifyStored, hrow]
    | some row =>
      obtain ⟨outcome, hverify, htampered⟩ : ∃ outcome,
          verifyStored py secret plan t fp = .ok outcome ∧
            (¬ SignedNow py secret row.1 → outcome = .tampered) :=
        verifyStored_readable hrow (h row hrow)
      refine ⟨outcome, hverify, fun r hr => ?_⟩
      obtain rfl := Option.some.inj hr
      exact htampered

namespace Sample

def storedPlan : StoredPlan where
  scan := id
  perm rows := List.Perm.refl rows

/-- One row, whose signature was overwritten by no ASCII. -/
def corrupted : StoredTables where
  documents := [{
    documentId := .text "doc"
    authorized := .int 1
    inText := rfl
    inInteger := by decide }]
  fingerprints := [{
    fingerprint := .text "sha256:aa"
    documentId := .text "doc"
    documentVersion := .text "sha256:bb"
    ingestedAt := .text "now"
    chunkOffset := .int 0
    chunkLength := .int 1
    superseded := .int 0
    signature := .text "é"
    inText := by decide
    inInteger := by decide }]

end Sample

/-- A signature that is no ASCII text is not reported as tampered: the comparison raises. -/
theorem corrupted_signature_raises :
    (∃ row, storedRow Sample.storedPlan Sample.corrupted "sha256:aa" = some row ∧
        ¬ SignedNow Stdlib.blank [107] row.1) ∧
      verifyStored Stdlib.blank [107] Sample.storedPlan Sample.corrupted "sha256:aa" =
        .error (.typeError none) := by
  refine ⟨⟨_, rfl, ?_⟩, rfl⟩
  rintro ⟨payload, -, hsig⟩
  have hascii := hexdigest_ascii (Stdlib.blank.hmacSha256 [107] payload)
  rw [show hexdigest (Stdlib.blank.hmacSha256 [107] payload) = "é" from (Cell.text.inj hsig).symm]
    at hascii
  exact absurd hascii (by decide)

end Provenex.Sqlite
