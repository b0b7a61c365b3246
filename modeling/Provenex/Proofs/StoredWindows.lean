import Provenex.Proofs.Normalization
import Provenex.Proofs.Whitespace
import Provenex.Proofs.Windows

/-! A stored window is found again where normalization leaves it as it is. The
whitespace step is what usually does not: a window is single-spaced, but may begin
or end with a space. -/

namespace Provenex

section

variable (py : Stdlib)

/-- Where the windows of a text of `n` codepoints start, and how long they are. -/
def windowSpans (n w s : ℕ) : List (ℕ × ℕ) :=
  if n = 0 then [] else if n ≤ w then [(0, n)] else (Windows.offsets n w s).map fun i => (i, w)

theorem directWindows_eq (text : String) (w s : ℕ) :
    directWindows py text w s =
      (windowSpans (codepoints text).length w s).map fun span => directWindow py text span.1 span.2 := by
  unfold directWindows windowSpans
  simp only
  split_ifs
  · rfl
  · rfl
  · rw [List.map_map]
    exact List.map_congr_left fun i _ => rfl

theorem iterWindowHashes_ok {text : String} {windowSize stride : ℤ} {windows : List WindowHash}
    (h : iterWindowHashes py text windowSize stride = .ok windows) : 1 ≤ windowSize ∧ 1 ≤ stride := by
  unfold iterWindowHashes at h
  split_ifs at h
  all_goals omega

/-- What `fingerprint` returns, of the normalized text and its windows. -/
theorem fingerprint_ok {fp : Fingerprinter} {text : String} {result : FingerprintingResult}
    (h : fp.fingerprint py text = .ok result) :
    result.documentVersion = sha256Fingerprint py (normalize py fp.normalization text).text ∧
    result.fingerprints =
      (windowSpans (codepoints (normalize py fp.normalization text).text).length fp.windowSize.toNat
        fp.stride.toNat).map fun span =>
          ⟨sha256Fingerprint py (sliceText (normalize py fp.normalization text).text span.1 span.2),
            span.1, span.2, (normalize py fp.normalization text).applied⟩ := by
  unfold Fingerprinter.fingerprint at h
  obtain ⟨windows, hwindows, hresult⟩ := Guard.bind_ok.mp h
  obtain rfl := Except.ok.inj hresult
  obtain ⟨hw, hs⟩ := iterWindowHashes_ok py hwindows
  rw [iterWindowHashes_direct py _ hw hs, directWindows_eq] at hwindows
  obtain rfl := Except.ok.inj hwindows
  exact ⟨rfl, List.map_map⟩

/-! ## What normalization leaves alone -/

/-- The steps before the whitespace step leave the text alone. -/
structure Plain (options : NormalizationOptions) (text : String) : Prop where
  composed : options.unicodeNfc = true → py.nfc text = text
  visible : options.stripZeroWidth = true → ∀ c ∈ text.toList, c ∉ zeroWidthChars
  folded : options.caseFold = true → py.casefold text = text

theorem Plain.spelled {options : NormalizationOptions} {text : String} (h : Plain py options text) :
    spelled py options text = text := by
  have hcompose : composeStep py options text = text := by
    unfold composeStep
    split_ifs with hon
    · exact h.composed hon
    · rfl
  have hstrip : stripStep options text = text := by
    unfold stripStep
    split_ifs with hon
    · rw [filter_visible (h.visible hon), String.ofList_toList]
    · rfl
  have hfold : foldStep py options text = text := by
    unfold foldStep
    split_ifs with hon
    · exact h.folded hon
    · rfl
  rw [Provenex.spelled, hcompose, hstrip, hfold]

theorem sliceText_part (text : String) (i n : ℕ) : (sliceText text i n).toList <:+: text.toList := by
  rw [sliceText, String.toList_ofList]
  exact (List.take_prefix _ _).isInfix.trans (List.drop_suffix _ _).isInfix

theorem normalized_single {options : NormalizationOptions} (hon : options.whitespaceCollapse = true)
    (text : String) : SingleSpaced (normalize py options text).text.toList := by
  rw [normalize_text, collapseStep, if_pos hon, String.toList_ofList]
  exact collapse_single _

/-- A slice of normalized text that the other steps leave alone is changed at its ends only. -/
theorem normalize_slice_iff {options : NormalizationOptions} (text : String) (i n : ℕ)
    (h : Plain py options (sliceText (normalize py options text).text i n)) :
    (normalize py options (sliceText (normalize py options text).text i n)).text =
        sliceText (normalize py options text).text i n ↔
      (options.whitespaceCollapse = true →
        Trimmed (sliceText (normalize py options text).text i n).toList) := by
  rw [normalize_text, h.spelled, collapseStep]
  split_ifs with hon
  · have hsingle := (normalized_single py hon text).part (sliceText_part _ i n)
    rw [← hsingle.collapse_iff, ← String.toList_inj, String.toList_ofList, imp_iff_right hon]
    rfl
  · exact iff_of_true rfl fun hoff => absurd hoff hon

/-! ## What is found again -/

/-- The fingerprints of a text are found again from the slices they were taken of exactly where
normalization leaves each of these as it is, or SHA-256 collides. Of a slice that the other steps
leave alone, that is that it neither begins nor ends with whitespace where that is collapsed. -/
theorem stored_windows_match_iff (fp : Fingerprinter) (text : String) (result : FingerprintingResult)
    (h : fp.fingerprint py text = .ok result) :
    ((∀ f ∈ result.fingerprints,
        fp.fingerprintChunk py (sliceText (normalize py fp.normalization text).text f.offset f.length) =
          f.fingerprint) ↔
      ∀ span ∈ windowSpans (codepoints (normalize py fp.normalization text).text).length
          fp.windowSize.toNat fp.stride.toNat,
        let window := sliceText (normalize py fp.normalization text).text span.1 span.2
        (normalize py fp.normalization window).text = window ∨
          Collide py (normalize py fp.normalization window).text window) ∧
    ∀ i n, Plain py fp.normalization (sliceText (normalize py fp.normalization text).text i n) →
      ((normalize py fp.normalization (sliceText (normalize py fp.normalization text).text i n)).text =
          sliceText (normalize py fp.normalization text).text i n ↔
        (fp.normalization.whitespaceCollapse = true →
          Trimmed (sliceText (normalize py fp.normalization text).text i n).toList)) := by
  refine ⟨?_, fun i n => normalize_slice_iff py text i n⟩
  rw [(fingerprint_ok py h).2, List.forall_mem_map]
  refine forall₂_congr fun span _ => ?_
  exact sha256Fingerprint_eq_iff py

end

namespace Sample

/-- The SHA-256 of the texts below. -/
def windowDigests : Stdlib := { Stdlib.blank with
  sha256 := fun b => (List.lookup b [
    (encodeUtf8 "a", [202, 151, 129, 18, 202, 27, 189, 202, 250, 194, 49, 179, 154, 35, 220, 77, 167,
      134, 239, 248, 20, 124, 78, 114, 185, 128, 119, 133, 175, 238, 72, 187]),
    (encodeUtf8 "a ", [101, 131, 220, 214, 5, 111, 211, 42, 173, 208, 210, 208, 190, 146, 13, 233, 159,
      111, 240, 139, 128, 6, 94, 75, 145, 66, 170, 164, 22, 147, 145, 203])]).getD [] }

end Sample

theorem stored_windows_sample :
    ∃ result, (Fingerprinter.mk 2 2 .default).fingerprint .blank "abcd" = .ok result ∧
      ∀ f ∈ result.fingerprints,
        (Fingerprinter.mk 2 2 .default).fingerprintChunk .blank
          (sliceText (normalize .blank .default "abcd").text f.offset f.length) = f.fingerprint := by
  refine ⟨_, rfl, (stored_windows_match_iff .blank (Fingerprinter.mk 2 2 .default) "abcd" _ rfl).1.mpr ?_⟩
  have hfixed : ∀ span ∈ windowSpans 4 2 2, (normalize .blank .default (sliceText "abcd" span.1 span.2)).text =
      sliceText "abcd" span.1 span.2 := by decide
  exact fun span hspan => Or.inl (hfixed span hspan)

/-- The first of the two windows is `a` and a space, and the space does not survive. -/
theorem stored_window_is_lost :
    ∃ result, (Fingerprinter.mk 2 1 .default).fingerprint Sample.windowDigests "a b" = .ok result ∧
      ∃ f ∈ result.fingerprints, f.offset = 0 ∧ f.length = 2 ∧
        (Fingerprinter.mk 2 1 .default).fingerprintChunk Sample.windowDigests
          (sliceText (normalize Sample.windowDigests .default "a b").text f.offset f.length) ≠ f.fingerprint := by
  refine ⟨_, rfl, _, List.mem_cons_self, rfl, rfl, fun heq => ?_⟩
  have hsha := sha256Hex_inj heq
  revert hsha
  decide

end Provenex
