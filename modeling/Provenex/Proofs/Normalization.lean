import Provenex.Proofs.VersionHash
import Provenex.Proofs.Whitespace

/-! The four steps of `normalize`, in order. Whitespace is what `str.split` makes of
it: the text after the last step is its words. -/

namespace Provenex

section

variable (py : Stdlib) (options : NormalizationOptions)

/-! ## The steps -/

def composeStep (text : String) : String := if options.unicodeNfc then py.nfc text else text

def stripStep (text : String) : String :=
  if options.stripZeroWidth then String.ofList (text.toList.filter fun c => c ∉ zeroWidthChars) else text

def foldStep (text : String) : String := if options.caseFold then py.casefold text else text

def collapseStep (text : String) : String :=
  if options.whitespaceCollapse then String.ofList (strip (collapseRuns false text.toList)) else text

/-- The text before its whitespace is collapsed. -/
def spelled (text : String) : String := foldStep py options (stripStep options (composeStep py options text))

theorem filter_visible {cs : List Char} (hcs : ∀ c ∈ cs, c ∉ zeroWidthChars) :
    cs.filter (fun c => c ∉ zeroWidthChars) = cs :=
  List.filter_eq_self.mpr fun c hc => decide_eq_true (hcs c hc)

theorem apply_text (r : NormalizationResult) (enabled : Bool) (name : String) (f : String → String) :
    (r.apply enabled name f).text = if enabled then f r.text else r.text := by
  unfold NormalizationResult.apply
  split_ifs <;> rfl

theorem normalize_text (text : String) :
    (normalize py options text).text = collapseStep options (spelled py options text) := by
  simp only [normalize, apply_text]
  rfl

/-- The texts that the whitespace step sees have the same words; without that step, are the same. -/
def SameWords (s t : String) : Prop :=
  if options.whitespaceCollapse then
    splitWords (spelled py options s).toList = splitWords (spelled py options t).toList
  else spelled py options s = spelled py options t

theorem normalize_eq_iff {options : NormalizationOptions} {s t : String} :
    (normalize py options s).text = (normalize py options t).text ↔ SameWords py options s t := by
  rw [normalize_text, normalize_text, collapseStep, collapseStep, SameWords]
  split_ifs
  · rw [String.ofList_inj]
    exact collapse_eq_iff
  · exact Iff.rfl

/-! ## Fingerprints -/

/-- Two texts that SHA-256 does not tell apart. -/
def Collide (s t : String) : Prop := s ≠ t ∧ py.sha256 (encodeUtf8 s) = py.sha256 (encodeUtf8 t)

theorem sha256Fingerprint_eq_iff {s t : String} :
    sha256Fingerprint py s = sha256Fingerprint py t ↔ s = t ∨ Collide py s t := by
  constructor
  · intro h
    exact or_iff_not_imp_left.mpr fun hne => ⟨hne, sha256Hex_inj h⟩
  · rintro (rfl | ⟨-, h⟩)
    · rfl
    · rw [sha256Fingerprint, sha256Fingerprint, sha256Hex, sha256Hex, h]

end

end Provenex
