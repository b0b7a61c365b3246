import Provenex.Policy.Evaluator

/-! `core/normalizer.py`, `core/hasher.py` and `core/fingerprinter.py`: text is
normalized, then hashed whole or window by window. -/

namespace Provenex

/-! ## Normalization -/

structure NormalizationOptions where
  unicodeNfc : Bool
  whitespaceCollapse : Bool
  caseFold : Bool
  stripZeroWidth : Bool
  deriving DecidableEq, Repr

def NormalizationOptions.default : NormalizationOptions := ⟨true, true, false, true⟩

def zeroWidthChars : List Char := ['\u200b', '\u200c', '\u200d', '\u2060', '\ufeff']

/-- `re.sub(r"\s+", " ", s)`; `inRun` after a space that was already replaced. -/
def collapseRuns (inRun : Bool) : List Char → List Char
  | [] => []
  | c :: cs =>
    if isSpace c then if inRun then collapseRuns true cs else ' ' :: collapseRuns true cs
    else c :: collapseRuns false cs

/-- `s.strip()`. -/
def strip (cs : List Char) : List Char :=
  ((cs.dropWhile isSpace).reverse.dropWhile isSpace).reverse

structure NormalizationResult where
  text : String
  applied : List String

/-- One step of the pipeline, where it is enabled. -/
def NormalizationResult.apply (r : NormalizationResult) (enabled : Bool) (name : String)
    (f : String → String) : NormalizationResult :=
  if enabled then ⟨f r.text, r.applied ++ [name]⟩ else r

/-- `TextNormalizer.normalize`. -/
def normalize (py : Stdlib) (options : NormalizationOptions) (text : String) : NormalizationResult :=
  let r : NormalizationResult := ⟨text, []⟩
  let r := r.apply options.unicodeNfc "unicode_nfc" py.nfc
  let r := r.apply options.stripZeroWidth "strip_zero_width" fun s =>
    String.ofList (s.toList.filter fun c => c ∉ zeroWidthChars)
  let r := r.apply options.caseFold "case_fold" py.casefold
  r.apply options.whitespaceCollapse "whitespace_collapse" fun s =>
    String.ofList (strip (collapseRuns false s.toList))

/-! ## Window hashes -/

def rollingBase : ℤ := 1000003

def rollingMod : ℤ := 2 ^ 61 - 1

structure WindowHash where
  offset : ℕ
  length : ℕ
  rollingHash : ℤ
  fingerprint : String

/-- A primed `RollingHasher`. -/
structure RollingHasher where
  windowSize : ℕ
  value : ℤ

namespace RollingHasher

def topPower (h : RollingHasher) : ℤ := rollingBase ^ (h.windowSize - 1) % rollingMod

/-- The constructor and `prime`, of as many codepoints as the window is wide. -/
def prime (codepoints : List ℕ) : RollingHasher where
  windowSize := codepoints.length
  value := codepoints.foldl (fun h cp => (h * rollingBase + cp) % rollingMod) 0

def roll (h : RollingHasher) (outCodepoint inCodepoint : ℕ) : RollingHasher :=
  let v := (h.value - outCodepoint * h.topPower) % rollingMod
  { h with value := (v * rollingBase + inCodepoint) % rollingMod }

end RollingHasher

section

variable (py : Stdlib)

def sha256Fingerprint (text : String) : String := sha256Hex py (encodeUtf8 text)

/-- `text[i : i + n]`. -/
def sliceText (text : String) (i n : ℕ) : String := String.ofList ((text.toList.drop i).take n)

def codepoints (text : String) : List ℕ := text.toList.map Char.toNat

/-- `WindowHash` of the window at `i`, whose rolling hash was computed. -/
def windowAt (text : String) (i : ℕ) (h : RollingHasher) : WindowHash :=
  ⟨i, h.windowSize, h.value, sha256Fingerprint py (sliceText text i h.windowSize)⟩

/-- The loop over the positions after the first, one codepoint at a time. -/
def slide (text : String) (stride : ℕ) (h : RollingHasher) : List ℕ → List WindowHash
  | [] => []
  | i :: rest =>
    let cps := codepoints text
    let h' := h.roll (cps.getD (i - 1) 0) (cps.getD (i + h.windowSize - 1) 0)
    if i % stride = 0 then windowAt py text i h' :: slide text stride h' rest
    else slide text stride h' rest

def iterWindowHashes (text : String) (windowSize stride : ℤ) : Except PyErr (List WindowHash) :=
  if windowSize < 1 then .error (.valueError (some "window_size must be >= 1"))
  else if stride < 1 then .error (.valueError (some "stride must be >= 1"))
  else
    let cps := codepoints text
    let n := cps.length
    let w := windowSize.toNat
    if n ≤ w then
      if n = 0 then .ok []
      else .ok [⟨0, n, (RollingHasher.prime cps).value, sha256Fingerprint py text⟩]
    else
      let h := RollingHasher.prime (cps.take w)
      .ok (windowAt py text 0 h :: slide py text stride.toNat h (List.range' 1 (n - w)))

/-! ## Fingerprints -/

structure Fingerprint where
  fingerprint : String
  offset : ℕ
  length : ℕ
  normalizationApplied : List String

structure FingerprintingResult where
  fingerprints : List Fingerprint
  documentVersion : String
  normalizationApplied : List String

/-- A `Fingerprinter`, by its configuration. -/
structure Fingerprinter where
  windowSize : ℤ
  stride : ℤ
  normalization : NormalizationOptions
  deriving DecidableEq, Repr

namespace Fingerprinter

/-- `Fingerprinter(FingerprinterConfig())`. -/
def default : Fingerprinter := ⟨128, 64, .default⟩

def fingerprint (fp : Fingerprinter) (text : String) : Except PyErr FingerprintingResult := do
  let norm := normalize py fp.normalization text
  let windows ← iterWindowHashes py norm.text fp.windowSize fp.stride
  .ok ⟨windows.map fun w => ⟨w.fingerprint, w.offset, w.length, norm.applied⟩,
    sha256Fingerprint py norm.text, norm.applied⟩

/-- One fingerprint of the whole chunk. -/
def fingerprintChunk (fp : Fingerprinter) (text : String) : String :=
  sha256Fingerprint py (normalize py fp.normalization text).text

end Fingerprinter

end

end Provenex
