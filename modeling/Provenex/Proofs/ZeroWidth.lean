import Provenex.Proofs.Normalization

/-! Zero-width characters inserted into a text. NFC runs before they are stripped, so
it composes what stands between them part by part: an inserted character that comes
between codepoints of one composition keeps them apart for good. -/

namespace Provenex

/-! ## Insertions -/

/-- Zero-width characters inserted into a text, any number of them at any positions: the characters of
the outcome, each with whether it was inserted. -/
structure Insertion (text evasive : String) where
  chars : List (Char × Bool)
  zeroWidth : ∀ e ∈ chars, e.2 = true → e.1 ∈ zeroWidthChars
  before : (chars.filter fun e => ! e.2).map Prod.fst = text.toList
  after : chars.map Prod.fst = evasive.toList

/-- A zero-width character that the text had. -/
def ownZeroWidth (e : Char × Bool) : Bool := ! e.2 && decide (e.1 ∈ zeroWidthChars)

/-- What stands between those. -/
def Insertion.runs {text evasive : String} (i : Insertion text evasive) : List (List (Char × Bool)) :=
  i.chars.splitOnP ownZeroWidth

/-- A run, before the insertion. -/
def uncut (run : List (Char × Bool)) : List Char := (run.filter fun e => ! e.2).map Prod.fst

/-- The parts into which the inserted characters cut a run. -/
def cut (run : List (Char × Bool)) : List (List Char) := (run.splitOnP Prod.snd).map (List.map Prod.fst)

section

variable (py : Stdlib) (options : NormalizationOptions)

/-- What NFC, and case folding where it is enabled, make of characters on their own. -/
def composed (cs : List Char) : List Char := (foldStep py options (py.nfc (String.ofList cs))).toList

/-- Composed part by part, the run becomes what it becomes as a whole: no inserted character stands
where NFC composes or reorders across it. -/
def Unbroken (run : List (Char × Bool)) : Prop :=
  (cut run).flatMap (composed py options) = composed py options (uncut run)

instance (run : List (Char × Bool)) : Decidable (Unbroken py options run) :=
  inferInstanceAs (Decidable (_ = _))

end

/-! ## What Unicode says -/

/-- NFC takes each of these characters to one of them, composes nothing across it and makes none. -/
structure Inert (nfc : String → String) (p : Char → Prop) : Prop where
  splits : ∀ d, p d → ∃ d', p d' ∧ ∀ a b, nfc (String.ofList (a ++ d :: b)) =
    String.ofList ((nfc (String.ofList a)).toList ++ d' :: (nfc (String.ofList b)).toList)
  makes : ∀ a : List Char, (∀ c ∈ a, ¬ p c) → ∀ c ∈ (nfc (String.ofList a)).toList, ¬ p c

/-- A text and its NFC decompose to the same characters, in two orders. Folding goes character by
character, keeps whitespace apart, and makes as much of a character as of its decomposition. -/
structure UnicodeText (py : Stdlib) (decompose fold : Char → List Char) : Prop where
  zeroWidth : Inert py.nfc (· ∈ zeroWidthChars)
  space : Inert py.nfc (isSpace · = true)
  equivalent : ∀ s, ((py.nfc s).toList.flatMap decompose).Perm (s.toList.flatMap decompose)
  decompose_ne : ∀ c, decompose c ≠ []
  casefold : ∀ s, py.casefold s = String.ofList (s.toList.flatMap fold)
  fold_space : ∀ c, isSpace c = true → fold c = [c]
  fold_letter : ∀ c, isSpace c = false → ∀ d ∈ fold c, isSpace d = false
  fold_decompose : ∀ c, (((decompose c).flatMap fold).flatMap decompose).length =
    ((fold c).flatMap decompose).length

theorem zeroWidth_not_space {z : Char} (hz : z ∈ zeroWidthChars) : ¬ isSpace z = true := by
  have hnone : zeroWidthChars.any isSpace = false := by decide
  exact List.any_eq_false.mp hnone z hz

/-! ## Cutting lists -/

/-- A list has no such element, or a first one. -/
theorem first_such {α : Type} (p : α → Prop) (l : List α) :
    (∀ x ∈ l, ¬ p x) ∨ ∃ a x b, l = a ++ x :: b ∧ (∀ y ∈ a, ¬ p y) ∧ p x := by
  classical
  induction l with
  | nil => exact Or.inl fun x hx => absurd hx List.not_mem_nil
  | cons x l ih =>
    by_cases hx : p x
    · exact Or.inr ⟨[], x, l, rfl, fun y hy => absurd hy List.not_mem_nil, hx⟩
    · rcases ih with hnone | ⟨a, y, b, rfl, ha, hy⟩
      · exact Or.inl (List.forall_mem_cons.mpr ⟨hx, hnone⟩)
      · exact Or.inr ⟨x :: a, y, b, rfl, List.forall_mem_cons.mpr ⟨hx, ha⟩, hy⟩

theorem splitOnP_flatten {α : Type} (p : α → Bool) (l : List α) :
    (l.splitOnP p).flatten = l.filter fun x => ! p x := by
  induction l with
  | nil => rfl
  | cons x l ih =>
    obtain ⟨run, runs, hruns⟩ := List.exists_cons_of_ne_nil (List.splitOnP_ne_nil p l)
    rw [List.splitOnP_cons_eq_if_modifyHead, List.filter_cons, ← ih, hruns]
    cases p x <;> simp

theorem uncut_nil : uncut [] = [] := rfl

theorem cut_nil : cut [] = [[]] := rfl

theorem uncut_cons (e : Char × Bool) (run : List (Char × Bool)) :
    uncut (e :: run) = if e.2 then uncut run else e.1 :: uncut run := by
  unfold uncut
  cases he : e.2 <;> simp [he]

theorem cut_cons (e : Char × Bool) (run : List (Char × Bool)) :
    cut (e :: run) = if e.2 then [] :: cut run else (cut run).modifyHead (e.1 :: ·) := by
  obtain ⟨part, parts, hparts⟩ := List.exists_cons_of_ne_nil (List.splitOnP_ne_nil Prod.snd run)
  unfold cut
  rw [List.splitOnP_cons_eq_if_modifyHead, hparts]
  cases e.2 <;> rfl

theorem cut_flatten (run : List (Char × Bool)) : (cut run).flatten = uncut run := by
  rw [cut, ← List.map_flatten, splitOnP_flatten]
  rfl

theorem uncut_subset (run : List (Char × Bool)) : uncut run ⊆ run.map Prod.fst :=
  List.map_subset _ (List.filter_subset_self _)

/-- Inserted characters are stripped, whatever else is. -/
theorem filter_uncut {chars : List (Char × Bool)} (h : ∀ e ∈ chars, e.2 = true → e.1 ∈ zeroWidthChars) :
    (chars.map Prod.fst).filter (fun c => c ∉ zeroWidthChars) =
      (uncut chars).filter fun c => c ∉ zeroWidthChars := by
  induction chars with
  | nil => rfl
  | cons e chars ih =>
    obtain ⟨he, hchars⟩ := List.forall_mem_cons.mp h
    rw [List.map_cons, uncut_cons, List.filter_cons, ih hchars]
    cases hinserted : e.2 with
    | true => simp [he hinserted]
    | false => simp [List.filter_cons]

theorem splitOnP_uncut (chars : List (Char × Bool)) :
    (uncut chars).splitOnP (· ∈ zeroWidthChars) = (chars.splitOnP ownZeroWidth).map uncut := by
  induction chars with
  | nil => rfl
  | cons e chars ih =>
    obtain ⟨run, runs, hruns⟩ := List.exists_cons_of_ne_nil (List.splitOnP_ne_nil ownZeroWidth chars)
    rw [hruns] at ih
    rw [uncut_cons, List.splitOnP_cons_eq_if_modifyHead, hruns]
    cases he : e.2 with
    | true => simp [ownZeroWidth, he, ih, uncut_cons]
    | false =>
      by_cases hz : e.1 ∈ zeroWidthChars
      · simp [ownZeroWidth, he, hz, ih, List.splitOnP_cons_eq_if_modifyHead, uncut_nil]
      · simp [ownZeroWidth, he, hz, ih, List.splitOnP_cons_eq_if_modifyHead, uncut_cons]

theorem splitOnP_cut {chars : List (Char × Bool)} (h : ∀ e ∈ chars, e.2 = true → e.1 ∈ zeroWidthChars) :
    (chars.map Prod.fst).splitOnP (· ∈ zeroWidthChars) = (chars.splitOnP ownZeroWidth).flatMap cut := by
  induction chars with
  | nil => rfl
  | cons e chars ih =>
    obtain ⟨he, hchars⟩ := List.forall_mem_cons.mp h
    obtain ⟨run, runs, hruns⟩ := List.exists_cons_of_ne_nil (List.splitOnP_ne_nil ownZeroWidth chars)
    have hcut : cut run ≠ [] := by simp [cut, List.splitOnP_ne_nil]
    obtain ⟨part, parts, hparts⟩ := List.exists_cons_of_ne_nil hcut
    have ih := ih hchars
    rw [hruns, List.flatMap_cons, hparts] at ih
    rw [List.map_cons, List.splitOnP_cons_eq_if_modifyHead, ih, List.splitOnP_cons_eq_if_modifyHead, hruns]
    cases hinserted : e.2 with
    | true => simp [ownZeroWidth, hinserted, he hinserted, cut_cons, hparts]
    | false =>
      by_cases hz : e.1 ∈ zeroWidthChars
      · simp [ownZeroWidth, hinserted, hz, hparts, cut_nil]
      · simp [ownZeroWidth, hinserted, hz, hparts, cut_cons]

/-! ## Stripping after NFC -/

/-- Stripping after NFC composes piece by piece. -/
theorem strip_nfc {py : Stdlib} (hnfc : Inert py.nfc (· ∈ zeroWidthChars)) (cs : List Char) :
    (py.nfc (String.ofList cs)).toList.filter (fun c => c ∉ zeroWidthChars) =
      (cs.splitOnP (· ∈ zeroWidthChars)).flatMap fun piece => (py.nfc (String.ofList piece)).toList := by
  -- induction on the length: what follows the first zero-width character is shorter
  induction hn : cs.length using Nat.strong_induction_on generalizing cs with
  | _ n ih =>
    rcases first_such (· ∈ zeroWidthChars) cs with hnone | ⟨a, z, b, rfl, ha, hz⟩
    · rw [List.splitOnP_eq_singleton fun c hc => decide_eq_false (hnone c hc), List.flatMap_singleton,
        filter_visible (hnfc.makes cs hnone)]
    · obtain ⟨z', hz', hsplit⟩ := hnfc.splits z hz
      have hrest := ih b.length (by simp at hn; omega) b rfl
      rw [List.splitOnP_append_cons_of_forall_mem (fun c hc => decide_eq_false (ha c hc)) z
        (decide_eq_true hz), List.flatMap_cons, ← hrest, hsplit, String.toList_ofList, List.filter_append,
        filter_visible (hnfc.makes a ha), List.filter_cons, if_neg (by simpa using hz')]

/-! ## Lengths, decomposed -/

/-- The length of the decomposition. -/
def decomposedLength (decompose : Char → List Char) (cs : List Char) : ℕ := (cs.flatMap decompose).length

theorem decomposedLength_append (decompose : Char → List Char) (a b : List Char) :
    decomposedLength decompose (a ++ b) = decomposedLength decompose a + decomposedLength decompose b := by
  simp [decomposedLength]

/-- Case folding, where it is enabled. -/
def folded (options : NormalizationOptions) (fold : Char → List Char) (cs : List Char) : List Char :=
  if options.caseFold then cs.flatMap fold else cs

theorem folded_append (options : NormalizationOptions) (fold : Char → List Char) (a b : List Char) :
    folded options fold (a ++ b) = folded options fold a ++ folded options fold b := by
  unfold folded
  split_ifs
  · exact List.flatMap_append
  · rfl

section

variable {py : Stdlib} {decompose fold : Char → List Char} (h : UnicodeText py decompose fold)
  (options : NormalizationOptions)
include h

theorem UnicodeText.length_eq_zero {cs : List Char} : decomposedLength decompose cs = 0 ↔ cs = [] := by
  rcases cs with _ | ⟨c, cs⟩
  · exact iff_of_true rfl rfl
  · have hc := List.length_pos_of_ne_nil (h.decompose_ne c)
    rw [decomposedLength, List.flatMap_cons, List.length_append]
    simp only [reduceCtorEq, iff_false]
    omega

theorem UnicodeText.append_inj {x y a b : List Char}
    (hlength : decomposedLength decompose x = decomposedLength decompose y) (heq : x ++ a = y ++ b) :
    x = y ∧ a = b := by
  rcases List.append_eq_append_iff.mp heq with ⟨u, rfl, rfl⟩ | ⟨u, rfl, rfl⟩
  · rw [decomposedLength_append] at hlength
    obtain rfl := h.length_eq_zero.mp (by omega : decomposedLength decompose u = 0)
    simp
  · rw [decomposedLength_append] at hlength
    obtain rfl := h.length_eq_zero.mp (by omega : decomposedLength decompose u = 0)
    simp

/-- Where corresponding pieces are as long, the wholes are the same only if the pieces are. -/
theorem UnicodeText.flatMap_inj {α : Type} {f g : α → List Char} {l : List α}
    (hlength : ∀ x ∈ l, decomposedLength decompose (f x) = decomposedLength decompose (g x)) :
    l.flatMap f = l.flatMap g ↔ ∀ x ∈ l, f x = g x := by
  induction l with
  | nil => simp
  | cons x l ih =>
    obtain ⟨hx, hl⟩ := List.forall_mem_cons.mp hlength
    rw [List.flatMap_cons, List.flatMap_cons, List.forall_mem_cons, ← ih hl]
    constructor
    · exact h.append_inj hx
    · rintro ⟨hhead, htail⟩
      rw [hhead, htail]

theorem UnicodeText.foldStep_toList (s : String) :
    (foldStep py options s).toList = folded options fold s.toList := by
  unfold foldStep folded
  split_ifs
  · rw [h.casefold, String.toList_ofList]
  · rfl

/-- What becomes of characters is as long as what folding alone makes of them. -/
theorem UnicodeText.composed_length (cs : List Char) :
    decomposedLength decompose (composed py options cs) =
      decomposedLength decompose (folded options fold cs) := by
  have hperm := h.equivalent (String.ofList cs)
  rw [String.toList_ofList] at hperm
  rw [composed, h.foldStep_toList]
  unfold folded
  split_ifs
  · have hdecompose (ds : List Char) :
        decomposedLength decompose ((ds.flatMap decompose).flatMap fold) =
          decomposedLength decompose (ds.flatMap fold) := by
      induction ds with
      | nil => rfl
      | cons d ds ih =>
        rw [List.flatMap_cons, List.flatMap_append, List.flatMap_cons, decomposedLength_append,
          decomposedLength_append, ih]
        exact congrArg (· + _) (h.fold_decompose d)
    rw [← hdecompose, ← hdecompose cs]
    exact ((hperm.flatMap_right fold).flatMap_right decompose).length_eq
  · exact hperm.length_eq

theorem UnicodeText.flatMap_composed_length (pieces : List (List Char)) :
    decomposedLength decompose (pieces.flatMap (composed py options)) =
      decomposedLength decompose (folded options fold pieces.flatten) := by
  induction pieces with
  | nil =>
    unfold folded
    split_ifs <;> rfl
  | cons piece pieces ih =>
    rw [List.flatMap_cons, List.flatten_cons, folded_append, decomposedLength_append,
      decomposedLength_append, ih, h.composed_length]

theorem UnicodeText.cut_length (run : List (Char × Bool)) :
    decomposedLength decompose ((cut run).flatMap (composed py options)) =
      decomposedLength decompose (composed py options (uncut run)) := by
  rw [h.flatMap_composed_length, h.composed_length, cut_flatten]

/-! ## The text before its whitespace is collapsed -/

variable (hcompose : options.unicodeNfc = true) (hstrip : options.stripZeroWidth = true)
include hcompose hstrip

theorem UnicodeText.spelled_toList (cs : List Char) : (spelled py options (String.ofList cs)).toList =
    folded options fold ((py.nfc (String.ofList cs)).toList.filter fun c => c ∉ zeroWidthChars) := by
  rw [spelled, h.foldStep_toList, stripStep, if_pos hstrip, composeStep, if_pos hcompose,
    String.toList_ofList]

theorem UnicodeText.spelled_pieces (cs : List Char) : (spelled py options (String.ofList cs)).toList =
    (cs.splitOnP (· ∈ zeroWidthChars)).flatMap (composed py options) := by
  rw [h.spelled_toList options hcompose hstrip, strip_nfc h.zeroWidth]
  generalize cs.splitOnP (· ∈ zeroWidthChars) = pieces
  induction pieces with
  | nil =>
    unfold folded
    split_ifs <;> rfl
  | cons piece pieces ih =>
    rw [List.flatMap_cons, folded_append, ih, List.flatMap_cons, composed, h.foldStep_toList]

/-- The length of what is spelled does not depend on the zero-width characters. -/
theorem UnicodeText.spelled_length (cs : List Char) :
    decomposedLength decompose (spelled py options (String.ofList cs)).toList =
      decomposedLength decompose (folded options fold (cs.filter fun c => c ∉ zeroWidthChars)) := by
  rw [h.spelled_pieces options hcompose hstrip, h.flatMap_composed_length, splitOnP_flatten]
  simp only [decide_not]

theorem UnicodeText.spelled_space {w : Char} (hw : isSpace w = true) : ∃ w', isSpace w' = true ∧
    ∀ a b, (spelled py options (String.ofList (a ++ w :: b))).toList =
      (spelled py options (String.ofList a)).toList ++ w' ::
        (spelled py options (String.ofList b)).toList := by
  obtain ⟨w', hw', hsplit⟩ := h.space.splits w hw
  have hvisible : w' ∉ zeroWidthChars := fun hz => zeroWidth_not_space hz hw'
  have hfold : folded options fold [w'] = [w'] := by
    unfold folded
    split_ifs
    · rw [List.flatMap_singleton, h.fold_space w' hw']
    · rfl
  refine ⟨w', hw', fun a b => ?_⟩
  simp only [h.spelled_toList options hcompose hstrip]
  rw [hsplit, String.toList_ofList, List.filter_append, List.filter_cons, if_pos (by simpa using hvisible),
    folded_append, ← List.singleton_append, folded_append, hfold, List.singleton_append]

theorem UnicodeText.spelled_letters {cs : List Char} (hcs : ∀ c ∈ cs, isSpace c = false) :
    ∀ c ∈ (spelled py options (String.ofList cs)).toList, isSpace c = false := by
  rw [h.spelled_toList options hcompose hstrip]
  have hnfc : ∀ c ∈ (py.nfc (String.ofList cs)).toList.filter fun c => c ∉ zeroWidthChars,
      isSpace c = false := fun c hc =>
    Bool.eq_false_of_not_eq_true (h.space.makes cs (fun d hd => by simp [hcs d hd]) c (List.mem_filter.mp hc).1)
  unfold folded
  split_ifs
  · intro c hc
    obtain ⟨d, hd, hc⟩ := List.mem_flatMap.mp hc
    exact h.fold_letter d (hnfc d hd) c hc
  · exact hnfc

omit h hcompose hstrip in
/-- Words of their own, in front of words. -/
theorem splitWords_letters_inj {x y : List Char} {ws vs : List (List Char)}
    (hx : ∀ c ∈ x, isSpace c = false) (hy : ∀ c ∈ y, isSpace c = false) (hnil : x = [] ↔ y = [])
    (hwords : splitWords x ++ ws = splitWords y ++ vs) : x = y ∧ ws = vs := by
  have hword {z : List Char} (hz : ∀ c ∈ z, isSpace c = false) (hne : z ≠ []) : splitWords z = [z] := by
    simp [splitWords, List.splitOnP_eq_singleton hz, hne]
  by_cases hempty : x = []
  · obtain rfl := hempty
    obtain rfl := hnil.mp rfl
    exact ⟨rfl, List.append_cancel_left hwords⟩
  · rw [hword hx hempty, hword hy fun h => hempty (hnil.mpr h)] at hwords
    exact List.cons.inj hwords

/-- The words of both texts stand between the same whitespace, so they are the same words only where
the texts are the same before the whitespace is collapsed. -/
theorem UnicodeText.spelled_of_words {chars : List (Char × Bool)}
    (hchars : ∀ e ∈ chars, e.2 = true → e.1 ∈ zeroWidthChars)
    (hwords : splitWords (spelled py options (String.ofList (chars.map Prod.fst))).toList =
      splitWords (spelled py options (String.ofList (uncut chars))).toList) :
    (spelled py options (String.ofList (chars.map Prod.fst))).toList =
      (spelled py options (String.ofList (uncut chars))).toList := by
  have hnil {part : List (Char × Bool)} (hpart : ∀ e ∈ part, e.2 = true → e.1 ∈ zeroWidthChars) :
      (spelled py options (String.ofList (part.map Prod.fst))).toList = [] ↔
        (spelled py options (String.ofList (uncut part))).toList = [] := by
    rw [← h.length_eq_zero, ← h.length_eq_zero, h.spelled_length options hcompose hstrip,
      h.spelled_length options hcompose hstrip, filter_uncut hpart]
  have hletters {part : List (Char × Bool)} (hpart : ∀ e ∈ part, ¬ isSpace e.1 = true) :
      (∀ c ∈ (spelled py options (String.ofList (part.map Prod.fst))).toList, isSpace c = false) ∧
        ∀ c ∈ (spelled py options (String.ofList (uncut part))).toList, isSpace c = false := by
    have hall : ∀ c ∈ part.map Prod.fst, isSpace c = false :=
      List.forall_mem_map.mpr fun e he => Bool.eq_false_of_not_eq_true (hpart e he)
    exact ⟨h.spelled_letters options hcompose hstrip hall,
      h.spelled_letters options hcompose hstrip fun c hc => hall c (uncut_subset part hc)⟩
  induction hn : chars.length using Nat.strong_induction_on generalizing chars with
  | _ n ih =>
    rcases first_such (fun e => isSpace e.1 = true) chars with hnone | ⟨a, e, b, rfl, ha, he⟩
    · obtain ⟨hafter, hbefore⟩ := hletters hnone
      exact (splitWords_letters_inj hafter hbefore (hnil hchars) (congrArg (· ++ []) hwords)).1
    · -- an inserted character is no whitespace, so this one stands in both texts
      have hown : e.2 = false := by
        by_contra hinserted
        have hz := hchars e (by simp) (Bool.eq_true_of_not_eq_false hinserted)
        exact absurd he (zeroWidth_not_space hz)
      obtain ⟨w', hw', hsplit⟩ := h.spelled_space options hcompose hstrip he
      have huncut : uncut (a ++ e :: b) = uncut a ++ e.1 :: uncut b := by simp [uncut, hown]
      rw [List.map_append, List.map_cons, huncut, hsplit, hsplit] at hwords ⊢
      rw [splitWords_append _ hw', splitWords_append _ hw'] at hwords
      have hcharsa : ∀ e ∈ a, e.2 = true → e.1 ∈ zeroWidthChars :=
        fun x hx => hchars x (List.mem_append_left _ hx)
      have hcharsb : ∀ e ∈ b, e.2 = true → e.1 ∈ zeroWidthChars :=
        fun x hx => hchars x (List.mem_append_right _ (List.mem_cons_of_mem _ hx))
      obtain ⟨hafter, hbefore⟩ := hletters ha
      obtain ⟨hhead, hrest⟩ := splitWords_letters_inj hafter hbefore (hnil hcharsa) hwords
      rw [hhead, ih b.length (by simp at hn; omega) hcharsb hrest rfl]

end

/-! ## Evasion -/

/-- An insertion is without effect exactly where no inserted character breaks the run it stands in. -/
theorem zero_width_evasion_iff (py : Stdlib) {decompose fold : Char → List Char}
    (h : UnicodeText py decompose fold) (fp : Fingerprinter)
    (hcompose : fp.normalization.unicodeNfc = true) (hstrip : fp.normalization.stripZeroWidth = true)
    (text evasive : String) (i : Insertion text evasive) :
    ((normalize py fp.normalization evasive).text = (normalize py fp.normalization text).text ∧
        fp.fingerprintChunk py evasive = fp.fingerprintChunk py text) ↔
      ∀ run ∈ i.runs, Unbroken py fp.normalization run := by
  obtain ⟨chars, hchars, hbefore, hafter⟩ := i
  obtain rfl : String.ofList (uncut chars) = text := by rw [uncut, hbefore, String.ofList_toList]
  obtain rfl : String.ofList (chars.map Prod.fst) = evasive := by rw [hafter, String.ofList_toList]
  have hspelled : (spelled py fp.normalization (String.ofList (chars.map Prod.fst))).toList =
      (spelled py fp.normalization (String.ofList (uncut chars))).toList ↔
        ∀ run ∈ chars.splitOnP ownZeroWidth, Unbroken py fp.normalization run := by
    rw [h.spelled_pieces _ hcompose hstrip, h.spelled_pieces _ hcompose hstrip, splitOnP_cut hchars,
      splitOnP_uncut, List.flatMap_assoc, List.flatMap_map]
    exact h.flatMap_inj fun run _ => h.cut_length fp.normalization run
  have hnormalize : (normalize py fp.normalization (String.ofList (chars.map Prod.fst))).text =
      (normalize py fp.normalization (String.ofList (uncut chars))).text ↔
        (spelled py fp.normalization (String.ofList (chars.map Prod.fst))).toList =
          (spelled py fp.normalization (String.ofList (uncut chars))).toList := by
    rw [normalize_eq_iff, SameWords, ← String.toList_inj]
    split_ifs
    · exact ⟨h.spelled_of_words _ hcompose hstrip hchars, congrArg _⟩
    · exact Iff.rfl
  rw [Insertion.runs, ← hspelled, ← hnormalize]
  exact ⟨And.left, fun h => ⟨h, by rw [Fingerprinter.fingerprintChunk, h, Fingerprinter.fingerprintChunk]⟩⟩

namespace Sample

def composeOne (c : Char) (cs : List Char) : List Char :=
  if c = 'e' ∧ cs.head? = some '\u0301' then '\u00e9' :: cs.tail else c :: cs

/-- NFC, of text in which nothing composes but an `e` and an acute accent. -/
def composeAcute (text : String) : String := String.ofList (text.toList.foldr composeOne [])

def decomposeAcute (c : Char) : List Char := if c = '\u00e9' then ['e', '\u0301'] else [c]

theorem foldr_composeOne {d : Char} (hd : d ≠ '\u0301') (a b : List Char) :
    a.foldr composeOne (d :: b) = a.foldr composeOne [] ++ d :: b := by
  induction a with
  | nil => rfl
  | cons c a ih =>
    rw [List.foldr_cons, List.foldr_cons, ih]
    cases a.foldr composeOne [] with
    | nil => simp [composeOne, hd]
    | cons x xs =>
      by_cases h : c = 'e' ∧ x = '\u0301' <;> simp [composeOne, h]

theorem composeAcute_inert {p : Char → Prop} (he : ¬ p 'e') (hacute : ¬ p '\u0301')
    (hcomposed : ¬ p '\u00e9') : Inert composeAcute p where
  splits d hd := by
    refine ⟨d, hd, fun a b => ?_⟩
    simp only [composeAcute, String.toList_ofList, List.foldr_append, List.foldr_cons]
    have hletter : d ≠ 'e' := fun h => he (h ▸ hd)
    have hfirst : composeOne d (b.foldr composeOne []) = d :: b.foldr composeOne [] :=
      if_neg fun h => hletter h.1
    rw [hfirst, foldr_composeOne fun h => hacute (h ▸ hd)]
  makes a ha := by
    rw [composeAcute, String.toList_ofList, String.toList_ofList]
    induction a with
    | nil => exact fun c hc => absurd hc List.not_mem_nil
    | cons c a ih =>
      obtain ⟨hc, ha⟩ := List.forall_mem_cons.mp ha
      rw [List.foldr_cons]
      unfold composeOne
      split_ifs
      · exact List.forall_mem_cons.mpr ⟨hcomposed, fun d hd => ih ha d (List.mem_of_mem_tail hd)⟩
      · exact List.forall_mem_cons.mpr ⟨hc, ih ha⟩

theorem composeAcute_equivalent (cs : List Char) :
    (cs.foldr composeOne []).flatMap decomposeAcute = cs.flatMap decomposeAcute := by
  induction cs with
  | nil => rfl
  | cons c cs ih =>
    rw [List.foldr_cons, List.flatMap_cons, ← ih]
    unfold composeOne
    split_ifs with h
    · obtain ⟨rfl, hhead⟩ := h
      obtain ⟨rest, hrest⟩ := List.head?_eq_some_iff.mp hhead
      rw [hrest]
      rfl
    · rfl

def accented : Stdlib := { Stdlib.blank with nfc := composeAcute }

theorem accented_unicode : UnicodeText accented decomposeAcute fun c => [c] where
  zeroWidth := composeAcute_inert (by decide) (by decide) (by decide)
  space := composeAcute_inert (by decide) (by decide) (by decide)
  equivalent s := by
    have hperm := composeAcute_equivalent s.toList
    rw [← String.toList_ofList (l := s.toList.foldr composeOne [])] at hperm
    exact List.Perm.of_eq hperm
  decompose_ne c := by
    unfold decomposeAcute
    split_ifs <;> simp
  casefold s := by
    rw [List.flatMap_singleton', String.ofList_toList]
    rfl
  fold_space c _ := rfl
  fold_letter c hc d hd := by
    rwa [List.mem_singleton.mp hd]
  fold_decompose c := by
    rw [List.flatMap_singleton', List.flatMap_singleton]
    unfold decomposeAcute
    split_ifs with h
    · decide
    · simp [h]

/-- Zero-width spaces before the letter and next to the space, where nothing composes. -/
def harmless : Insertion "ae\u0301 b" "a\u200be\u0301\u200b \u200bb" where
  chars := [('a', false), ('\u200b', true), ('e', false), ('\u0301', false), ('\u200b', true),
    (' ', false), ('\u200b', true), ('b', false)]
  zeroWidth := by decide
  before := by decide
  after := by decide

/-- A zero-width space before the accent. -/
def parting : Insertion "e\u0301" "e\u200b\u0301" where
  chars := [('e', false), ('\u200b', true), ('\u0301', false)]
  zeroWidth := by decide
  before := by decide
  after := by decide

end Sample

theorem zero_width_evasion_sample :
    (normalize Sample.accented .default "a\u200be\u0301\u200b \u200bb").text =
      (normalize Sample.accented .default "ae\u0301 b").text :=
  ((zero_width_evasion_iff Sample.accented Sample.accented_unicode .default rfl rfl _ _
    Sample.harmless).mpr (by decide)).1

/-- The accent is never composed. -/
theorem zero_width_evades :
    Nonempty (Insertion "e\u0301" "e\u200b\u0301") ∧
      (normalize Sample.accented .default "e\u0301").text = "\u00e9" ∧
      (normalize Sample.accented .default "e\u200b\u0301").text = "e\u0301" := by
  refine ⟨⟨Sample.parting⟩, ?_, ?_⟩
  · decide
  · decide

end Provenex
