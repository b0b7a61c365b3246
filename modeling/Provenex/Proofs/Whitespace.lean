import Provenex.Core.Fingerprinter
import Mathlib.Data.List.Chain
import Mathlib.Data.List.DropRight

/-! The whitespace step. Its output is single-spaced, a single-spaced list is
changed only at its ends, and two lists collapse alike exactly where `str.split`
makes the same words of them. -/

namespace Provenex

/-- `re.sub(r"\s+", " ", s).strip()` -/
def collapse (cs : List Char) : List Char := strip (collapseRuns false cs)

/-- No whitespace at either end. -/
structure Trimmed (cs : List Char) : Prop where
  head : ∀ c ∈ cs.head?, isSpace c = false
  last : ∀ c ∈ cs.getLast?, isSpace c = false

/-- All whitespace is spaces, and no two are next to each other. -/
structure SingleSpaced (cs : List Char) : Prop where
  spaces : ∀ c ∈ cs, isSpace c = true → c = ' '
  apart : cs.IsChain fun a b => isSpace a = true → isSpace b = false

theorem isSpace_space : isSpace ' ' = true := by decide

/-! ## Ends -/

theorem strip_eq (cs : List Char) : strip cs = List.rdropWhile isSpace (cs.dropWhile isSpace) := rfl

theorem strip_part (cs : List Char) : strip cs <:+: cs :=
  (List.rdropWhile_prefix isSpace _).isInfix.trans (List.dropWhile_suffix isSpace).isInfix

theorem dropWhile_eq_self {cs : List Char} :
    cs.dropWhile isSpace = cs ↔ ∀ c ∈ cs.head?, isSpace c = false := by
  rw [List.dropWhile_eq_self_iff]
  cases cs with
  | nil => simp
  | cons c cs => simp

theorem rdropWhile_eq_self {cs : List Char} :
    List.rdropWhile isSpace cs = cs ↔ ∀ c ∈ cs.getLast?, isSpace c = false := by
  rw [List.rdropWhile_eq_self_iff]
  constructor
  · intro h c hc
    obtain ⟨hne, rfl⟩ := List.mem_getLast?_eq_getLast hc
    simpa using h hne
  · intro h hne
    simpa using h _ (List.getLast?_eq_getLast_of_ne_nil hne)

theorem strip_eq_self_iff {cs : List Char} : strip cs = cs ↔ Trimmed cs := by
  rw [strip_eq]
  constructor
  · intro h
    have hdrop : cs.dropWhile isSpace = cs := by
      refine (List.dropWhile_suffix isSpace).eq_of_length_le ?_
      have hle := (List.rdropWhile_prefix isSpace (cs.dropWhile isSpace)).length_le
      rwa [h] at hle
    rw [hdrop] at h
    exact ⟨dropWhile_eq_self.mp hdrop, rdropWhile_eq_self.mp h⟩
  · intro h
    rw [dropWhile_eq_self.mpr h.head, rdropWhile_eq_self.mpr h.last]

/-! ## Runs -/

theorem collapseRuns_space {c : Char} (hc : isSpace c = true) (cs : List Char) :
    collapseRuns false (c :: cs) = ' ' :: collapseRuns true cs ∧
      collapseRuns true (c :: cs) = collapseRuns true cs := by
  simp [collapseRuns, hc]

theorem collapseRuns_letter {c : Char} (hc : isSpace c = false) (inRun : Bool) (cs : List Char) :
    collapseRuns inRun (c :: cs) = c :: collapseRuns false cs := by
  simp [collapseRuns, hc]

/-- After a replaced space, no space follows. -/
theorem collapseRuns_head (cs : List Char) : ∀ c ∈ (collapseRuns true cs).head?, isSpace c = false := by
  induction cs with
  | nil => exact nofun
  | cons c cs ih =>
    cases hc : isSpace c with
    | true => rwa [(collapseRuns_space hc cs).2]
    | false =>
      rw [collapseRuns_letter hc]
      intro d hd
      rwa [← Option.some_inj.mp hd]

theorem collapseRuns_single (inRun : Bool) (cs : List Char) : SingleSpaced (collapseRuns inRun cs) := by
  induction cs generalizing inRun with
  | nil => exact ⟨nofun, List.isChain_nil⟩
  | cons c cs ih =>
    cases hc : isSpace c with
    | true =>
      cases inRun with
      | true =>
        rw [(collapseRuns_space hc cs).2]
        exact ih true
      | false =>
        rw [(collapseRuns_space hc cs).1]
        exact ⟨List.forall_mem_cons.mpr ⟨fun _ => rfl, (ih true).spaces⟩,
          List.isChain_cons.mpr ⟨fun d hd _ => collapseRuns_head cs d hd, (ih true).apart⟩⟩
    | false =>
      rw [collapseRuns_letter hc]
      refine ⟨List.forall_mem_cons.mpr ⟨fun h => ?_, (ih false).spaces⟩,
        List.isChain_cons.mpr ⟨fun d _ h => ?_, (ih false).apart⟩⟩
      · rw [hc] at h
        cases h
      · rw [hc] at h
        cases h

theorem SingleSpaced.part {cs ds : List Char} (h : SingleSpaced cs) (hpart : ds <:+: cs) : SingleSpaced ds := by
  refine ⟨fun c hc => h.spaces c (hpart.subset hc), ?_⟩
  obtain ⟨before, after, rfl⟩ := hpart
  exact h.apart.left_of_append.right_of_append

theorem collapse_single (cs : List Char) : SingleSpaced (collapse cs) :=
  (collapseRuns_single false cs).part (strip_part _)

theorem SingleSpaced.collapseRuns {cs : List Char} (h : SingleSpaced cs) (inRun : Bool)
    (hhead : inRun = true → ∀ c ∈ cs.head?, isSpace c = false) : Provenex.collapseRuns inRun cs = cs := by
  induction cs generalizing inRun with
  | nil => rfl
  | cons c cs ih =>
    obtain ⟨hnext, happart⟩ := List.isChain_cons.mp h.apart
    have hcs : SingleSpaced cs := ⟨fun d hd => h.spaces d (List.mem_cons_of_mem _ hd), happart⟩
    cases hc : isSpace c with
    | true =>
      obtain rfl : inRun = false := by
        by_contra hrun
        rw [hhead (Bool.not_eq_false _ ▸ hrun) c rfl] at hc
        cases hc
      rw [(collapseRuns_space hc cs).1, ih hcs true fun _ d hd => hnext d hd hc,
        ← h.spaces c List.mem_cons_self hc]
    | false => rw [collapseRuns_letter hc, ih hcs false nofun]

/-- A single-spaced list changes only at its ends. -/
theorem SingleSpaced.collapse_iff {cs : List Char} (h : SingleSpaced cs) : collapse cs = cs ↔ Trimmed cs := by
  rw [collapse, h.collapseRuns false nofun]
  exact strip_eq_self_iff

/-! ## Words -/

/-- `str.split()` -/
def splitWords (cs : List Char) : List (List Char) := (cs.splitOnP isSpace).filter fun w => w ≠ []

theorem splitWords_append (cs : List Char) {c : Char} (hc : isSpace c = true) (ds : List Char) :
    splitWords (cs ++ c :: ds) = splitWords cs ++ splitWords ds := by
  rw [splitWords, List.splitOnP_append_cons cs ds hc, List.filter_append]
  rfl

theorem splitWords_space {c : Char} (hc : isSpace c = true) (cs : List Char) :
    splitWords (c :: cs) = splitWords cs := splitWords_append [] hc cs

/-- A letter in front of whitespace or the end is a word of its own. -/
theorem splitWords_lone {c : Char} (hc : isSpace c = false) {cs : List Char}
    (hcs : ∀ d ∈ cs.head?, isSpace d = true) : splitWords (c :: cs) = [c] :: splitWords cs := by
  cases cs with
  | nil => simp [splitWords, List.splitOnP_cons_eq_if_modifyHead, hc]
  | cons d cs =>
    have hd := hcs d rfl
    have hword : splitWords [c] = [[c]] := by simp [splitWords, List.splitOnP_cons_eq_if_modifyHead, hc]
    rw [show c :: d :: cs = [c] ++ d :: cs from rfl, splitWords_append [c] hd, hword, splitWords_space hd]
    rfl

/-- A letter in front of a letter belongs to the same word. -/
theorem splitWords_letter {c d : Char} (hc : isSpace c = false) (hd : isSpace d = false) (cs : List Char) :
    splitWords (c :: d :: cs) = (splitWords (d :: cs)).modifyHead (c :: ·) ∧ splitWords (d :: cs) ≠ [] := by
  obtain ⟨w, ws, hws⟩ := List.exists_cons_of_ne_nil (List.splitOnP_ne_nil isSpace cs)
  simp [splitWords, List.splitOnP_cons_eq_if_modifyHead, hc, hd, hws]

theorem splitOnP_pieces (cs : List Char) : ∀ w ∈ cs.splitOnP isSpace, ∀ c ∈ w, isSpace c = false := by
  induction cs with
  | nil => simp
  | cons c cs ih =>
    rw [List.splitOnP_cons_eq_if_modifyHead]
    cases hc : isSpace c with
    | true => simpa using ih
    | false =>
      obtain ⟨w, ws, hws⟩ := List.exists_cons_of_ne_nil (List.splitOnP_ne_nil isSpace cs)
      rw [hws] at ih ⊢
      obtain ⟨hw, hrest⟩ := List.forall_mem_cons.mp ih
      exact List.forall_mem_cons.mpr ⟨List.forall_mem_cons.mpr ⟨hc, hw⟩, hrest⟩

/-- A word is not empty and has no whitespace. -/
theorem splitWords_word {cs w : List Char} (hw : w ∈ splitWords cs) :
    w ≠ [] ∧ ∀ c ∈ w, isSpace c = false := by
  obtain ⟨hmem, hne⟩ := List.mem_filter.mp hw
  exact ⟨of_decide_eq_true hne, splitOnP_pieces cs w hmem⟩

theorem intercalate_ne_nil {w : List Char} (hw : w ≠ []) (ws : List (List Char)) :
    [' '].intercalate (w :: ws) ≠ [] := by
  cases ws with
  | nil => rwa [List.intercalate_singleton]
  | cons w' ws =>
    rw [List.intercalate_cons_cons]
    simp [hw]

theorem intercalate_modifyHead (c : Char) {ws : List (List Char)} (hws : ws ≠ []) :
    [' '].intercalate (ws.modifyHead (c :: ·)) = c :: [' '].intercalate ws := by
  obtain ⟨w, ws, rfl⟩ := List.exists_cons_of_ne_nil hws
  cases ws with
  | nil => rfl
  | cons w' ws => rw [List.modifyHead_cons, List.intercalate_cons_cons, List.intercalate_cons_cons]; rfl

/-! ## What whitespace collapses to -/

theorem rdropWhile_cons (c : Char) (cs : List Char) :
    List.rdropWhile isSpace (c :: cs) =
      if List.rdropWhile isSpace cs = [] ∧ isSpace c = true then [] else c :: List.rdropWhile isSpace cs := by
  rw [List.rdropWhile, List.reverse_cons, List.dropWhile_append, List.rdropWhile]
  cases hrest : cs.reverse.dropWhile isSpace with
  | nil => cases hc : isSpace c <;> simp [hc]
  | cons d ds => simp

theorem collapse_eq_rdropWhile (cs : List Char) :
    collapse cs = List.rdropWhile isSpace (collapseRuns true cs) := by
  have hlead : (collapseRuns false cs).dropWhile isSpace = collapseRuns true cs := by
    cases cs with
    | nil => rfl
    | cons c cs =>
      cases hc : isSpace c with
      | true =>
        rw [(collapseRuns_space hc cs).1, (collapseRuns_space hc cs).2, List.dropWhile_cons_of_pos isSpace_space]
        exact dropWhile_eq_self.mpr (collapseRuns_head cs)
      | false =>
        rw [collapseRuns_letter hc, collapseRuns_letter hc, List.dropWhile_cons_of_neg (by simp [hc])]
  rw [collapse, strip_eq, hlead]

/-- What whitespace collapses to is the words, with one space between them. -/
theorem collapse_words (cs : List Char) : collapse cs = [' '].intercalate (splitWords cs) := by
  rw [collapse_eq_rdropWhile]
  induction cs with
  | nil => rfl
  | cons c cs ih =>
    cases hc : isSpace c with
    | true => rwa [(collapseRuns_space hc cs).2, splitWords_space hc]
    | false =>
      rw [collapseRuns_letter hc, rdropWhile_cons, if_neg (by simp [hc])]
      cases cs with
      | nil =>
        have hword : splitWords [c] = [[c]] := splitWords_lone hc (by simp)
        rw [hword]
        rfl
      | cons d cs =>
        cases hd : isSpace d with
        | true =>
          -- the word ends here; the space stays where another word follows
          rw [(collapseRuns_space hd cs).2, splitWords_space hd] at ih
          rw [(collapseRuns_space hd cs).1, rdropWhile_cons, ih, splitWords_lone hc (by simpa using hd),
            splitWords_space hd]
          cases hws : splitWords cs with
          | nil => simp [isSpace_space]
          | cons w ws =>
            have hw := (splitWords_word (hws ▸ List.mem_cons_self : w ∈ splitWords cs)).1
            rw [if_neg fun h => intercalate_ne_nil hw ws h.1, List.intercalate_cons_cons]
            rfl
        | false =>
          obtain ⟨hwords, hne⟩ := splitWords_letter hc hd cs
          rw [collapseRuns_letter hd] at ih ⊢
          rw [ih, hwords, intercalate_modifyHead c hne]

theorem splitWords_intercalate {ws : List (List Char)}
    (hws : ∀ w ∈ ws, w ≠ [] ∧ ∀ c ∈ w, isSpace c = false) : splitWords ([' '].intercalate ws) = ws := by
  induction ws with
  | nil => rfl
  | cons w ws ih =>
    obtain ⟨⟨hne, hw⟩, hrest⟩ := List.forall_mem_cons.mp hws
    have hword : splitWords w = [w] := by simp [splitWords, List.splitOnP_eq_singleton hw, hne]
    cases ws with
    | nil => rw [List.intercalate_singleton, hword]
    | cons w' ws =>
      rw [List.intercalate_cons_cons, List.append_assoc, List.singleton_append,
        splitWords_append _ isSpace_space, hword, ih hrest]
      rfl

/-- Two lists collapse alike exactly where they have the same words. -/
theorem collapse_eq_iff {cs ds : List Char} : collapse cs = collapse ds ↔ splitWords cs = splitWords ds := by
  rw [collapse_words, collapse_words]
  constructor
  · intro h
    rw [← splitWords_intercalate fun w hw => splitWords_word hw, h,
      splitWords_intercalate fun w hw => splitWords_word hw]
  · exact congrArg _

end Provenex
