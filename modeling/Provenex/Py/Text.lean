import Mathlib.Data.List.Basic

/-! A `str` by its code points. One with half of a surrogate pair is a `str` that UTF-8 has no
bytes for; the other modules know a text as a `String`. -/

namespace Provenex

/-- A code point of a `str`: a character, or half of a surrogate pair. -/
inductive CodePoint
  | char (c : Char)
  | half (i : Fin 2048)
  deriving DecidableEq, Repr

abbrev PyText := List CodePoint

namespace PyText

/-- A text that is written in the source. -/
def of (s : String) : PyText := s.toList.map .char

def chars? : PyText → Option (List Char)
  | [] => some []
  | .char c :: rest => (chars? rest).map (c :: ·)
  | .half _ :: _ => none

/-- The text, where UTF-8 can hold it. -/
def string? (t : PyText) : Option String := (chars? t).map String.ofList

end PyText

theorem chars_eq {t : PyText} {cs : List Char} : t.chars? = some cs ↔ t = cs.map .char := by
  induction t generalizing cs with
  | nil => cases cs <;> simp [PyText.chars?]
  | cons p t ih =>
    cases p with
    | half i => cases cs <;> simp [PyText.chars?]
    | char c =>
      rw [PyText.chars?, Option.map_eq_some_iff]
      constructor
      · rintro ⟨ds, hds, rfl⟩
        rw [ih.mp hds, List.map_cons]
      · intro h
        cases cs with
        | nil => cases h
        | cons d cs =>
          obtain ⟨hc, ht⟩ := List.cons.inj h
          exact ⟨cs, ih.mpr ht, by rw [CodePoint.char.inj hc]⟩

theorem string_eq {t : PyText} {s : String} : t.string? = some s ↔ t = .of s := by
  rw [PyText.string?, Option.map_eq_some_iff]
  constructor
  · rintro ⟨cs, hcs, rfl⟩
    rw [chars_eq.mp hcs, PyText.of, String.toList_ofList]
  · rintro rfl
    exact ⟨s.toList, chars_eq.mpr rfl, String.ofList_toList⟩

@[simp] theorem string_of (s : String) : (PyText.of s).string? = some s := string_eq.mpr rfl

theorem of_inj {s t : String} : PyText.of s = PyText.of t ↔ s = t := by
  rw [← string_eq, string_of, Option.some.injEq]

/-- A text that UTF-8 cannot hold. -/
structure LoneText where
  text : PyText
  lone : text.string? = none
  deriving DecidableEq

end Provenex
