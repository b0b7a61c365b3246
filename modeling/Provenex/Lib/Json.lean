import Mathlib.Tactic

/-! The compact text of a JSON tree, and why no two trees share one. Numbers
and the three words are bare tokens, so nothing is said here of how a number
is written; an object is the list of its entries, in the order they are written. -/

/-- A JSON tree as it is about to be written. -/
inductive Json
  | bare (tok : List Char)
  | str (s : List Char)
  | arr (xs : List Json)
  | obj (kvs : List (List Char × Json))

namespace Json

/-! ## Strings -/

def hexDigit (n : ℕ) : Char := if n < 10 then Char.ofNat (48 + n) else Char.ofNat (87 + n)

/-- One character inside quotes; what lies outside ASCII is left as it is. -/
def escape (c : Char) : List Char :=
  if c = '"' then ['\\', '"']
  else if c = '\\' then ['\\', '\\']
  else if c = '\n' then ['\\', 'n']
  else if c = '\r' then ['\\', 'r']
  else if c = '\t' then ['\\', 't']
  else if c = '\x08' then ['\\', 'b']
  else if c = '\x0c' then ['\\', 'f']
  else if c.toNat < 32 then ['\\', 'u', '0', '0', hexDigit (c.toNat / 16), hexDigit (c.toNat % 16)]
  else [c]

def quoteTail : List Char → List Char
  | [] => ['"']
  | c :: cs => escape c ++ quoteTail cs

def quote (s : List Char) : List Char := '"' :: quoteTail s

def hexVal (c : Char) : ℕ := if c.toNat < 58 then c.toNat - 48 else c.toNat - 87

/-- Read one character back; the closing quote is none. -/
def unescape : List Char → Option (Char × List Char)
  | '\\' :: 'u' :: _ :: _ :: a :: b :: r => some (Char.ofNat (16 * hexVal a + hexVal b), r)
  | '\\' :: 'n' :: r => some ('\n', r)
  | '\\' :: 'r' :: r => some ('\r', r)
  | '\\' :: 't' :: r => some ('\t', r)
  | '\\' :: 'b' :: r => some ('\x08', r)
  | '\\' :: 'f' :: r => some ('\x0c', r)
  | '\\' :: c :: r => some (c, r)
  | '"' :: _ => none
  | c :: r => some (c, r)
  | [] => none

private theorem hex_round_trip : ∀ n : Fin 32,
    Char.ofNat (16 * hexVal (hexDigit (n.val / 16)) + hexVal (hexDigit (n.val % 16))) =
      Char.ofNat n.val := by
  decide

theorem unescape_escape (c : Char) (r : List Char) :
    unescape (escape c ++ r) = some (c, r) := by
  unfold escape
  split_ifs with h1 h2 h3 h4 h5 h6 h7 h8
  · subst h1; rfl
  · subst h2; rfl
  · subst h3; rfl
  · subst h4; rfl
  · subst h5; rfl
  · subst h6; rfl
  · subst h7; rfl
  · have := hex_round_trip ⟨c.toNat, h8⟩
    simp only [List.cons_append, List.nil_append, unescape]
    rw [this, Char.ofNat_toNat]
  · simp only [List.cons_append, List.nil_append]
    unfold unescape
    split <;> simp_all

theorem quoteTail_inj : ∀ (s t r u : List Char),
    quoteTail s ++ r = quoteTail t ++ u → s = t ∧ r = u
  | [], [], r, u, h => ⟨rfl, by simpa [quoteTail] using h⟩
  | [], c :: cs, r, u, h => by
    have := congrArg unescape h
    simp only [quoteTail, List.append_assoc, unescape_escape] at this
    exact absurd this (by simp [unescape])
  | c :: cs, [], r, u, h => by
    have := congrArg unescape h
    simp only [quoteTail, List.append_assoc, unescape_escape] at this
    exact absurd this (by simp [unescape])
  | c :: cs, d :: ds, r, u, h => by
    have := congrArg unescape h
    simp only [quoteTail, List.append_assoc, unescape_escape, Option.some.injEq,
      Prod.mk.injEq] at this
    obtain ⟨rfl, hrest⟩ := this
    obtain ⟨rfl, hr⟩ := quoteTail_inj cs ds r u hrest
    exact ⟨rfl, hr⟩

/-- The closing quote ends a string: what follows it cannot be taken for a part of it. -/
theorem quote_inj {s t r u : List Char} (h : quote s ++ r = quote t ++ u) : s = t ∧ r = u :=
  quoteTail_inj s t r u (by simpa [quote] using h)

/-! ## Trees -/

mutual

def text : Json → List Char
  | bare t => t
  | str s => quote s
  | arr [] => ['[', ']']
  | arr (x :: xs) => '[' :: (text x ++ textTail xs)
  | obj [] => ['{', '}']
  | obj ((k, x) :: kvs) => '{' :: (quote k ++ ':' :: (text x ++ textEntries kvs))

def textTail : List Json → List Char
  | [] => [']']
  | x :: xs => ',' :: (text x ++ textTail xs)

def textEntries : List (List Char × Json) → List Char
  | [] => ['}']
  | (k, x) :: kvs => ',' :: (quote k ++ ':' :: (text x ++ textEntries kvs))

end

/-- A character that may stand in a bare token. -/
def IsBare (c : Char) : Prop := c ∉ [',', ':', '[', ']', '{', '}', '"']

instance : DecidablePred IsBare := fun c =>
  inferInstanceAs (Decidable (c ∉ [',', ':', '[', ']', '{', '}', '"']))

def IsToken (t : List Char) : Prop := t ≠ [] ∧ ∀ c ∈ t, IsBare c

mutual

/-- All bare parts are tokens. -/
def Ok : Json → Prop
  | bare t => IsToken t
  | str _ => True
  | arr xs => OkItems xs
  | obj kvs => OkEntries kvs

def OkItems : List Json → Prop
  | [] => True
  | x :: xs => Ok x ∧ OkItems xs

def OkEntries : List (List Char × Json) → Prop
  | [] => True
  | (_, x) :: kvs => Ok x ∧ OkEntries kvs

end

theorem okItems_iff {xs : List Json} : OkItems xs ↔ ∀ x ∈ xs, Ok x := by
  induction xs with
  | nil => simp [OkItems]
  | cons x xs ih => rw [OkItems, ih, List.forall_mem_cons]

theorem okEntries_iff {kvs : List (List Char × Json)} : OkEntries kvs ↔ ∀ e ∈ kvs, Ok e.2 := by
  induction kvs with
  | nil => simp [OkEntries]
  | cons e kvs ih => rw [OkEntries, ih, List.forall_mem_cons]

/-- What may follow a complete value: nothing, or a character no token holds. -/
def Ends : List Char → Prop
  | [] => True
  | c :: _ => ¬ IsBare c

theorem ends_textTail (xs : List Json) (r : List Char) : Ends (textTail xs ++ r) := by
  cases xs <;> simp [textTail, Ends, IsBare]

theorem ends_textEntries (kvs : List (List Char × Json)) (r : List Char) :
    Ends (textEntries kvs ++ r) := by
  rcases kvs with _ | ⟨⟨k, x⟩, kvs⟩ <;> simp [textEntries, Ends, IsBare]

private theorem token_inj : ∀ (t u r s : List Char), (∀ c ∈ t, IsBare c) → (∀ c ∈ u, IsBare c) →
    Ends r → Ends s → t ++ r = u ++ s → t = u ∧ r = s
  | [], [], _, _, _, _, _, _, h => ⟨rfl, h⟩
  | [], c :: u, r, s, _, hu, hr, _, h => by
    subst h
    exact absurd (hu c List.mem_cons_self) hr
  | c :: t, [], r, s, ht, _, _, hs, h => by
    subst h
    exact absurd (ht c List.mem_cons_self) hs
  | c :: t, d :: u, r, s, ht, hu, hr, hs, h => by
    obtain ⟨rfl, htail⟩ := List.cons.inj h
    obtain ⟨rfl, hrs⟩ := token_inj t u r s (fun c hc => ht c (List.mem_cons_of_mem _ hc))
      (fun c hc => hu c (List.mem_cons_of_mem _ hc)) hr hs htail
    exact ⟨rfl, hrs⟩

/-- The first character of a text tells the four kinds of value apart. -/
private theorem token_head {t r : List Char} (ht : IsToken t) :
    ∃ c cs, t ++ r = c :: cs ∧ IsBare c := by
  obtain ⟨hne, hb⟩ := ht
  cases t with
  | nil => exact absurd rfl hne
  | cons c cs => exact ⟨c, cs ++ r, rfl, hb c List.mem_cons_self⟩

private theorem token_ne {t r s : List Char} {c : Char} (ht : IsToken t) (hc : ¬ IsBare c) :
    t ++ r ≠ c :: s := by
  intro h
  obtain ⟨d, ds, hd, hb⟩ := token_head (r := r) ht
  rw [hd] at h
  exact hc ((List.cons.inj h).1 ▸ hb)

private theorem text_arr_head (xs : List Json) (r : List Char) :
    ∃ s, text (arr xs) ++ r = '[' :: s := by
  cases xs <;> simp [text]

private theorem text_obj_head (kvs : List (List Char × Json)) (r : List Char) :
    ∃ s, text (obj kvs) ++ r = '{' :: s := by
  rcases kvs with _ | ⟨⟨k, x⟩, kvs⟩ <;> simp [text]

mutual

theorem text_append_inj : ∀ (a b : Json) (r s : List Char), Ok a → Ok b → Ends r → Ends s →
    text a ++ r = text b ++ s → a = b ∧ r = s
  | bare t, bare u, r, s, ha, hb, hr, hs, h => by
    obtain ⟨rfl, hrs⟩ := token_inj t u r s ha.2 hb.2 hr hs h
    exact ⟨rfl, hrs⟩
  | bare t, str u, r, s, ha, _, _, _, h => absurd h (token_ne ha (by simp [IsBare]))
  | bare t, arr ys, r, s, ha, _, _, _, h => by
    obtain ⟨s', hs'⟩ := text_arr_head ys s
    exact absurd (h.trans hs') (token_ne ha (by simp [IsBare]))
  | bare t, obj ys, r, s, ha, _, _, _, h => by
    obtain ⟨s', hs'⟩ := text_obj_head ys s
    exact absurd (h.trans hs') (token_ne ha (by simp [IsBare]))
  | str t, bare u, r, s, _, hb, _, _, h => absurd h.symm (token_ne hb (by simp [IsBare]))
  | str t, str u, r, s, _, _, _, _, h => by
    obtain ⟨rfl, hrs⟩ := quote_inj h
    exact ⟨rfl, hrs⟩
  | str t, arr ys, r, s, _, _, _, _, h => by
    obtain ⟨s', hs'⟩ := text_arr_head ys s
    rw [hs'] at h
    exact absurd (List.cons.inj h).1 (by decide)
  | str t, obj ys, r, s, _, _, _, _, h => by
    obtain ⟨s', hs'⟩ := text_obj_head ys s
    rw [hs'] at h
    exact absurd (List.cons.inj h).1 (by decide)
  | arr xs, bare u, r, s, _, hb, _, _, h => by
    obtain ⟨s', hs'⟩ := text_arr_head xs r
    exact absurd (h.symm.trans hs') (token_ne hb (by simp [IsBare]))
  | arr xs, str u, r, s, _, _, _, _, h => by
    obtain ⟨s', hs'⟩ := text_arr_head xs r
    rw [hs'] at h
    exact absurd (List.cons.inj h).1 (by decide)
  | arr xs, obj ys, r, s, _, _, _, _, h => by
    obtain ⟨r', hr'⟩ := text_arr_head xs r
    obtain ⟨s', hs'⟩ := text_obj_head ys s
    rw [hr', hs'] at h
    exact absurd (List.cons.inj h).1 (by decide)
  | arr [], arr [], r, s, _, _, _, _, h => ⟨rfl, by simpa [text] using h⟩
  | arr [], arr (y :: ys), r, s, _, hb, _, _, h => by
    exact absurd h.symm (arr_cons_ne y ys s r hb.1)
  | arr (x :: xs), arr [], r, s, ha, _, _, _, h => by
    exact absurd h (arr_cons_ne x xs r s ha.1)
  | arr (x :: xs), arr (y :: ys), r, s, ha, hb, hr, hs, h => by
    simp only [text, List.cons_append, List.cons.injEq, true_and, List.append_assoc] at h
    obtain ⟨rfl, htail⟩ := text_append_inj x y _ _ ha.1 hb.1 (ends_textTail xs r)
      (ends_textTail ys s) h
    obtain ⟨rfl, hrs⟩ := textTail_inj xs ys r s ha.2 hb.2 hr hs htail
    exact ⟨rfl, hrs⟩
  | obj kvs, bare u, r, s, _, hb, _, _, h => by
    obtain ⟨s', hs'⟩ := text_obj_head kvs r
    exact absurd (h.symm.trans hs') (token_ne hb (by simp [IsBare]))
  | obj kvs, str u, r, s, _, _, _, _, h => by
    obtain ⟨s', hs'⟩ := text_obj_head kvs r
    rw [hs'] at h
    exact absurd (List.cons.inj h).1 (by decide)
  | obj kvs, arr ys, r, s, _, _, _, _, h => by
    obtain ⟨r', hr'⟩ := text_obj_head kvs r
    obtain ⟨s', hs'⟩ := text_arr_head ys s
    rw [hr', hs'] at h
    exact absurd (List.cons.inj h).1 (by decide)
  | obj [], obj [], r, s, _, _, _, _, h => ⟨rfl, by simpa [text] using h⟩
  | obj [], obj ((k, y) :: ys), r, s, _, _, _, _, h => by simp [text, quote] at h
  | obj ((k, x) :: xs), obj [], r, s, _, _, _, _, h => by simp [text, quote] at h
  | obj ((k, x) :: xs), obj ((l, y) :: ys), r, s, ha, hb, hr, hs, h => by
    simp only [text, List.cons_append, List.cons.injEq, true_and, List.append_assoc] at h
    obtain ⟨rfl, hval⟩ := quote_inj h
    obtain ⟨rfl, htail⟩ := text_append_inj x y _ _ ha.1 hb.1 (ends_textEntries xs r)
      (ends_textEntries ys s) (List.cons.inj hval).2
    obtain ⟨rfl, hrs⟩ := textEntries_inj xs ys r s ha.2 hb.2 hr hs htail
    exact ⟨rfl, hrs⟩

/-- A nonempty array does not start like the empty one. -/
theorem arr_cons_ne : ∀ (x : Json) (xs : List Json) (r s : List Char), Ok x →
    text (arr (x :: xs)) ++ r ≠ text (arr []) ++ s
  | bare t, xs, r, s, ha, h => by
    simp only [text, List.cons_append, List.cons.injEq, true_and, List.append_assoc] at h
    exact token_ne ha (by simp [IsBare]) h
  | str t, xs, r, s, _, h => by simp [text, quote] at h
  | arr [], xs, r, s, _, h => by simp [text] at h
  | arr (y :: ys), xs, r, s, _, h => by simp [text] at h
  | obj [], xs, r, s, _, h => by simp [text] at h
  | obj ((k, y) :: ys), xs, r, s, _, h => by simp [text] at h

theorem textTail_inj : ∀ (xs ys : List Json) (r s : List Char), OkItems xs → OkItems ys →
    Ends r → Ends s → textTail xs ++ r = textTail ys ++ s → xs = ys ∧ r = s
  | [], [], r, s, _, _, _, _, h => ⟨rfl, by simpa [textTail] using h⟩
  | [], y :: ys, r, s, _, _, _, _, h => by simp [textTail] at h
  | x :: xs, [], r, s, _, _, _, _, h => by simp [textTail] at h
  | x :: xs, y :: ys, r, s, ha, hb, hr, hs, h => by
    simp only [textTail, List.cons_append, List.cons.injEq, true_and, List.append_assoc] at h
    obtain ⟨rfl, htail⟩ := text_append_inj x y _ _ ha.1 hb.1 (ends_textTail xs r)
      (ends_textTail ys s) h
    obtain ⟨rfl, hrs⟩ := textTail_inj xs ys r s ha.2 hb.2 hr hs htail
    exact ⟨rfl, hrs⟩

theorem textEntries_inj : ∀ (xs ys : List (List Char × Json)) (r s : List Char), OkEntries xs →
    OkEntries ys → Ends r → Ends s → textEntries xs ++ r = textEntries ys ++ s → xs = ys ∧ r = s
  | [], [], r, s, _, _, _, _, h => ⟨rfl, by simpa [textEntries] using h⟩
  | [], (l, y) :: ys, r, s, _, _, _, _, h => by simp [textEntries] at h
  | (k, x) :: xs, [], r, s, _, _, _, _, h => by simp [textEntries] at h
  | (k, x) :: xs, (l, y) :: ys, r, s, ha, hb, hr, hs, h => by
    simp only [textEntries, List.cons_append, List.cons.injEq, true_and, List.append_assoc] at h
    obtain ⟨rfl, hval⟩ := quote_inj h
    obtain ⟨rfl, htail⟩ := text_append_inj x y _ _ ha.1 hb.1 (ends_textEntries xs r)
      (ends_textEntries ys s) (List.cons.inj hval).2
    obtain ⟨rfl, hrs⟩ := textEntries_inj xs ys r s ha.2 hb.2 hr hs htail
    exact ⟨rfl, hrs⟩

end

/-- Trees with one text are one tree. -/
theorem text_inj {a b : Json} (ha : Ok a) (hb : Ok b) (h : text a = text b) : a = b :=
  (text_append_inj a b [] [] ha hb trivial trivial (by rw [h])).1

end Json
