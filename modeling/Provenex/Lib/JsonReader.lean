import Provenex.Lib.Json

/-! A writer of JSON in ASCII, with white space between the tokens, and a reader.
What the one writes the other reads back. A surrogate that stands alone is not
a character here, and is not read. -/

namespace Json

/-! ## Characters -/

/-- `\uXXXX` -/
def unit (n : ℕ) : List Char :=
  ['\\', 'u', hexDigit (n / 4096), hexDigit (n / 256 % 16), hexDigit (n / 16 % 16), hexDigit (n % 16)]

/-- One character inside quotes. What lies outside the first plane is a pair of surrogates. -/
def asciiEscape (c : Char) : List Char :=
  if c = '"' then ['\\', '"']
  else if c = '\\' then ['\\', '\\']
  else if c = '\n' then ['\\', 'n']
  else if c = '\r' then ['\\', 'r']
  else if c = '\t' then ['\\', 't']
  else if c = '\x08' then ['\\', 'b']
  else if c = '\x0c' then ['\\', 'f']
  else if 32 ≤ c.toNat ∧ c.toNat < 127 then [c]
  else if c.toNat < 65536 then unit c.toNat
  else unit (55296 + (c.toNat - 65536) / 1024) ++ unit (56320 + (c.toNat - 65536) % 1024)

/-- The value of a hexadecimal digit of either case. -/
def hexValue (c : Char) : Option ℕ :=
  if 48 ≤ c.toNat ∧ c.toNat ≤ 57 then some (c.toNat - 48)
  else if 97 ≤ c.toNat ∧ c.toNat ≤ 102 then some (c.toNat - 87)
  else if 65 ≤ c.toNat ∧ c.toNat ≤ 70 then some (c.toNat - 55)
  else none

def readUnit : List Char → Option (ℕ × List Char)
  | a :: b :: c :: d :: r => do
    let a ← hexValue a
    let b ← hexValue b
    let c ← hexValue c
    let d ← hexValue d
    some (4096 * a + 256 * b + 16 * c + d, r)
  | _ => none

/-- What stands after a backslash, other than `u`. -/
def simpleEscape (c : Char) : Option Char :=
  if c = '"' ∨ c = '\\' ∨ c = '/' then some c
  else if c = 'n' then some '\n'
  else if c = 'r' then some '\r'
  else if c = 't' then some '\t'
  else if c = 'b' then some '\x08'
  else if c = 'f' then some '\x0c'
  else none

def readEscape : List Char → Option (Char × List Char)
  | 'u' :: r => do
    let (u, r) ← readUnit r
    if 55296 ≤ u ∧ u < 56320 then
      match r with
      | '\\' :: 'u' :: r => do
        let (v, r) ← readUnit r
        if 56320 ≤ v ∧ v < 57344 then
          some (Char.ofNat (65536 + (u - 55296) * 1024 + (v - 56320)), r)
        else none
      | _ => none
    else if 56320 ≤ u ∧ u < 57344 then none
    else some (Char.ofNat u, r)
  | c :: r => (simpleEscape c).map fun c => (c, r)
  | [] => none

/-- One character of a string. -/
def readChar : List Char → Option (Char × List Char)
  | [] => none
  | c :: r => if c = '\\' then readEscape r else if c.toNat < 32 then none else some (c, r)

theorem hexValue_hexDigit : ∀ n < 16, hexValue (hexDigit n) = some n := by decide

theorem readUnit_unit {n : ℕ} (h : n < 65536) (r : List Char) :
    readUnit ((unit n).drop 2 ++ r) = some (n, r) := by
  have h1 := hexValue_hexDigit (n / 4096) (by omega)
  have h2 := hexValue_hexDigit (n / 256 % 16) (by omega)
  have h3 := hexValue_hexDigit (n / 16 % 16) (by omega)
  have h4 := hexValue_hexDigit (n % 16) (by omega)
  have hn : 4096 * (n / 4096) + 256 * (n / 256 % 16) + 16 * (n / 16 % 16) + n % 16 = n := by omega
  simp [unit, readUnit, h1, h2, h3, h4, hn]

theorem readEscape_unit {n : ℕ} (h : n < 65536) (hs : ¬ (55296 ≤ n ∧ n < 57344)) (r : List Char) :
    readEscape ((unit n).tail ++ r) = some (Char.ofNat n, r) := by
  have hread := readUnit_unit h r
  simp only [unit, List.drop_succ_cons, List.drop_zero, List.cons_append, List.nil_append] at hread
  simp only [unit, List.tail_cons, List.cons_append, List.nil_append, readEscape, hread,
    Option.bind_eq_bind, Option.bind_some]
  rw [if_neg (by omega), if_neg (by omega)]

/-- A pair of surrogates is one character. -/
theorem readEscape_pair {m n : ℕ} (hm : m < 1024) (hn : n < 1024) (r : List Char) :
    readEscape ((unit (55296 + m)).tail ++ (unit (56320 + n) ++ r)) =
      some (Char.ofNat (65536 + m * 1024 + n), r) := by
  have hlow := readUnit_unit (n := 56320 + n) (by omega) r
  have hhigh := readUnit_unit (n := 55296 + m) (by omega) (unit (56320 + n) ++ r)
  simp only [unit, List.drop_succ_cons, List.drop_zero, List.cons_append, List.nil_append]
    at hlow hhigh
  simp only [unit, List.tail_cons, List.cons_append, List.nil_append, readEscape, hhigh, hlow,
    Option.bind_eq_bind, Option.bind_some]
  rw [if_pos (by omega), if_pos (by omega), Nat.add_sub_cancel_left, Nat.add_sub_cancel_left]

theorem readChar_asciiEscape (c : Char) (r : List Char) :
    readChar (asciiEscape c ++ r) = some (c, r) := by
  have hunit (n : ℕ) (r : List Char) : readChar (unit n ++ r) = readEscape ((unit n).tail ++ r) := by
    simp [unit, readChar]
  unfold asciiEscape
  split_ifs with h1 h2 h3 h4 h5 h6 h7 h8 h9
  · subst h1; rfl
  · subst h2; rfl
  · subst h3; rfl
  · subst h4; rfl
  · subst h5; rfl
  · subst h6; rfl
  · subst h7; rfl
  · rw [List.singleton_append, readChar, if_neg h2, if_neg (by omega)]
  · have hvalid := c.valid
    rw [hunit, readEscape_unit h9, Char.ofNat_toNat]
    rcases hvalid with hv | ⟨hv, -⟩
    · have : c.toNat < 55296 := hv
      omega
    · have : 57343 < c.toNat := hv
      omega
  · have hmax : c.toNat < 1114112 := by
      rcases c.valid with hv | ⟨-, hv⟩
      · exact hv.trans (by norm_num)
      · exact hv
    rw [List.append_assoc, hunit, readEscape_pair (by omega) (Nat.mod_lt _ (by norm_num))]
    have hsum : 65536 + (c.toNat - 65536) / 1024 * 1024 + (c.toNat - 65536) % 1024 = c.toNat := by
      omega
    rw [hsum, Char.ofNat_toNat]

/-! ## Strings -/

def asciiTail : List Char → List Char
  | [] => ['"']
  | c :: cs => asciiEscape c ++ asciiTail cs

def asciiQuote (s : List Char) : List Char := '"' :: asciiTail s

/-- The characters up to the closing quote. -/
def readString : ℕ → List Char → Option (List Char × List Char)
  | 0, _ => none
  | n + 1, cs =>
    if cs.head? = some '"' then some ([], cs.tail)
    else do
      let (c, r) ← readChar cs
      let (s, r) ← readString n r
      some (c :: s, r)

theorem asciiEscape_head (c : Char) : ∃ d r, asciiEscape c = d :: r ∧ d ≠ '"' := by
  unfold asciiEscape
  split_ifs with h1 h2 h3 h4 h5 h6 h7 h8 h9
  all_goals first
    | exact ⟨_, _, rfl, by decide⟩
    | exact ⟨_, _, rfl, h1⟩

theorem length_asciiTail (s : List Char) : s.length < (asciiTail s).length := by
  induction s with
  | nil => simp [asciiTail]
  | cons c s ih =>
    obtain ⟨d, r, hd, -⟩ := asciiEscape_head c
    rw [asciiTail, hd, List.length_cons, List.length_append, List.length_cons]
    omega

theorem readString_asciiTail {n : ℕ} {s : List Char} (hn : s.length < n) (r : List Char) :
    readString n (asciiTail s ++ r) = some (s, r) := by
  induction s generalizing n with
  | nil =>
    obtain ⟨n, rfl⟩ := Nat.exists_eq_succ_of_ne_zero (by omega : n ≠ 0)
    rfl
  | cons c s ih =>
    obtain ⟨n, rfl⟩ := Nat.exists_eq_succ_of_ne_zero (by omega : n ≠ 0)
    obtain ⟨d, t, hd, hne⟩ := asciiEscape_head c
    have hhead : (asciiEscape c ++ (asciiTail s ++ r)).head? ≠ some '"' := by
      rw [hd]
      simpa using hne
    rw [asciiTail, List.append_assoc, readString, if_neg hhead, readChar_asciiEscape]
    simp only [Option.bind_eq_bind, Option.bind_some]
    rw [ih (by simpa using hn)]
    rfl

/-! ## White space and tokens -/

def isSpace (c : Char) : Bool := c = ' ' ∨ c = '\t' ∨ c = '\n' ∨ c = '\r'

def skip (cs : List Char) : List Char := cs.dropWhile isSpace

/-- The characters that a bare token may hold. -/
def inToken (c : Char) : Bool := IsBare c ∧ ! isSpace c

def readToken (cs : List Char) : Option (Json × List Char) :=
  if cs.takeWhile inToken = [] then none
  else some (bare (cs.takeWhile inToken), cs.dropWhile inToken)

/-- What is written between tokens: after an opening bracket and before the closing one, and
after a comma. -/
structure Layout where
  edge : ℕ → List Char
  comma : ℕ → List Char
  edge_blank : ∀ n, ∀ c ∈ edge n, isSpace c = true
  comma_blank : ∀ n, ∀ c ∈ comma n, isSpace c = true

theorem skip_blank {ws : List Char} (h : ∀ c ∈ ws, isSpace c = true) (r : List Char) :
    skip (ws ++ r) = skip r := List.dropWhile_append_of_pos h

theorem skip_cons {c : Char} (h : isSpace c = false) (r : List Char) : skip (c :: r) = c :: r :=
  List.dropWhile_cons_of_neg (by simp [h])

/-- What follows a token does not belong to it. -/
def Stops : List Char → Prop
  | [] => True
  | c :: _ => inToken c = false

theorem Stops.blank {ws : List Char} (h : ∀ c ∈ ws, isSpace c = true) {r : List Char}
    (hr : Stops r) : Stops (ws ++ r) := by
  cases ws with
  | nil => exact hr
  | cons c ws => simp [Stops, inToken, h c List.mem_cons_self]

theorem readToken_stops {t r : List Char} (hne : t ≠ []) (ht : ∀ c ∈ t, inToken c = true)
    (hr : Stops r) : readToken (t ++ r) = some (bare t, r) := by
  have htake : (t ++ r).takeWhile inToken = t := by
    rw [List.takeWhile_append_of_pos ht]
    cases r with
    | nil => simp
    | cons c r => rw [List.takeWhile_cons_of_neg (by simpa [Stops] using hr), List.append_nil]
  have hdrop : (t ++ r).dropWhile inToken = r := by
    rw [List.dropWhile_append_of_pos ht]
    cases r with
    | nil => rfl
    | cons c r => rw [List.dropWhile_cons_of_neg (by simpa [Stops] using hr)]
  rw [readToken, htake, hdrop, if_neg hne]

/-! ## Trees -/

section

variable (l : Layout)

mutual

def write (level : ℕ) : Json → List Char
  | bare t => t
  | str s => asciiQuote s
  | arr [] => ['[', ']']
  | arr (x :: xs) => '[' :: (l.edge (level + 1) ++ (write (level + 1) x ++ writeItems level xs))
  | obj [] => ['{', '}']
  | obj ((k, x) :: kvs) => '{' :: (l.edge (level + 1) ++
      (asciiQuote k ++ ':' :: ' ' :: (write (level + 1) x ++ writeEntries level kvs)))

def writeItems (level : ℕ) : List Json → List Char
  | [] => l.edge level ++ [']']
  | x :: xs => ',' :: (l.comma (level + 1) ++ (write (level + 1) x ++ writeItems level xs))

def writeEntries (level : ℕ) : List (List Char × Json) → List Char
  | [] => l.edge level ++ ['}']
  | (k, x) :: kvs => ',' :: (l.comma (level + 1) ++
      (asciiQuote k ++ ':' :: ' ' :: (write (level + 1) x ++ writeEntries level kvs)))

end

end

mutual

def readValue : ℕ → List Char → Option (Json × List Char)
  | 0, _ => none
  | n + 1, cs =>
    match cs with
    | '"' :: r => (readString n r).map fun p => (str p.1, p.2)
    | '[' :: r =>
      match skip r with
      | ']' :: r => some (arr [], r)
      | r => (readItems n r).map fun p => (arr p.1, p.2)
    | '{' :: r =>
      match skip r with
      | '}' :: r => some (obj [], r)
      | r => (readEntries n r).map fun p => (obj p.1, p.2)
    | cs => readToken cs

/-- The items of an array, from the first of them on. -/
def readItems : ℕ → List Char → Option (List Json × List Char)
  | 0, _ => none
  | n + 1, cs => do
    let (x, r) ← readValue n cs
    match skip r with
    | ']' :: r => some ([x], r)
    | ',' :: r => (readItems n (skip r)).map fun p => (x :: p.1, p.2)
    | _ => none

/-- The entries of an object, from the first of them on. -/
def readEntries : ℕ → List Char → Option (List (List Char × Json) × List Char)
  | 0, _ => none
  | n + 1, cs =>
    match cs with
    | '"' :: r => do
      let (k, r) ← readString n r
      match skip r with
      | ':' :: r => do
        let (x, r) ← readValue n (skip r)
        match skip r with
        | '}' :: r => some ([(k, x)], r)
        | ',' :: r => (readEntries n (skip r)).map fun p => ((k, x) :: p.1, p.2)
        | _ => none
      | _ => none
    | _ => none

end

/-- A text that holds one value, and white space around it. -/
def read (cs : List Char) : Option Json := do
  let (x, r) ← readValue (cs.length + 1) (skip cs)
  if skip r = [] then some x else none

/-! ## The round trip -/

/-- All bare parts are tokens, without white space. -/
inductive Readable : Json → Prop
  | bare {t : List Char} (ne : t ≠ []) (chars : ∀ c ∈ t, inToken c = true) : Readable (.bare t)
  | str (s : List Char) : Readable (.str s)
  | arr {xs : List Json} (items : ∀ x ∈ xs, Readable x) : Readable (.arr xs)
  | obj {kvs : List (List Char × Json)} (values : ∀ e ∈ kvs, Readable e.2) : Readable (.obj kvs)

section

variable {l : Layout} {level n : ℕ} {r : List Char}

/-- What is written starts neither with white space nor with a closing bracket. -/
theorem write_head {j : Json} (h : Readable j) (level : ℕ) :
    ∃ c cs, write l level j = c :: cs ∧ isSpace c = false ∧ c ≠ ']' ∧ c ≠ '}' := by
  cases h with
  | @bare t ne chars =>
    obtain ⟨c, t, rfl⟩ := List.exists_cons_of_ne_nil ne
    have hc : inToken c = true := chars c List.mem_cons_self
    simp only [inToken, IsBare, List.mem_cons, decide_eq_true_eq, Bool.not_eq_true'] at hc
    exact ⟨c, t, rfl, hc.2, fun h => hc.1 (by simp [h]), fun h => hc.1 (by simp [h])⟩
  | str s => exact ⟨'"', _, rfl, by decide, by decide, by decide⟩
  | @arr xs items => cases xs <;> exact ⟨'[', _, rfl, by decide, by decide, by decide⟩
  | @obj kvs values => cases kvs <;> exact ⟨'{', _, rfl, by decide, by decide, by decide⟩

theorem skip_write {j : Json} (h : Readable j) : skip (write l level j ++ r) = write l level j ++ r := by
  obtain ⟨c, cs, hcs, hc, -⟩ := write_head (l := l) h level
  rw [hcs, List.cons_append, skip_cons hc]

theorem stops_writeItems (xs : List Json) : Stops (writeItems l level xs ++ r) := by
  cases xs with
  | nil =>
    rw [writeItems, List.append_assoc]
    exact Stops.blank (l.edge_blank level) (show inToken ']' = false by decide)
  | cons x xs => exact (by decide : inToken ',' = false)

theorem stops_writeEntries (kvs : List (List Char × Json)) :
    Stops (writeEntries l level kvs ++ r) := by
  cases kvs with
  | nil =>
    rw [writeEntries, List.append_assoc]
    exact Stops.blank (l.edge_blank level) (show inToken '}' = false by decide)
  | cons e kvs => exact (by decide : inToken ',' = false)

theorem readValue_token {t : List Char} (hne : t ≠ []) (ht : ∀ c ∈ t, inToken c = true)
    (hr : Stops r) : readValue (n + 1) (t ++ r) = some (bare t, r) := by
  rw [← readToken_stops hne ht hr]
  obtain ⟨c, t, rfl⟩ := List.exists_cons_of_ne_nil hne
  have hc : inToken c = true := ht c List.mem_cons_self
  rw [readValue]
  all_goals
    intro r' heq
    obtain ⟨rfl, -⟩ := List.cons.inj heq
    exact absurd hc (by decide)

theorem readValue_arr {c : Char} {cs : List Char} (h : skip r = c :: cs) (hc : c ≠ ']') :
    readValue (n + 1) ('[' :: r) = (readItems n (c :: cs)).map fun p => (arr p.1, p.2) := by
  rw [readValue]
  simp only [h]
  split
  · next heq => exact absurd (List.cons.inj heq).1 hc
  · rfl

theorem readValue_obj {c : Char} {cs : List Char} (h : skip r = c :: cs) (hc : c ≠ '}') :
    readValue (n + 1) ('{' :: r) = (readEntries n (c :: cs)).map fun p => (obj p.1, p.2) := by
  rw [readValue]
  simp only [h]
  split
  · next heq => exact absurd (List.cons.inj heq).1 hc
  · rfl

/-- The tree is read back from its text, with fuel for its length. -/
def ReadsBack (l : Layout) (j : Json) : Prop :=
  ∀ level n r, Stops r → (write l level j).length ≤ n →
    readValue n (write l level j ++ r) = some (j, r)

theorem readItems_write {x : Json} {xs : List Json} (hread : ∀ y ∈ x :: xs, Readable y)
    (hback : ∀ y ∈ x :: xs, ReadsBack l y)
    (hn : (write l (level + 1) x ++ writeItems l level xs).length ≤ n) :
    readItems n (write l (level + 1) x ++ (writeItems l level xs ++ r)) = some (x :: xs, r) := by
  induction xs generalizing x n with
  | nil =>
    rw [List.length_append, writeItems, List.length_append, List.length_singleton] at hn
    obtain ⟨n, rfl⟩ := Nat.exists_eq_succ_of_ne_zero (by omega : n ≠ 0)
    have hx := hback x List.mem_cons_self (level + 1) n (writeItems l level [] ++ r)
      (stops_writeItems []) (by omega)
    have hskip : skip (writeItems l level [] ++ r) = ']' :: r := by
      rw [writeItems, List.append_assoc, skip_blank (l.edge_blank level)]
      rfl
    rw [readItems, hx]
    simp only [Option.bind_eq_bind, Option.bind_some, hskip]
  | cons y xs ih =>
    rw [writeItems, List.length_append, List.length_cons, List.length_append] at hn
    obtain ⟨n, rfl⟩ := Nat.exists_eq_succ_of_ne_zero (by omega : n ≠ 0)
    have hx := hback x List.mem_cons_self (level + 1) n (writeItems l level (y :: xs) ++ r)
      (stops_writeItems _) (by omega)
    have hys := ih (x := y) (n := n) (fun z hz => hread z (List.mem_cons_of_mem _ hz))
      (fun z hz => hback z (List.mem_cons_of_mem _ hz)) (by omega)
    have hskip : skip (l.comma (level + 1) ++ (write l (level + 1) y ++
        (writeItems l level xs ++ r))) =
        write l (level + 1) y ++ (writeItems l level xs ++ r) := by
      rw [skip_blank (l.comma_blank _), skip_write (hread y (by simp))]
    rw [readItems, hx]
    simp only [Option.bind_eq_bind, Option.bind_some, writeItems, List.cons_append,
      List.append_assoc, skip_cons (show isSpace ',' = false by decide), hskip, hys, Option.map_some]

/-- One entry, and what comes after it. -/
theorem readEntries_entry {k : List Char} {x : Json} (hread : Readable x) (hback : ReadsBack l x)
    (hk : k.length < n) (hx : (write l (level + 1) x).length ≤ n) (hr : Stops r) :
    readEntries (n + 1) (asciiQuote k ++ ':' :: ' ' :: (write l (level + 1) x ++ r)) =
      match skip r with
      | '}' :: r => some ([(k, x)], r)
      | ',' :: r => (readEntries n (skip r)).map fun p => ((k, x) :: p.1, p.2)
      | _ => none := by
  have hcolon (r : List Char) : skip (':' :: r) = ':' :: r := skip_cons (by decide) r
  have hspace : skip (' ' :: (write l (level + 1) x ++ r)) = write l (level + 1) x ++ r :=
    skip_write hread
  rw [asciiQuote, List.cons_append, readEntries]
  simp only [readString_asciiTail hk, Option.bind_eq_bind, Option.bind_some, hcolon, hspace,
    hback (level + 1) n r hr hx]

theorem readEntries_write {k : List Char} {x : Json} {kvs : List (List Char × Json)}
    (hread : ∀ e ∈ (k, x) :: kvs, Readable e.2) (hback : ∀ e ∈ (k, x) :: kvs, ReadsBack l e.2)
    (hn : (asciiQuote k ++ ':' :: ' ' :: (write l (level + 1) x ++ writeEntries l level kvs)).length
      ≤ n) :
    readEntries n (asciiQuote k ++ ':' :: ' ' :: (write l (level + 1) x ++
      (writeEntries l level kvs ++ r))) = some ((k, x) :: kvs, r) := by
  have hk := length_asciiTail k
  have hread' : Readable x := hread (k, x) List.mem_cons_self
  have hback' : ReadsBack l x := hback (k, x) List.mem_cons_self
  induction kvs generalizing k x n with
  | nil =>
    simp only [asciiQuote, List.length_append, List.length_cons] at hn
    obtain ⟨n, rfl⟩ := Nat.exists_eq_succ_of_ne_zero (by omega : n ≠ 0)
    have hskip : skip (writeEntries l level [] ++ r) = '}' :: r := by
      rw [writeEntries, List.append_assoc, skip_blank (l.edge_blank level)]
      rfl
    rw [readEntries_entry hread' hback' (by omega) (by omega) (stops_writeEntries []), hskip]
    rfl
  | cons e kvs ih =>
    obtain ⟨k', y⟩ := e
    simp only [asciiQuote, writeEntries, List.length_append, List.length_cons] at hn
    obtain ⟨n, rfl⟩ := Nat.exists_eq_succ_of_ne_zero (by omega : n ≠ 0)
    have hrest := ih (k := k') (x := y) (n := n) (fun e he => hread e (List.mem_cons_of_mem _ he))
      (fun e he => hback e (List.mem_cons_of_mem _ he))
      (by simp only [asciiQuote, List.length_append, List.length_cons]; omega) (length_asciiTail k')
      (hread (k', y) (by simp)) (hback (k', y) (by simp))
    have hskip : skip (l.comma (level + 1) ++ (asciiQuote k' ++ ':' :: ' ' ::
        (write l (level + 1) y ++ (writeEntries l level kvs ++ r)))) =
        asciiQuote k' ++ ':' :: ' ' :: (write l (level + 1) y ++
          (writeEntries l level kvs ++ r)) := by
      rw [skip_blank (l.comma_blank _), asciiQuote, List.cons_append]
      exact skip_cons (by decide) _
    rw [readEntries_entry hread' hback' (by omega) (by omega) (stops_writeEntries _)]
    simp only [writeEntries, List.cons_append, List.append_assoc,
      skip_cons (show isSpace ',' = false by decide), hskip, hrest, Option.map_some]

/-- Properties of trees by induction on the tree. -/
@[elab_as_elim]
theorem induction {P : Json → Prop} (bare : ∀ t, P (.bare t)) (str : ∀ s, P (.str s))
    (arr : ∀ xs, (∀ x ∈ xs, P x) → P (.arr xs))
    (obj : ∀ kvs : List (List Char × Json), (∀ e ∈ kvs, P e.2) → P (.obj kvs)) (j : Json) : P j :=
  @Json.rec P (fun xs => ∀ x ∈ xs, P x) (fun kvs => ∀ e ∈ kvs, P e.2) (fun e => P e.2) bare str arr
    obj (by simp) (fun _ _ hx hxs => List.forall_mem_cons.mpr ⟨hx, hxs⟩) (by simp)
    (fun _ _ he hd => List.forall_mem_cons.mpr ⟨he, hd⟩) (fun _ _ h => h) j

theorem readsBack {j : Json} (h : Readable j) : ReadsBack l j := by
  induction j using induction with
  | bare t =>
    cases h with
    | bare ne chars =>
      intro level n r hr hn
      have hpos := List.length_pos_iff.mpr ne
      rw [write] at hn ⊢
      obtain ⟨n, rfl⟩ := Nat.exists_eq_succ_of_ne_zero (by omega : n ≠ 0)
      exact readValue_token ne chars hr
  | str s =>
    intro level n r hr hn
    have hs := length_asciiTail s
    rw [write, asciiQuote, List.length_cons] at hn
    obtain ⟨n, rfl⟩ := Nat.exists_eq_succ_of_ne_zero (by omega : n ≠ 0)
    rw [write, asciiQuote, List.cons_append, readValue, readString_asciiTail (by omega)]
    rfl
  | arr xs ih =>
    cases h with
    | arr items =>
      intro level n r hr hn
      cases xs with
      | nil =>
        obtain ⟨n, rfl⟩ := Nat.exists_eq_succ_of_ne_zero (by simp [write] at hn; omega : n ≠ 0)
        rfl
      | cons x xs =>
        rw [write, List.length_cons, List.length_append] at hn
        obtain ⟨n, rfl⟩ := Nat.exists_eq_succ_of_ne_zero (by omega : n ≠ 0)
        obtain ⟨c, cs, hcs, hc, hne, -⟩ := write_head (l := l) (items x List.mem_cons_self)
          (level + 1)
        have hitems : readItems n (write l (level + 1) x ++ (writeItems l level xs ++ r)) =
            some (x :: xs, r) :=
          readItems_write items (fun y hy => ih y hy (items y hy)) (by omega)
        have hskip : skip (l.edge (level + 1) ++ (write l (level + 1) x ++
            (writeItems l level xs ++ r))) = c :: (cs ++ (writeItems l level xs ++ r)) := by
          rw [skip_blank (l.edge_blank _), skip_write (items x List.mem_cons_self), hcs,
            List.cons_append]
        rw [write, List.cons_append, List.append_assoc, List.append_assoc,
          readValue_arr hskip hne, ← List.cons_append, ← hcs, hitems]
        rfl
  | obj kvs ih =>
    cases h with
    | obj values =>
      intro level n r hr hn
      cases kvs with
      | nil =>
        obtain ⟨n, rfl⟩ := Nat.exists_eq_succ_of_ne_zero (by simp [write] at hn; omega : n ≠ 0)
        rfl
      | cons e kvs =>
        obtain ⟨k, x⟩ := e
        rw [write, List.length_cons, List.length_append] at hn
        obtain ⟨n, rfl⟩ := Nat.exists_eq_succ_of_ne_zero (by omega : n ≠ 0)
        have hentries : readEntries n (asciiQuote k ++ ':' :: ' ' :: (write l (level + 1) x ++
            (writeEntries l level kvs ++ r))) = some ((k, x) :: kvs, r) :=
          readEntries_write values (fun e he => ih e he (values e he)) (by omega)
        have hskip : skip (l.edge (level + 1) ++ (asciiQuote k ++ ':' :: ' ' ::
            (write l (level + 1) x ++ (writeEntries l level kvs ++ r)))) =
            '"' :: (asciiTail k ++ ':' :: ' ' :: (write l (level + 1) x ++
              (writeEntries l level kvs ++ r))) := by
          rw [skip_blank (l.edge_blank _), asciiQuote, List.cons_append]
          exact skip_cons (by decide) _
        rw [write]
        simp only [List.cons_append, List.append_assoc]
        rw [readValue_obj hskip (by decide), ← List.cons_append]
        exact congrArg (Option.map _) hentries

/-- What is written is read back. -/
theorem read_write {j : Json} (h : Readable j) : read (write l 0 j) = some j := by
  have hback := readsBack (l := l) h 0 ((write l 0 j).length + 1) [] trivial (Nat.le_succ _)
  rw [List.append_nil] at hback
  have hskip : skip (write l 0 j ++ []) = write l 0 j ++ [] := skip_write h
  rw [List.append_nil] at hskip
  rw [read, hskip, hback]
  rfl

end

end Json
