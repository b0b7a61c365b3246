import Mathlib.Data.Prod.Lex
import Mathlib.Data.String.Basic
import Provenex.Lib.Sorted
import Provenex.Proofs.Recorded
import Provenex.Py.Loads

/-! What `json.loads` makes of a text of `json.dumps`: the value, with every key
turned into text. Its canonical text is that of the value where the texts of the
keys come in the order of the keys. -/

namespace Provenex

/-! ## Tokens -/

theorem toDigits_head (n : ℕ) :
    (Nat.toDigits 10 n).head? ≠ some '0' ∨ (Nat.toDigits 10 n).length = 1 := by
  induction n using Nat.strongRecOn with
  | ind n ih =>
    by_cases hn : n < 10
    · rw [Nat.toDigits_of_lt_base hn]
      exact .inr rfl
    · rw [Nat.toDigits_of_base_le (by decide) (by omega)]
      left
      have hne : Nat.toDigits 10 (n / 10) ≠ [] := Nat.toDigits_ne_nil
      rw [List.head?_append_of_ne_nil _ hne]
      rcases ih (n / 10) (by omega) with h | h
      · exact h
      · intro h0
        obtain ⟨c, hc⟩ := List.length_eq_one_iff.mp h
        rw [hc] at h0
        obtain rfl : c = '0' := Option.some.inj h0
        have hzero : Nat.toDigits 10 (n / 10) = Nat.toDigits 10 0 := hc.trans (Nat.toDigits_zero 10).symm
        have := toDigits_inj hzero
        omega

theorem isDigits_toDigits (n : ℕ) : isDigits (Nat.toDigits 10 n) = true := by
  rw [isDigits, decide_eq_true_eq]
  refine ⟨List.all_eq_true.mpr fun c hc => ?_, Nat.toDigits_ne_nil, toDigits_head n⟩
  exact Nat.isDigit_of_mem_toDigits (by decide) (by decide) hc

theorem readInt_token (i : ℤ) : readInt (toString i).toList = some i := by
  cases i with
  | ofNat n =>
    have htoken : (toString (Int.ofNat n)).toList = Nat.toDigits 10 n := Nat.toList_repr
    have hminus : (Nat.toDigits 10 n).head? ≠ some '-' := fun h =>
      minus_not_digit n (List.mem_of_mem_head? h)
    rw [htoken, readInt, unsigned, if_neg hminus, if_pos (isDigits_toDigits n)]
    simp only [if_neg hminus, Nat.ofDigitChars_ten_toDigits]
    rfl
  | negSucc n =>
    have htoken : (toString (Int.negSucc n)).toList = '-' :: Nat.toDigits 10 (n + 1) := by
      change ("-" ++ Nat.repr (n + 1)).toList = _
      rw [String.toList_append, Nat.toList_repr]
      rfl
    rw [htoken, readInt, unsigned, List.head?_cons, if_pos rfl, List.tail_cons,
      if_pos (isDigits_toDigits _)]
    simp only [if_true, Nat.ofDigitChars_ten_toDigits]
    rfl

section

variable {py : Stdlib} {parseFloat : String → PyFloat}

theorem readAtom_int {i : ℤ} (hi : writableInt i = true) :
    readAtom parseFloat (toString i).toList = some (.int i) := by
  have hword (w : String) (hw : (w.toList.any fun c => c != '-' && ! c.isDigit) = true)
      (h : String.ofList (toString i).toList = w) : False := by
    rw [String.ofList_toList] at h
    exact intToken_ne hw (congrArg String.toList h)
  unfold readAtom
  split
  · next h => exact (hword _ (by decide) h).elim
  · next h => exact (hword _ (by decide) h).elim
  · next h => exact (hword _ (by decide) h).elim
  · next h => exact (hword _ (by decide) h).elim
  · next h => exact (hword _ (by decide) h).elim
  · next h => exact (hword _ (by decide) h).elim
  · simp only [readInt_token, if_pos hi]

/-! ## Keys -/

/-- A key that `json.dumps` writes without a float. -/
def PlainKey (k : PyAtom) : Prop := (∀ f, k ≠ .float f) ∧ k.jsonable = true

theorem PlainKey.cases {k : PyAtom} (h : PlainKey k) :
    k = .none ∨ (∃ b, k = .bool b) ∨ (∃ i, k = .int i) ∨ ∃ s, k = .str s := by
  cases k with
  | none => exact .inl rfl
  | bool b => exact .inr (.inl ⟨b, rfl⟩)
  | int i => exact .inr (.inr (.inl ⟨i, rfl⟩))
  | float f => exact absurd rfl (h.1 f)
  | str s => exact .inr (.inr (.inr ⟨s, rfl⟩))
  | date d => cases h.2

/-- Keys of one class with one text are equal. -/
theorem token_key {k l : PyAtom} (hk : PlainKey k) (hl : PlainKey l) (hc : k.keyClass = l.keyClass)
    (h : token py k = token py l) : k.eq l = true := by
  have hword {i : ℤ} {w : String} (hw : (w.toList.any fun c => c != '-' && ! c.isDigit) = true) :
      toString i ≠ w := fun h => intToken_ne hw (congrArg String.toList h)
  have hbool {b : Bool} {i : ℤ} : token py (.bool b) ≠ toString i := by
    cases b with
    | false => exact (hword (w := "false") (by decide)).symm
    | true => exact (hword (w := "true") (by decide)).symm
  rcases hk.cases with rfl | ⟨b, rfl⟩ | ⟨i, rfl⟩ | ⟨s, rfl⟩ <;>
    rcases hl.cases with rfl | ⟨c, rfl⟩ | ⟨j, rfl⟩ | ⟨t, rfl⟩ <;> try cases hc
  · rfl
  · cases b <;> cases c <;> first | rfl | exact absurd h (by simp [token])
  · exact absurd h hbool
  · exact absurd h.symm hbool
  · rw [intToken_inj (congrArg String.toList h)]
    simp [PyAtom.eq, PyAtom.num?]
  · obtain rfl : s = t := h
    simp [PyAtom.eq]

theorem readAtom_token {a : PyAtom} (h : PlainKey a) (hs : ∀ s, a ≠ .str s) :
    readAtom parseFloat (token py a).toList = some a := by
  rcases h.cases with rfl | ⟨b, rfl⟩ | ⟨i, rfl⟩ | ⟨s, rfl⟩
  · simp [readAtom, token]
  · cases b <;> simp [readAtom, token]
  · exact readAtom_int h.2
  · exact absurd rfl (hs s)

/-! ## Values -/

/-- No floats, also as keys; the keys of a mapping differ, as those of a dict do. -/
inductive FloatFree : PyVal → Prop
  | atom {a : PyAtom} (h : ∀ f, a ≠ .float f) : FloatFree (.atom a)
  | list {xs : List PyVal} (items : ∀ x ∈ xs, FloatFree x) : FloatFree (.list xs)
  | dict {d : PyDict} (keys : ∀ k ∈ keysOf d, ∀ f, k ≠ .float f)
      (distinct : (keysOf d).Pairwise fun k l => k.eq l = false)
      (values : ∀ e ∈ d, FloatFree e.2) : FloatFree (.dict d)

mutual

/-- The value with every key turned into the text that JSON has for it. -/
def coerce (py : Stdlib) : PyVal → PyVal
  | .atom a => .atom a
  | .list xs => .list (coerceList py xs)
  | .dict d => .dict (coerceEntries py d)

def coerceList (py : Stdlib) : List PyVal → List PyVal
  | [] => []
  | x :: xs => coerce py x :: coerceList py xs

def coerceEntries (py : Stdlib) : PyDict → PyDict
  | [] => []
  | (k, x) :: d => (.str (token py k), coerce py x) :: coerceEntries py d

end

theorem coerceList_eq (xs : List PyVal) : coerceList py xs = xs.map (coerce py) := by
  induction xs with
  | nil => rfl
  | cons x xs ih => rw [coerceList, ih, List.map_cons]

theorem coerceEntries_eq (d : PyDict) :
    coerceEntries py d = d.map fun e => (.str (token py e.1), coerce py e.2) := by
  induction d with
  | nil => rfl
  | cons e d ih => rw [coerceEntries, ih, List.map_cons]

theorem rawJsonList_eq (xs : List PyVal) : rawJsonList py xs = xs.map (rawJson py) := by
  induction xs with
  | nil => rfl
  | cons x xs ih => rw [rawJsonList, ih, List.map_cons]

theorem rawJsonEntries_eq (d : PyDict) :
    rawJsonEntries py d = d.map fun e => ((token py e.1).toList, rawJson py e.2) := by
  induction d with
  | nil => rfl
  | cons e d ih => rw [rawJsonEntries, ih, List.map_cons]

/-- The keys of a mapping that has canonical text. -/
theorem jsonable_keys {d : PyDict} (hf : FloatFree (.dict d)) (hj : jsonable (.dict d) = true) :
    (∀ k ∈ keysOf d, PlainKey k) ∧ ∀ k ∈ keysOf d, ∀ l ∈ keysOf d, k.keyClass = l.keyClass := by
  rw [jsonable, Bool.and_eq_true, jsonableKeys, decide_eq_true_eq] at hj
  obtain ⟨⟨hsort, hdate⟩, -⟩ := hj
  cases hf with
  | dict keys distinct values =>
    exact ⟨fun k hk => ⟨keys k hk, List.all_eq_true.mp hdate _ hk⟩, sortable_iff.mp hsort⟩

/-- Their texts differ. -/
theorem token_nodup {d : PyDict} (hf : FloatFree (.dict d)) (hj : jsonable (.dict d) = true) :
    ((keysOf d).map (token py)).Nodup := by
  obtain ⟨hplain, hclass⟩ := jsonable_keys hf hj
  cases hf with
  | dict keys distinct values =>
    rw [List.Nodup, List.pairwise_map]
    refine distinct.imp_of_mem fun {k l} hk hl hne heq => ?_
    rw [token_key (hplain k hk) (hplain l hl) (hclass k hk l hl) heq] at hne
    cases hne

/-- Induction on a value without floats that has canonical text. -/
@[elab_as_elim] theorem jsonable_induction {P : PyVal → Prop}
    (atom : ∀ a, FloatFree (.atom a) → jsonable (.atom a) = true → P (.atom a))
    (list : ∀ xs, (∀ x ∈ xs, P x) → P (.list xs))
    (dict : ∀ d, FloatFree (.dict d) → jsonable (.dict d) = true → (∀ e ∈ d, P e.2) → P (.dict d))
    {v : PyVal} (hf : FloatFree v) (hj : jsonable v = true) : P v := by
  induction v using PyVal.induction with
  | atom a => exact atom a hf hj
  | list xs ih =>
    rw [jsonable, jsonableList_iff] at hj
    cases hf with
    | list items => exact list xs fun x hx => ih x hx (items x hx) (hj x hx)
  | dict d ih =>
    refine dict d hf hj fun e he => ?_
    rw [jsonable, Bool.and_eq_true, jsonableEntries_iff] at hj
    cases hf with
    | dict keys distinct values => exact ih e he (values e he) (hj.2 e he)

/-! ## Reading back -/

theorem writableList_iff {xs : List PyVal} :
    writableList xs = true ↔ ∀ x ∈ xs, writable x = true := by
  induction xs with
  | nil => simp [writableList]
  | cons x xs ih => rw [writableList, Bool.and_eq_true, ih, List.forall_mem_cons]

theorem writableEntries_iff {d : PyDict} :
    writableEntries d = true ↔ ∀ e ∈ d, e.1.jsonable = true ∧ writable e.2 = true := by
  induction d with
  | nil => simp [writableEntries]
  | cons e d ih => rw [writableEntries, Bool.and_eq_true, Bool.and_eq_true, ih, List.forall_mem_cons]

/-- What has canonical text can be written. -/
theorem writable_of_jsonable {v : PyVal} (hf : FloatFree v) (hj : jsonable v = true) :
    writable v = true := by
  refine jsonable_induction (fun a _ ha => ?_) (fun xs ih => ?_) (fun d hf hj ih => ?_) hf hj
  · cases a <;> first | rfl | exact ha
  · rw [writable, writableList_iff]
    exact ih
  · rw [writable]
    rw [writableEntries_iff]
    exact fun e he => ⟨((jsonable_keys hf hj).1 e.1 (List.mem_map_of_mem he)).2, ih e he⟩

theorem readable_word {w : String} (h : (! w.toList.isEmpty && w.toList.all Json.inToken) = true) :
    (Json.bare w.toList).Readable := by
  rw [Bool.and_eq_true, List.all_eq_true] at h
  refine .bare ?_ h.2
  intro heq
  simp [heq] at h

theorem readable_int (i : ℤ) : (Json.bare (toString i).toList).Readable := by
  obtain ⟨hne, hbare⟩ := isToken_int i
  refine .bare hne fun c hc => ?_
  rw [Json.inToken, decide_eq_true_eq]
  refine ⟨hbare c hc, ?_⟩
  rcases intToken_chars hc with rfl | hd
  · rfl
  · rw [Bool.not_eq_true', ← Bool.not_eq_true, Json.isSpace, decide_eq_true_eq]
    rintro (rfl | rfl | rfl | rfl) <;> cases hd

theorem readable_rawJson {v : PyVal} (hf : FloatFree v) (hj : jsonable v = true) :
    (rawJson py v).Readable := by
  refine jsonable_induction (fun a ha hdate => ?_) (fun xs ih => ?_) (fun d _ _ ih => ?_) hf hj
  · cases a with
    | none => exact readable_word (w := "null") (by decide)
    | bool b =>
      cases b with
      | false => exact readable_word (w := "false") (by decide)
      | true => exact readable_word (w := "true") (by decide)
    | int i => exact readable_int i
    | float f =>
      cases ha with
      | atom h => exact absurd rfl (h f)
    | str s => exact .str s.toList
    | date t => cases hdate
  · rw [rawJson, rawJsonList_eq]
    exact .arr (List.forall_mem_map.mpr ih)
  · rw [rawJson, rawJsonEntries_eq]
    exact .obj (List.forall_mem_map.mpr ih)

theorem ofJsonList_map {xs : List PyVal} {f : PyVal → Json} {g : PyVal → PyVal}
    (h : ∀ x ∈ xs, ofJson parseFloat (f x) = some (g x)) :
    ofJsonList parseFloat (xs.map f) = some (xs.map g) := by
  induction xs with
  | nil => rfl
  | cons x xs ih =>
    rw [List.forall_mem_cons] at h
    rw [List.map_cons, ofJsonList, h.1, ih h.2]
    rfl

theorem ofJsonEntries_map {d : PyDict} {f : PyVal → Json} {g : PyVal → PyVal}
    (h : ∀ e ∈ d, ofJson parseFloat (f e.2) = some (g e.2)) :
    ofJsonEntries parseFloat (d.map fun e => ((token py e.1).toList, f e.2)) =
      some (d.map fun e => (.str (token py e.1), g e.2)) := by
  induction d with
  | nil => rfl
  | cons e d ih =>
    rw [List.forall_mem_cons] at h
    rw [List.map_cons, ofJsonEntries, h.1, ih h.2, String.ofList_toList]
    rfl

theorem ofJson_rawJson {v : PyVal} (hf : FloatFree v) (hj : jsonable v = true) :
    ofJson parseFloat (rawJson py v) = some (coerce py v) := by
  refine jsonable_induction (fun a ha hdate => ?_) (fun xs ih => ?_) (fun d hf hj ih => ?_) hf hj
  · by_cases hs : ∃ s, a = .str s
    · obtain ⟨s, rfl⟩ := hs
      rw [rawJson, ofJson, String.ofList_toList, coerce]
    · have hplain : PlainKey a := by
        cases ha with
        | atom h => exact ⟨h, by rwa [jsonable] at hdate⟩
      have hraw : rawJson py (.atom a) = .bare (token py a).toList := by
        cases a <;> first | rfl | exact absurd ⟨_, rfl⟩ hs
      rw [hraw, ofJson, readAtom_token hplain fun s h => hs ⟨s, h⟩]
      rfl
  · rw [rawJson, rawJsonList_eq, ofJson, coerce, coerceList_eq, ofJsonList_map ih]
    rfl
  · have hnodup : ((coerceEntries py d).map Prod.fst).Nodup := by
      rw [coerceEntries_eq, List.map_map]
      have hstr : Function.Injective PyAtom.str := fun s t h => PyAtom.str.inj h
      have h : (((keysOf d).map (token py)).map PyAtom.str).Nodup := (token_nodup hf hj).map hstr
      rwa [keysOf, List.map_map, List.map_map] at h
    have hentries : ofJsonEntries parseFloat (rawJsonEntries py d) = some (coerceEntries py d) := by
      rw [coerceEntries_eq, rawJsonEntries_eq]
      exact ofJsonEntries_map ih
    have hput : (coerceEntries py d).foldl (Rows.put Prod.fst) [] = coerceEntries py d :=
      Rows.foldl_put_nodup hnodup
    rw [rawJson, ofJson, coerce, hentries, Option.map_some, hput]

/-- `json.loads(json.dumps(v))` -/
theorem loads_dumpsIndent {v : PyVal} (indent : Option ℕ) (hf : FloatFree v)
    (hj : jsonable v = true) : ∃ text, dumpsIndent py indent v = .ok text ∧
      loads parseFloat text = .ok (coerce py v) := by
  refine ⟨_, if_pos (writable_of_jsonable hf hj), ?_⟩
  rw [loads, String.toList_ofList, Json.read_write (readable_rawJson hf hj), Option.bind_some,
    ofJson_rawJson hf hj]

/-! ## The order of keys -/

/-- Where a key stands among the keys of its class. -/
def PyAtom.rank : PyAtom → ℚ ×ₗ String
  | .bool b => toLex (if b then 1 else 0, "")
  | .int i => toLex (i, "")
  | .str s => toLex (0, s)
  | _ => toLex (0, "")

theorem rank_num {p q : ℚ} : toLex (p, "") ≤ toLex (q, "") ↔ p ≤ q := by
  rw [Prod.Lex.toLex_le_toLex]
  simpa using (le_iff_lt_or_eq (a := p)).symm

theorem rank_str {s t : String} : toLex ((0 : ℚ), s) ≤ toLex (0, t) ↔ s ≤ t := by
  rw [Prod.Lex.toLex_le_toLex]
  simp

theorem le_rank {k l : PyAtom} (hk : PlainKey k) (hl : PlainKey l) (hc : k.keyClass = l.keyClass) :
    k.le l = true ↔ k.rank ≤ l.rank := by
  rcases hk.cases with rfl | ⟨b, rfl⟩ | ⟨i, rfl⟩ | ⟨s, rfl⟩ <;>
    rcases hl.cases with rfl | ⟨c, rfl⟩ | ⟨j, rfl⟩ | ⟨t, rfl⟩ <;> try cases hc
  · exact iff_of_true rfl le_rfl
  all_goals simp [PyAtom.le, PyAtom.rank, PyAtom.num?, PyNum.le, rank_num, rank_str]

theorem eq_rank {k l : PyAtom} (hk : PlainKey k) (hl : PlainKey l) (hc : k.keyClass = l.keyClass)
    (h : k.rank = l.rank) : k.eq l = true := by
  rcases hk.cases with rfl | ⟨b, rfl⟩ | ⟨i, rfl⟩ | ⟨s, rfl⟩ <;>
    rcases hl.cases with rfl | ⟨c, rfl⟩ | ⟨j, rfl⟩ | ⟨t, rfl⟩ <;> try cases hc
  · rfl
  all_goals simpa [PyAtom.eq, PyAtom.rank, PyAtom.num?] using h

/-- An entry is told by its key. -/
theorem entry_of_key {d : PyDict} (hd : (keysOf d).Pairwise fun k l => k.eq l = false)
    {e f : PyAtom × PyVal} (he : e ∈ d) (hf : f ∈ d) (h : e.1.eq f.1 = true)
    (h' : f.1.eq e.1 = true) : e = f := by
  rw [keysOf, List.pairwise_map] at hd
  by_contra hne
  let apart : PyAtom × PyVal → PyAtom × PyVal → Prop := fun a b =>
    a.1.eq b.1 = false ∨ b.1.eq a.1 = false
  have : Std.Symm apart := ⟨fun _ _ => Or.symm⟩
  have happart : d.Pairwise apart := hd.imp Or.inl
  rcases happart.forall he hf hne with hef | hfe
  · rw [h] at hef
    cases hef
  · rw [h'] at hfe
    cases hfe

theorem keys_ordered {d : PyDict} (hf : FloatFree (.dict d)) (hj : jsonable (.dict d) = true) :
    Sorted.Ordered (leKey (V := PyVal)) d := by
  obtain ⟨hplain, hclass⟩ := jsonable_keys hf hj
  have hmem {e : PyAtom × PyVal} (he : e ∈ d) : e.1 ∈ keysOf d := List.mem_map_of_mem he
  have hle {e f : PyAtom × PyVal} (he : e ∈ d) (hf : f ∈ d) : leKey e f ↔ e.1.rank ≤ f.1.rank :=
    le_rank (hplain _ (hmem he)) (hplain _ (hmem hf)) (hclass _ (hmem he) _ (hmem hf))
  cases hf with
  | dict keys distinct values =>
    constructor
    · intro e he f hf
      rw [hle he hf, hle hf he]
      exact le_total _ _
    · intro e he f hf g hg
      rw [hle he hf, hle hf hg, hle he hg]
      exact le_trans
    · intro e he f hf hef hfe
      rw [hle he hf] at hef
      rw [hle hf he] at hfe
      have hrank := le_antisymm hef hfe
      exact entry_of_key distinct he hf
        (eq_rank (hplain _ (hmem he)) (hplain _ (hmem hf)) (hclass _ (hmem he) _ (hmem hf)) hrank)
        (eq_rank (hplain _ (hmem hf)) (hplain _ (hmem he)) (hclass _ (hmem hf) _ (hmem he))
          hrank.symm)

/-- The order of the texts of two keys. -/
def leToken (py : Stdlib) (e f : PyAtom × PyVal) : Prop := token py e.1 ≤ token py f.1

instance : DecidableRel (leToken py) := fun e f =>
  inferInstanceAs (Decidable (token py e.1 ≤ token py f.1))

theorem entry_of_token {d : PyDict} (hf : FloatFree (.dict d)) (hj : jsonable (.dict d) = true)
    {e f : PyAtom × PyVal} (he : e ∈ d) (hf' : f ∈ d) (h : token py e.1 = token py f.1) : e = f := by
  have hnodup : ((keysOf d).map (token py)).Nodup := token_nodup hf hj
  rw [keysOf, List.map_map] at hnodup
  exact List.inj_on_of_nodup_map hnodup he hf' h

theorem tokens_ordered {d : PyDict} (hf : FloatFree (.dict d)) (hj : jsonable (.dict d) = true) :
    Sorted.Ordered (leToken py) d where
  total := fun _ _ _ _ => le_total _ _
  trans := fun _ _ _ _ _ _ => le_trans
  antisymm := fun _ he _ hf' hle hge => entry_of_token hf hj he hf' (le_antisymm hle hge)

/-- In every mapping the texts of the keys come in the order of the keys. -/
inductive TextOrdered (py : Stdlib) : PyVal → Prop
  | atom (a : PyAtom) : TextOrdered py (.atom a)
  | list {xs : List PyVal} (items : ∀ x ∈ xs, TextOrdered py x) : TextOrdered py (.list xs)
  | dict {d : PyDict} (keys : ∀ e ∈ d, ∀ f ∈ d, leKey e f → leToken py e f)
      (values : ∀ e ∈ d, TextOrdered py e.2) : TextOrdered py (.dict d)

/-! ## Canonical text -/

theorem sortEntries_coerce (d : PyDict) : sortEntries (coerceEntries py d) =
    (d.insertionSort (leToken py)).map fun e => (.str (token py e.1), coerce py e.2) := by
  have hle : ∀ e ∈ d, ∀ f ∈ d, leToken py e f ↔
      leKey (PyAtom.str (token py e.1), coerce py e.2) (PyAtom.str (token py f.1), coerce py f.2) :=
    fun e _ f _ => decide_eq_true_iff.symm
  rw [coerceEntries_eq]
  exact (List.map_insertionSort (leToken py) leKey _ d hle).symm

theorem toJson_coerce_dict (d : PyDict) : toJson py (coerce py (.dict d)) =
    .obj ((d.insertionSort (leToken py)).map fun e =>
      ((token py e.1).toList, toJson py (coerce py e.2))) := by
  rw [coerce, toJson_dict, sortEntries_coerce, List.map_map]
  rfl

theorem textOrdered_list {xs : List PyVal} :
    TextOrdered py (.list xs) ↔ ∀ x ∈ xs, TextOrdered py x := by
  refine ⟨fun h => ?_, .list⟩
  cases h with
  | list items => exact items

theorem toJson_coerce_iff {v : PyVal} (hf : FloatFree v) (hj : jsonable v = true) :
    toJson py (coerce py v) = toJson py v ↔ TextOrdered py v := by
  refine jsonable_induction (fun a _ _ => ?_) (fun xs ih => ?_) (fun d hf hj ih => ?_) hf hj
  · exact iff_of_true rfl (.atom a)
  · have hitems : (∀ x ∈ xs, toJson py (coerce py x) = toJson py x) ↔ ∀ x ∈ xs, TextOrdered py x :=
      forall₂_congr ih
    rw [coerce, coerceList_eq, toJson_list, toJson_list, List.map_map, Json.arr.injEq,
      List.map_inj_left]
    simp only [Function.comp_apply, hitems]
    exact textOrdered_list.symm
  · have htexts : Sorted.Ordered (leToken py) d := tokens_ordered hf hj
    have hsort := Sorted.insertionSort_eq_iff (keys_ordered hf hj) htexts
    have hvalues : (∀ e ∈ d, toJson py (coerce py e.2) = toJson py e.2) ↔
        ∀ e ∈ d, TextOrdered py e.2 := forall₂_congr ih
    have hmem {e : PyAtom × PyVal} : e ∈ sortEntries d ↔ e ∈ d := (sortEntries_perm d).mem_iff
    have hmem' {e : PyAtom × PyVal} : e ∈ d.insertionSort (leToken py) ↔ e ∈ d :=
      (List.perm_insertionSort _ d).mem_iff
    rw [toJson_coerce_dict, toJson_dict, Json.obj.injEq]
    constructor
    · intro h
      have htokens := congrArg (List.map Prod.fst) h
      rw [List.map_map, List.map_map] at htokens
      have heq : (d.insertionSort (leToken py)).map id = (sortEntries d).map id := by
        refine map_eq_map_of (fun e he f hf' hef => ?_) htokens
        exact entry_of_token hf hj (hmem'.mp he) (hmem.mp hf') (String.toList_inj.mp hef)
      rw [List.map_id, List.map_id] at heq
      rw [heq, List.map_inj_left] at h
      refine .dict (hsort.mp heq.symm) (hvalues.mp fun e he => ?_)
      exact (Prod.mk.inj (h e (hmem.mpr he))).2
    · intro h
      cases h with
      | dict keys values =>
        rw [← hsort.mpr keys]
        refine List.map_congr_left fun e he => ?_
        rw [hvalues.mpr values e (hmem.mp he)]

theorem coerce_jsonable {v : PyVal} (hf : FloatFree v) (hj : jsonable v = true) :
    jsonable (coerce py v) = true := by
  refine jsonable_induction (fun a _ ha => ha) (fun xs ih => ?_) (fun d _ _ ih => ?_) hf hj
  · rw [coerce, coerceList_eq, jsonable, jsonableList_iff]
    exact List.forall_mem_map.mpr ih
  · have hstr : StrKeys (coerceEntries py d) := by
      intro k hk
      rw [coerceEntries_eq, keysOf, List.map_map] at hk
      obtain ⟨e, -, rfl⟩ := List.mem_map.mp hk
      exact ⟨_, rfl⟩
    rw [coerce, jsonable_strKeys hstr, coerceEntries_eq]
    exact List.forall_mem_map.mpr ih

theorem ok_of_readable {j : Json} (h : j.Readable) : j.Ok := by
  induction h with
  | bare ne chars =>
    refine ⟨ne, fun c hc => ?_⟩
    have htoken := chars c hc
    rw [Json.inToken, decide_eq_true_eq] at htoken
    exact htoken.1
  | str s => trivial
  | arr _ ih => exact Json.okItems_iff.mpr ih
  | obj _ ih => exact Json.okEntries_iff.mpr ih

theorem toJson_readable {v : PyVal} (hf : FloatFree v) (hj : jsonable v = true) :
    (toJson py v).Readable := by
  refine jsonable_induction (fun a ha hdate => ?_) (fun xs ih => ?_) (fun d _ _ ih => ?_) hf hj
  · have hraw : toJson py (.atom a) = rawJson py (.atom a) := by cases a <;> rfl
    rw [hraw]
    exact readable_rawJson ha hdate
  · rw [toJson_list]
    exact .arr (List.forall_mem_map.mpr ih)
  · rw [toJson_dict]
    refine .obj (List.forall_mem_map.mpr fun e he => ?_)
    exact ih e ((sortEntries_perm d).mem_iff.mp he)

/-- No floats either, and the keys still differ. -/
theorem coerce_floatFree {v : PyVal} (hf : FloatFree v) (hj : jsonable v = true) :
    FloatFree (coerce py v) := by
  refine jsonable_induction (fun a ha _ => ha) (fun xs ih => ?_) (fun d hf hj ih => ?_) hf hj
  · rw [coerce, coerceList_eq]
    exact .list (List.forall_mem_map.mpr ih)
  · have hnodup : ((keysOf d).map (token py)).Nodup := token_nodup hf hj
    rw [coerce, coerceEntries_eq]
    refine .dict ?_ ?_ (List.forall_mem_map.mpr ih)
    · rw [keysOf, List.map_map]
      rintro k hk f rfl
      obtain ⟨e, -, he⟩ := List.mem_map.mp hk
      cases he
    · rw [keysOf, List.map_map] at hnodup ⊢
      rw [List.Nodup, List.pairwise_map] at hnodup
      rw [List.pairwise_map]
      refine hnodup.imp fun hne => ?_
      simpa [PyAtom.eq] using hne

/-- The text is that of the value where the texts of all keys come in the order of the keys. -/
theorem canonicalBytes_coerce_iff {v : PyVal} (hf : FloatFree v) (hj : jsonable v = true) :
    canonicalBytes py (coerce py v) = canonicalBytes py v ↔ TextOrdered py v := by
  have hbytes {w : PyVal} (hw : jsonable w = true) :
      canonicalBytes py w = .ok (encodeUtf8 (String.ofList (toJson py w).text)) := by
    rw [canonicalBytes, dumps, if_pos hw]
    rfl
  have hj' : jsonable (coerce py v) = true := coerce_jsonable hf hj
  rw [← toJson_coerce_iff hf hj, hbytes hj, hbytes hj']
  constructor
  · intro h
    have htext := String.ofList_inj.mp (encodeUtf8_inj (Except.ok.inj h))
    exact Json.text_inj (ok_of_readable (toJson_readable (coerce_floatFree hf hj) hj'))
      (ok_of_readable (toJson_readable hf hj)) htext
  · intro h
    rw [h]

end

end Provenex
