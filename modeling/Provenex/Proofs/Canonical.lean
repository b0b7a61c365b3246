import Provenex.Policy.Evaluator

/-! What the canonical bytes of a JSON-shaped value determine: the value, up
to the order of keys. -/

namespace Provenex

/-! ## Values without an order of keys -/

mutual

/-- The value with the entries of every mapping sorted. -/
def norm : PyVal → PyVal
  | .atom a => .atom a
  | .list xs => .list (normList xs)
  | .dict d => .dict (sortEntries (normEntries d))

def normList : List PyVal → List PyVal
  | [] => []
  | x :: xs => norm x :: normList xs

def normEntries : PyDict → PyDict
  | [] => []
  | (k, x) :: d => (k, norm x) :: normEntries d

end

/-- String keys, all different, and no floats or dates. -/
inductive JsonShaped : PyVal → Prop
  | none : JsonShaped .none
  | bool (b : Bool) : JsonShaped (.bool b)
  | int (i : ℤ) : JsonShaped (.int i)
  | str (s : String) : JsonShaped (.str s)
  | list {xs : List PyVal} (items : ∀ x ∈ xs, JsonShaped x) : JsonShaped (.list xs)
  | dict {d : PyDict} (strings : ∀ e ∈ d, ∃ s, e.1 = .str s) (nodup : (keysOf d).Nodup)
      (values : ∀ e ∈ d, JsonShaped e.2) : JsonShaped (.dict d)

@[simp] theorem jsonShaped_list {xs : List PyVal} :
    JsonShaped (.list xs) ↔ ∀ x ∈ xs, JsonShaped x := by
  constructor
  · rintro ⟨h⟩
    assumption
  · exact .list

@[simp] theorem jsonShaped_dict {d : PyDict} : JsonShaped (.dict d) ↔
    (∀ e ∈ d, ∃ s, e.1 = .str s) ∧ (keysOf d).Nodup ∧ ∀ e ∈ d, JsonShaped e.2 := by
  constructor
  · rintro ⟨h⟩
    exact ⟨by assumption, by assumption, by assumption⟩
  · exact fun ⟨hs, hn, hv⟩ => .dict hs hn hv

attribute [simp] JsonShaped.none JsonShaped.bool JsonShaped.int JsonShaped.str

theorem normList_eq (xs : List PyVal) : normList xs = xs.map norm := by
  induction xs with
  | nil => rfl
  | cons x xs ih => rw [normList, ih, List.map_cons]

theorem normEntries_eq (d : PyDict) : normEntries d = d.map fun e => (e.1, norm e.2) := by
  induction d with
  | nil => rfl
  | cons e d ih => rw [normEntries, ih, List.map_cons]

theorem toJsonList_eq (py : Stdlib) (xs : List PyVal) : toJsonList py xs = xs.map (toJson py) := by
  induction xs with
  | nil => rfl
  | cons x xs ih => rw [toJsonList, ih, List.map_cons]

theorem toJsonEntries_eq (py : Stdlib) (d : PyDict) :
    toJsonEntries py d = d.map fun e => (e.1, toJson py e.2) := by
  induction d with
  | nil => rfl
  | cons e d ih => rw [toJsonEntries, ih, List.map_cons]

/-- Sorting looks at keys only. -/
theorem sortEntries_mapEntries {V W : Type} (f : PyAtom × V → W) (d : List (PyAtom × V)) :
    sortEntries (d.map fun e => (e.1, f e)) = (sortEntries d).map fun e => (e.1, f e) :=
  (List.map_insertionSort leKey leKey (fun e => (e.1, f e)) d fun _ _ _ _ => Iff.rfl).symm

theorem sortEntries_map {V W : Type} (f : V → W) (d : List (PyAtom × V)) :
    sortEntries (d.map fun e => (e.1, f e.2)) = (sortEntries d).map fun e => (e.1, f e.2) :=
  sortEntries_mapEntries (fun e => f e.2) d

theorem sortEntries_perm {V : Type} (d : List (PyAtom × V)) : (sortEntries d).Perm d :=
  List.perm_insertionSort _ d

theorem norm_dict (d : PyDict) :
    norm (.dict d) = .dict ((sortEntries d).map fun e => (e.1, norm e.2)) := by
  rw [norm, normEntries_eq, sortEntries_map]

theorem norm_list (xs : List PyVal) : norm (.list xs) = .list (xs.map norm) := by
  rw [norm, normList_eq]

/-! ## Tokens -/

theorem intToken_chars {i : ℤ} {c : Char} (h : c ∈ (toString i).toList) :
    c = '-' ∨ c.isDigit = true := by
  cases i with
  | ofNat n =>
    change c ∈ (Nat.repr n).toList at h
    rw [Nat.toList_repr] at h
    exact .inr (Nat.isDigit_of_mem_toDigits (by decide) (by decide) h)
  | negSucc n =>
    change c ∈ ("-" ++ Nat.repr (n + 1)).toList at h
    rw [String.toList_append, List.mem_append, Nat.toList_repr] at h
    rcases h with h | h
    · exact .inl (List.mem_singleton.mp h)
    · exact .inr (Nat.isDigit_of_mem_toDigits (by decide) (by decide) h)

theorem intToken_ne {i : ℤ} {w : String}
    (h : (w.toList.any fun c => c != '-' && ! c.isDigit) = true) : (toString i).toList ≠ w.toList := by
  intro heq
  obtain ⟨c, hc, hchar⟩ := List.any_eq_true.mp h
  rcases intToken_chars (heq ▸ hc) with rfl | hd
  · exact absurd hchar (by decide)
  · simp [hd] at hchar

theorem isToken_word {w : String}
    (h : (! w.toList.isEmpty && w.toList.all fun c => decide (Json.IsBare c)) = true) :
    Json.IsToken w.toList := by
  rw [Bool.and_eq_true, List.all_eq_true] at h
  refine ⟨?_, fun c hc => of_decide_eq_true (h.2 c hc)⟩
  rintro heq
  simp [heq] at h

theorem isToken_int (i : ℤ) : Json.IsToken (toString i).toList := by
  constructor
  · cases i with
    | ofNat n =>
      change (Nat.repr n).toList ≠ []
      rw [Nat.toList_repr]
      exact Nat.toDigits_ne_nil
    | negSucc n =>
      change ("-" ++ Nat.repr (n + 1)).toList ≠ []
      simp
  · intro c hc
    rcases intToken_chars hc with rfl | hd
    · decide
    · intro hmem
      revert hd
      fin_cases hmem <;> decide

theorem toDigits_inj {m n : ℕ} (h : Nat.toDigits 10 m = Nat.toDigits 10 n) : m = n := by
  have := congrArg (fun ds => Nat.ofDigitChars 10 ds 0) h
  simpa only [Nat.ofDigitChars_ten_toDigits] using this

theorem minus_not_digit (n : ℕ) : '-' ∉ Nat.toDigits 10 n := fun h =>
  absurd (Nat.isDigit_of_mem_toDigits (by decide) (by decide) h) (by decide)

theorem intToken_inj {i j : ℤ} (h : (toString i).toList = (toString j).toList) : i = j := by
  cases i with
  | ofNat m =>
    cases j with
    | ofNat n =>
      change (Nat.repr m).toList = (Nat.repr n).toList at h
      rw [Nat.toList_repr, Nat.toList_repr] at h
      rw [toDigits_inj h]
    | negSucc n =>
      change (Nat.repr m).toList = ("-" ++ Nat.repr (n + 1)).toList at h
      rw [Nat.toList_repr, String.toList_append] at h
      exact absurd (h ▸ List.mem_append_left _ List.mem_cons_self) (minus_not_digit m)
  | negSucc m =>
    cases j with
    | ofNat n =>
      change ("-" ++ Nat.repr (m + 1)).toList = (Nat.repr n).toList at h
      rw [Nat.toList_repr, String.toList_append] at h
      exact absurd (h ▸ List.mem_append_left _ List.mem_cons_self) (minus_not_digit n)
    | negSucc n =>
      change ("-" ++ Nat.repr (m + 1)).toList = ("-" ++ Nat.repr (n + 1)).toList at h
      rw [String.toList_append, String.toList_append, List.append_cancel_left_eq,
        Nat.toList_repr, Nat.toList_repr] at h
      rw [Nat.succ.inj (toDigits_inj h)]

/-! ## Trees -/

section

variable {py : Stdlib}

theorem toJson_dict (d : PyDict) : toJson py (.dict d) =
    .obj ((sortEntries d).map fun e => ((token py e.1).toList, toJson py e.2)) := by
  rw [toJson, toJsonEntries_eq, sortEntries_map, List.map_map]
  rfl

theorem toJson_list (xs : List PyVal) : toJson py (.list xs) = .arr (xs.map (toJson py)) := by
  rw [toJson, toJsonList_eq]

theorem toJson_ok {v : PyVal} (h : JsonShaped v) : (toJson py v).Ok := by
  induction h with
  | none =>
    change Json.IsToken "null".toList
    exact isToken_word (by decide)
  | bool b =>
    cases b with
    | false =>
      change Json.IsToken "false".toList
      exact isToken_word (by decide)
    | true =>
      change Json.IsToken "true".toList
      exact isToken_word (by decide)
  | int i => exact isToken_int i
  | str s => trivial
  | list _ ih =>
    rw [toJson_list]
    refine Json.okItems_iff.mpr fun x hx => ?_
    obtain ⟨y, hy, rfl⟩ := List.mem_map.mp hx
    exact ih y hy
  | dict _ _ _ ih =>
    rw [toJson_dict]
    refine Json.okEntries_iff.mpr fun x hx => ?_
    obtain ⟨e, he, rfl⟩ := List.mem_map.mp hx
    exact ih e ((sortEntries_perm _).mem_iff.mp he)

theorem map_eq_map_of {α β γ : Type} {f : α → β} {g : α → γ} {xs ys : List α}
    (h : ∀ x ∈ xs, ∀ y ∈ ys, f x = f y → g x = g y) (heq : xs.map f = ys.map f) :
    xs.map g = ys.map g := by
  induction xs generalizing ys with
  | nil =>
    obtain rfl := List.map_eq_nil_iff.mp heq.symm
    rfl
  | cons x xs ih =>
    cases ys with
    | nil => cases heq
    | cons y ys =>
      obtain ⟨hhead, htail⟩ := List.cons.inj heq
      rw [List.map_cons, List.map_cons, h x List.mem_cons_self y List.mem_cons_self hhead,
        ih (fun a ha b hb => h a (List.mem_cons_of_mem _ ha) b (List.mem_cons_of_mem _ hb)) htail]

/-- The order of keys does not show in the text. -/
theorem toJson_of_norm (v : PyVal) : ∀ w, norm v = norm w → toJson py v = toJson py w := by
  induction v using PyVal.induction with
  | atom a =>
    intro w h
    cases w with
    | atom b => rw [show a = b from PyVal.atom.inj h]
    | list ys => rw [norm_list] at h; cases h
    | dict e => rw [norm_dict] at h; cases h
  | list xs ih =>
    intro w h
    cases w with
    | atom b => rw [norm_list] at h; cases h
    | list ys =>
      rw [norm_list, norm_list] at h
      rw [toJson_list, toJson_list, map_eq_map_of (fun x hx y _ => ih x hx y) (PyVal.list.inj h)]
    | dict e => rw [norm_list, norm_dict] at h; cases h
  | dict d ih =>
    intro w h
    cases w with
    | atom b => rw [norm_dict] at h; cases h
    | list ys => rw [norm_dict, norm_list] at h; cases h
    | dict e =>
      rw [norm_dict, norm_dict] at h
      rw [toJson_dict, toJson_dict, map_eq_map_of (fun x hx y _ hxy => ?_) (PyVal.dict.inj h)]
      obtain ⟨hk, hv⟩ := Prod.mk.inj hxy
      rw [hk, ih x ((sortEntries_perm d).mem_iff.mp hx) y.2 hv]

/-- A word is no number, and no other word. -/
theorem atom_inj {a b : PyAtom} (ha : JsonShaped (.atom a)) (hb : JsonShaped (.atom b))
    (h : toJson py (.atom a) = toJson py (.atom b)) : a = b := by
  have hword {i : ℤ} (w : String) (hw : (w.toList.any fun c => c != '-' && ! c.isDigit) = true) :
      Json.bare (toString i).toList ≠ .bare w.toList := fun h => intToken_ne hw (Json.bare.inj h)
  cases ha with
  | none =>
    cases hb with
    | none => rfl
    | bool c => cases c <;> simp [toJson, token] at h
    | int j => exact absurd h.symm (hword "null" (by decide))
    | str t => cases h
  | bool b =>
    cases hb with
    | none => cases b <;> simp [toJson, token] at h
    | bool c => cases b <;> cases c <;> simp [toJson, token] at h ⊢
    | int j =>
      cases b with
      | false => exact absurd h.symm (hword "false" (by decide))
      | true => exact absurd h.symm (hword "true" (by decide))
    | str t => cases b <;> cases h
  | int i =>
    cases hb with
    | none => exact absurd h (hword "null" (by decide))
    | bool c =>
      cases c with
      | false => exact absurd h (hword "false" (by decide))
      | true => exact absurd h (hword "true" (by decide))
    | int j => rw [intToken_inj (Json.bare.inj h)]
    | str t => cases h
  | str s =>
    cases hb with
    | none => cases h
    | bool c => cases c <;> cases h
    | int j => cases h
    | str t => rw [String.toList_inj.mp (Json.str.inj h)]

theorem atom_toJson (a : PyAtom) (xs : List Json) (kvs : List (List Char × Json)) :
    toJson py (.atom a) ≠ .arr xs ∧ toJson py (.atom a) ≠ .obj kvs := by
  cases a <;> exact ⟨Json.noConfusion, Json.noConfusion⟩

theorem atom_norm_inj {a : PyAtom} {w : PyVal} (ha : JsonShaped (.atom a)) (hw : JsonShaped w)
    (h : toJson py (.atom a) = toJson py w) : norm (.atom a) = norm w := by
  cases w with
  | atom b => rw [atom_inj ha hw h]
  | list ys =>
    rw [toJson_list] at h
    exact absurd h (atom_toJson a _ []).1
  | dict e =>
    rw [toJson_dict] at h
    exact absurd h (atom_toJson a [] _).2

/-- Values written alike are alike up to the order of keys. -/
theorem toJson_inj {v w : PyVal} (hv : JsonShaped v) (hw : JsonShaped w)
    (h : toJson py v = toJson py w) : norm v = norm w := by
  induction hv generalizing w with
  | none => exact atom_norm_inj .none hw h
  | bool b => exact atom_norm_inj (.bool b) hw h
  | int i => exact atom_norm_inj (.int i) hw h
  | str s => exact atom_norm_inj (.str s) hw h
  | @list xs _ ih =>
    rw [toJson_list] at h
    cases w with
    | atom b => exact absurd h.symm (atom_toJson b _ []).1
    | list ys =>
      cases hw with
      | list hys =>
        rw [toJson_list] at h
        rw [norm_list, norm_list, map_eq_map_of (fun x hx y hy => ih x hx (hys y hy)) (Json.arr.inj h)]
    | dict e =>
      rw [toJson_dict] at h
      cases h
  | @dict d hstr _ _ ih =>
    rw [toJson_dict] at h
    cases w with
    | atom b => exact absurd h.symm (atom_toJson b [] _).2
    | list ys =>
      rw [toJson_list] at h
      cases h
    | dict e =>
      cases hw with
      | dict hstr' _ hvals =>
        rw [toJson_dict] at h
        rw [norm_dict, norm_dict, map_eq_map_of (fun x hx y hy hxy => ?_) (Json.obj.inj h)]
        have hx' := (sortEntries_perm d).mem_iff.mp hx
        have hy' := (sortEntries_perm e).mem_iff.mp hy
        obtain ⟨s, hs⟩ := hstr x hx'
        obtain ⟨t, ht⟩ := hstr' y hy'
        obtain ⟨hk, hj⟩ := Prod.mk.inj hxy
        rw [hs, ht] at hk
        obtain rfl : s = t := String.toList_inj.mp hk
        rw [hs, ht, ih x hx' (hvals y hy') hj]

end

/-! ## Bytes -/

theorem hexDigit_inj : ∀ m < 16, ∀ n < 16, Json.hexDigit m = Json.hexDigit n → m = n := by decide

theorem hexdigest_inj {a b : Bytes} (h : hexdigest a = hexdigest b) : a = b := by
  have hl := String.ofList_inj.mp h
  clear h
  induction a generalizing b with
  | nil =>
    cases b with
    | nil => rfl
    | cons y ys => cases hl
  | cons x xs ih =>
    cases b with
    | nil => cases hl
    | cons y ys =>
      simp only [List.flatMap_cons, List.cons_append, List.nil_append, List.cons.injEq] at hl
      obtain ⟨hhi, hlo, hrest⟩ := hl
      have hx := x.toNat_lt
      have hy := y.toNat_lt
      have hhi := hexDigit_inj _ (by omega) _ (by omega) hhi
      have hlo := hexDigit_inj _ (Nat.mod_lt _ (by decide)) _ (Nat.mod_lt _ (by decide)) hlo
      rw [ih hrest, UInt8.toNat_inj.mp (by omega : x.toNat = y.toNat)]

theorem encodeUtf8_inj {s t : String} (h : encodeUtf8 s = encodeUtf8 t) : s = t := by
  have hbytes : s.toList.utf8Encode = t.toList.utf8Encode := congrArg List.toByteArray h
  rwa [String.utf8Encode_toList, String.utf8Encode_toList, String.toByteArray_inj] at hbytes

/-- Canonical bytes determine a JSON-shaped value up to the order of keys. -/
theorem canonicalBytes_of_norm {py : Stdlib} {v w : PyVal} {a b : Bytes} (h : norm v = norm w)
    (hv : canonicalBytes py v = .ok a) (hw : canonicalBytes py w = .ok b) : a = b := by
  unfold canonicalBytes dumps at hv hw
  split_ifs at hv hw
  · rw [toJson_of_norm v w h] at hv
    exact Except.ok.inj (hv.symm.trans hw)
  all_goals simp [Except.map] at hv hw

theorem canonicalBytes_inj {py : Stdlib} {v w : PyVal} {b : Bytes} (hv : JsonShaped v)
    (hw : JsonShaped w) (h : canonicalBytes py v = .ok b) (h' : canonicalBytes py w = .ok b) :
    norm v = norm w := by
  have htext {u : PyVal} (hu : canonicalBytes py u = .ok b) :
      encodeUtf8 (String.ofList (toJson py u).text) = b := by
    unfold canonicalBytes dumps at hu
    split_ifs at hu
    · exact Except.ok.inj hu
    · cases hu
  have htexts := String.ofList_inj.mp (encodeUtf8_inj ((htext h).trans (htext h').symm))
  exact toJson_inj hv hw (Json.text_inj (toJson_ok hv) (toJson_ok hw) htexts)

end Provenex
