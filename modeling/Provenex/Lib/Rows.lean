import Mathlib.Tactic

/-! Tables as lists of rows under a primary key, split by the owner that a key
names. A write by key changes the rows of its owner only. -/

namespace Rows

section

variable {α κ : Type} [DecidableEq κ] (key : α → κ)

/-- The row takes the place of the one that has its key, or is new. -/
def put (rows : List α) (row : α) : List α :=
  if rows.any fun r => key r = key row then rows.map fun r => if key r = key row then row else r
  else rows ++ [row]

variable {key} {rows : List α} {row : α}

theorem put_new (h : ∀ r ∈ rows, key r ≠ key row) : put key rows row = rows ++ [row] := by
  rw [put, if_neg]
  simpa using h

theorem put_middle {before after : List α} {r : α} (hr : key r = key row)
    (hb : ∀ x ∈ before, key x ≠ key row) (ha : ∀ x ∈ after, key x ≠ key row) :
    put key (before ++ r :: after) row = before ++ row :: after := by
  have hid (l : List α) (hl : ∀ x ∈ l, key x ≠ key row) :
      l.map (fun x => if key x = key row then row else x) = l :=
    (List.map_congr_left fun x hx => if_neg (hl x hx)).trans (List.map_id' l)
  rw [put, if_pos (by simp [hr]), List.map_append, List.map_cons, hid before hb, hid after ha,
    if_pos hr]

theorem keys_put : (put key rows row).map key =
    if ∃ r ∈ rows, key r = key row then rows.map key else rows.map key ++ [key row] := by
  unfold put
  have hany : (rows.any fun r => key r = key row) = true ↔ ∃ r ∈ rows, key r = key row := by simp
  simp only [hany]
  split_ifs with h
  · rw [List.map_map]
    refine List.map_congr_left fun r _ => ?_
    simp only [Function.comp_apply]
    split_ifs with hr
    · exact hr.symm
    · rfl
  · simp

theorem mem_put {r : α} : r ∈ put key rows row ↔ r = row ∨ r ∈ rows ∧ key r ≠ key row := by
  by_cases h : ∃ r ∈ rows, key r = key row
  · have hput : put key rows row = rows.map fun r => if key r = key row then row else r := by
      rw [put, if_pos (by simpa using h)]
    rw [hput, List.mem_map]
    constructor
    · rintro ⟨x, hx, rfl⟩
      split_ifs with hkey
      · exact .inl rfl
      · exact .inr ⟨hx, hkey⟩
    · rintro (rfl | ⟨hr, hkey⟩)
      · obtain ⟨x, hx, hkey⟩ := h
        exact ⟨x, hx, if_pos hkey⟩
      · exact ⟨r, hr, if_neg hkey⟩
  · have hnew : ∀ r ∈ rows, key r ≠ key row := fun r hr hkey => h ⟨r, hr, hkey⟩
    rw [put_new hnew, List.mem_append, List.mem_singleton, or_comm]
    exact or_congr_right ⟨fun hr => ⟨hr, hnew r hr⟩, And.left⟩

theorem foldl_put_nodup {rows' : List α} (h : ((rows ++ rows').map key).Nodup) :
    rows'.foldl (put key) rows = rows ++ rows' := by
  induction rows' generalizing rows with
  | nil => simp
  | cons r rows' ih =>
    have hnew : ∀ x ∈ rows, key x ≠ key r := by
      rw [List.map_append, List.nodup_append] at h
      intro x hx
      exact h.2.2 _ (List.mem_map_of_mem hx) _ (by simp)
    rw [List.foldl_cons, put_new hnew, ih (by rwa [List.append_assoc])]
    simp

theorem nodup_put (h : (rows.map key).Nodup) : ((put key rows row).map key).Nodup := by
  rw [keys_put]
  split_ifs with hex
  · exact h
  · refine List.nodup_append.mpr ⟨h, List.nodup_singleton _, ?_⟩
    rintro k hk l hl rfl
    obtain ⟨r, hr, rfl⟩ := List.mem_map.mp hk
    exact hex ⟨r, hr, List.mem_singleton.mp hl⟩

variable (key) in
/-- The last row that has its key. -/
def Last (rows : List α) (r : α) : Prop :=
  ∃ before after, rows = before ++ r :: after ∧ ∀ s ∈ after, key s ≠ key r

omit [DecidableEq κ] in
theorem Last.mem {r : α} (h : Last key rows r) : r ∈ rows := by
  obtain ⟨before, after, rfl, -⟩ := h
  simp

omit [DecidableEq κ] in
theorem last_snoc {r : α} :
    Last key (rows ++ [row]) r ↔ r = row ∨ Last key rows r ∧ key r ≠ key row := by
  constructor
  · rintro ⟨before, after, heq, hafter⟩
    obtain rfl | ⟨after, x, rfl⟩ := List.eq_nil_or_concat after
    · exact .inl (List.singleton_inj.mp (List.append_inj' heq rfl).2).symm
    · rw [List.concat_eq_append, ← List.cons_append, ← List.append_assoc] at heq
      obtain ⟨rfl, hx⟩ := List.append_inj' heq rfl
      obtain rfl := List.singleton_inj.mp hx
      exact .inr ⟨⟨before, after, rfl, fun s hs => hafter s (by simp [hs])⟩,
        (hafter row (by simp)).symm⟩
  · rintro (rfl | ⟨⟨before, after, rfl, hafter⟩, hne⟩)
    · exact ⟨rows, [], rfl, by simp⟩
    · refine ⟨before, after ++ [row], by simp, fun s hs => ?_⟩
      obtain hs | hs := List.mem_append.mp hs
      · exact hafter s hs
      · rw [List.mem_singleton.mp hs]
        exact hne.symm

/-- Putting row after row keeps the last of each key. -/
theorem mem_foldl_put {r : α} : r ∈ rows.foldl (put key) [] ↔ Last key rows r := by
  induction rows using List.reverseRecOn with
  | nil => simp [Last]
  | append_singleton rows row ih =>
    rw [List.foldl_append, List.foldl_cons, List.foldl_nil, mem_put, ih, last_snoc]

theorem nodup_foldl_put : ((rows.foldl (put key) []).map key).Nodup := by
  induction rows using List.reverseRecOn with
  | nil => simp
  | append_singleton rows row ih =>
    rw [List.foldl_append]
    exact nodup_put ih

theorem find?_put {k : κ} : (put key rows row).find? (fun r => key r = k) =
    if key row = k then some row else rows.find? fun r => key r = k := by
  have hmap (rows : List α) : (rows.map fun r => if key r = key row then row else r).find?
      (fun r => key r = k) = if key row = k then (if rows.any fun r => key r = key row then some row
        else none) else rows.find? fun r => key r = k := by
    induction rows with
    | nil => simp
    | cons r rows ih =>
      rw [List.map_cons, List.find?_cons, List.find?_cons, List.any_cons, ih]
      by_cases hr : key r = key row
      · by_cases hk : key row = k <;> simp [hr, hk]
      · by_cases hk : key row = k
        · have hne : key r ≠ k := fun h => hr (h.trans hk.symm)
          simp [hk, hne]
        · simp [hr, hk]
  by_cases hany : (rows.any fun r => key r = key row) = true
  · rw [put, if_pos hany, hmap, if_pos hany]
  · rw [put, if_neg hany, List.find?_append]
    split_ifs with hk
    · have hnone : rows.find? (fun r => key r = k) = none := by simpa [hk] using hany
      simp [hnone, hk]
    · simp [hk]

/-- Looked up by its key, such a table finds the last row. -/
theorem find?_foldl_put {k : κ} {r : α} :
    (rows.foldl (put key) []).find? (fun s => key s = k) = some r ↔ Last key rows r ∧ key r = k := by
  induction rows using List.reverseRecOn with
  | nil => simp [Last]
  | append_singleton rows row ih =>
    rw [List.foldl_append, List.foldl_cons, List.foldl_nil, find?_put, last_snoc]
    split_ifs with hk
    · constructor
      · rintro ⟨⟩
        exact ⟨.inl rfl, hk⟩
      · rintro ⟨rfl | ⟨-, hne⟩, hr⟩
        · rfl
        · exact absurd (hr.trans hk.symm) hne
    · rw [ih]
      constructor
      · rintro ⟨hr, rfl⟩
        exact ⟨.inr ⟨hr, Ne.symm hk⟩, rfl⟩
      · rintro ⟨rfl | ⟨hr, -⟩, rfl⟩
        · exact absurd rfl hk
        · exact ⟨hr, rfl⟩

theorem last_unique {r s : α} (hr : Last key rows r) (hs : Last key rows s) (h : key r = key s) :
    r = s :=
  List.inj_on_of_nodup_map nodup_foldl_put (mem_foldl_put.mpr hr) (mem_foldl_put.mpr hs) h

theorem exists_last (key : α → κ) {r : α} (h : r ∈ rows) :
    ∃ s, Last key rows s ∧ key s = key r := by
  induction rows using List.reverseRecOn with
  | nil => cases h
  | append_singleton rows row ih =>
    by_cases hkey : key r = key row
    · exact ⟨row, last_snoc.mpr (.inl rfl), hkey.symm⟩
    · obtain h | h := List.mem_append.mp h
      · obtain ⟨s, hs, hsr⟩ := ih h
        exact ⟨s, last_snoc.mpr (.inr ⟨hs, hsr ▸ hkey⟩), hsr⟩
      · exact absurd (congrArg key (List.mem_singleton.mp h)) hkey

theorem last_of_nodup (h : (rows.map key).Nodup) {r : α} : Last key rows r ↔ r ∈ rows := by
  rw [← mem_foldl_put, foldl_put_nodup (by simpa using h), List.nil_append]

omit [DecidableEq κ] in
theorem last_cons {r : α} : Last key (row :: rows) r ↔
    (r = row ∧ ∀ s ∈ rows, key s ≠ key row) ∨ Last key rows r := by
  constructor
  · rintro ⟨before, after, heq, hafter⟩
    obtain _ | ⟨x, before⟩ := before
    · obtain ⟨rfl, rfl⟩ := List.cons.inj heq
      exact .inl ⟨rfl, hafter⟩
    · obtain ⟨-, rfl⟩ := List.cons.inj heq
      exact .inr ⟨before, after, rfl, hafter⟩
  · rintro (⟨rfl, hafter⟩ | ⟨before, after, rfl, hafter⟩)
    · exact ⟨[], rows, rfl, hafter⟩
    · exact ⟨row :: before, after, rfl, hafter⟩

theorem lookup_cons_if {β : Type} (e : κ × β) (m : List (κ × β)) (x : κ) :
    (e :: m).lookup x = if x = e.1 then some e.2 else m.lookup x := by
  obtain ⟨k, v⟩ := e
  by_cases hx : x = k
  · simp [hx]
  · have hne : (x == k) = false := by simpa using hx
    simp [List.lookup_cons, hx, hne]

/-- Of the pairs with one key, the last is what is looked up from the end. -/
theorem lookup_reverse {β : Type} {rows : List (κ × β)} {k : κ} {v : β} :
    rows.reverse.lookup k = some v ↔ Last Prod.fst rows (k, v) := by
  induction rows using List.reverseRecOn with
  | nil => simp [Last]
  | append_singleton rows row ih =>
    rw [List.reverse_append, List.reverse_singleton, List.singleton_append, lookup_cons_if,
      last_snoc, ← ih]
    split_ifs with h
    · simp [h, Prod.ext_iff, eq_comm]
    · have hne : (k, v) ≠ row := fun heq => h (congrArg Prod.fst heq)
      simp [h, hne]

/-- A table of pairs, as a map. -/
theorem lookup_put {β : Type} (m : List (κ × β)) (k : κ) (v : β) (x : κ) :
    (put Prod.fst m (k, v)).lookup x = if x = k then some v else m.lookup x := by
  have hmap : (m.map fun r => if r.1 = k then (k, v) else r).lookup x =
      if x = k then (if m.any fun r => r.1 = k then some v else none) else m.lookup x := by
    induction m with
    | nil => simp
    | cons e m ih =>
      rw [List.map_cons, lookup_cons_if, lookup_cons_if, ih]
      by_cases hek : e.1 = k
      · by_cases hx : x = k <;> simp [hek, hx]
      · by_cases hx : x = k
        · subst hx
          rw [if_pos rfl, if_neg hek, if_neg (Ne.symm hek), if_pos rfl, List.any_cons]
          simp only [hek, decide_false, Bool.false_or]
        · simp [hek, hx]
  unfold put
  by_cases hany : (m.any fun r => r.1 = k) = true
  · rw [if_pos hany, hmap, if_pos hany]
  · rw [if_neg hany, List.lookup_append, lookup_cons_if]
    by_cases hx : x = k
    · subst hx
      have hnone : m.lookup x = none := by
        rw [List.lookup_eq_none_iff]
        rintro ⟨k, v⟩ he
        have hk : k ≠ x := fun hk => hany (List.any_eq_true.mpr ⟨_, he, by simpa using hk⟩)
        simpa using hk.symm
      simp [hnone]
    · simp [hx]

/-- An update of the rows that satisfy a condition, written row by row. -/
theorem foldl_put_map (p : α → Bool) (set : α → α) (hset : ∀ r, key (set r) = key r)
    (hnd : (rows.map key).Nodup) :
    ((rows.filter p).map set).foldl (put key) rows = rows.map fun r => if p r then set r else r := by
  suffices h : ∀ rest done : List α, (done.map key ++ rest.map key).Nodup →
      ((rest.filter p).map set).foldl (put key) (done ++ rest) =
        done ++ rest.map fun r => if p r then set r else r from h rows [] hnd
  intro rest
  induction rest with
  | nil => exact fun done _ => rfl
  | cons r rest ih =>
    intro done hnd
    have hsnoc (x : α) (hx : key x = key r) : ((done ++ [x]).map key ++ rest.map key).Nodup := by
      simpa [hx] using hnd
    rw [List.map_cons]
    by_cases hp : p r = true
    · have hput : put key (done ++ r :: rest) (set r) = (done ++ [set r]) ++ rest := by
        have hnot := List.nodup_middle.mp hnd
        rw [List.nodup_cons, List.mem_append, not_or] at hnot
        rw [put_middle (hset r).symm]
        · simp
        · rintro x hx heq
          exact hnot.1.1 (List.mem_map.mpr ⟨x, hx, heq.trans (hset r)⟩)
        · rintro x hx heq
          exact hnot.1.2 (List.mem_map.mpr ⟨x, hx, heq.trans (hset r)⟩)
      rw [List.filter_cons_of_pos hp, List.map_cons, List.foldl_cons, hput,
        ih _ (hsnoc _ (hset r)), if_pos hp]
      simp
    · have := ih (done ++ [r]) (hsnoc r rfl)
      rw [List.filter_cons_of_neg hp, if_neg hp]
      simpa using this

end

/-! ## Owners -/

section

variable {α κ ρ : Type} [DecidableEq κ] [DecidableEq ρ] {key : α → κ} {own : α → ρ}
  {rows : List α} {row : α} {d : ρ}

theorem any_key_filter (hown : ∀ a b, key a = key b → own a = own b) (hd : own row = d) :
    ((rows.filter (own · = d)).any fun r => key r = key row) = rows.any fun r => key r = key row := by
  rw [Bool.eq_iff_iff, List.any_eq_true, List.any_eq_true]
  constructor
  · rintro ⟨r, hr, hk⟩
    exact ⟨r, (List.mem_filter.mp hr).1, hk⟩
  · rintro ⟨r, hr, hk⟩
    refine ⟨r, List.mem_filter.mpr ⟨hr, ?_⟩, hk⟩
    simpa using (hown r row (by simpa using hk)).trans hd

theorem filter_put_self (hown : ∀ a b, key a = key b → own a = own b) (hd : own row = d) :
    (put key rows row).filter (own · = d) = put key (rows.filter (own · = d)) row := by
  unfold put
  rw [any_key_filter hown hd]
  split_ifs with h
  · rw [List.filter_map]
    have hcomp : ((fun r => decide (own r = d)) ∘ fun r => if key r = key row then row else r) =
        fun r => decide (own r = d) := by
      funext r
      simp only [Function.comp_apply]
      split_ifs with hr
      · rw [hown r row hr]
      · rfl
    rw [hcomp]
  · simp [List.filter_append, hd]

theorem filter_put_other (hown : ∀ a b, key a = key b → own a = own b) (hd : own row ≠ d) :
    (put key rows row).filter (own · = d) = rows.filter (own · = d) := by
  unfold put
  split_ifs with h
  · clear h
    induction rows with
    | nil => rfl
    | cons r rows ih =>
      rw [List.map_cons]
      by_cases hr : key r = key row
      · rw [if_pos hr, List.filter_cons_of_neg (by simpa using hd),
          List.filter_cons_of_neg (by simpa [hown r row hr] using hd), ih]
      · rw [if_neg hr, List.filter_cons, List.filter_cons, ih]
  · simp [List.filter_append, hd]

/-- Tables that agree owner by owner hold the same rows. -/
theorem perm_of_owners [DecidableEq α] {rows' : List α}
    (h : ∀ d, rows.filter (own · = d) = rows'.filter (own · = d)) : rows.Perm rows' := by
  rw [List.perm_iff_count]
  intro a
  have hcount (l : List α) : l.count a = (l.filter (own · = own a)).count a :=
    (List.count_filter (by simp)).symm
  rw [hcount, hcount rows', h]

end

/-! ## The first row -/

section

variable {α : Type} {r : α → α → Prop} {l : List α} {a x : α}

/-- `a` comes strictly before what stands before it in the list, and not after the rest. -/
def First (r : α → α → Prop) (l : List α) (a : α) : Prop :=
  ∃ before after, l = before ++ a :: after ∧ (∀ b ∈ before, ¬ r b a) ∧ ∀ b ∈ after, r a b

theorem First.mem (h : First r l a) : a ∈ l := by
  obtain ⟨before, after, rfl, -, -⟩ := h
  simp

theorem First.le (htotal : ∀ a b, r a b ∨ r b a) (h : First r l a) : ∀ b ∈ l, r a b := by
  obtain ⟨before, after, rfl, hbefore, hafter⟩ := h
  intro b hb
  rw [List.mem_append, List.mem_cons] at hb
  rcases hb with hb | rfl | hb
  · exact (htotal a b).resolve_right (hbefore b hb)
  · exact (htotal b b).elim id id
  · exact hafter b hb

theorem first_cons : First r (x :: l) a ↔ (x = a ∧ ∀ b ∈ l, r a b) ∨ ¬ r x a ∧ First r l a := by
  constructor
  · rintro ⟨before, after, heq, hbefore, hafter⟩
    cases before with
    | nil =>
      obtain ⟨rfl, rfl⟩ := List.cons.inj heq
      exact .inl ⟨rfl, hafter⟩
    | cons b before =>
      obtain ⟨rfl, rfl⟩ := List.cons.inj heq
      rw [List.forall_mem_cons] at hbefore
      exact .inr ⟨hbefore.1, before, after, rfl, hbefore.2, hafter⟩
  · rintro (⟨rfl, hle⟩ | ⟨hx, before, after, rfl, hbefore, hafter⟩)
    · exact ⟨[], l, rfl, by simp, hle⟩
    · exact ⟨x :: before, after, rfl, List.forall_mem_cons.mpr ⟨hx, hbefore⟩, hafter⟩

/-- A stable sort starts with the first row. -/
theorem head?_insertionSort [DecidableRel r] (htotal : ∀ a b, r a b ∨ r b a)
    (htrans : ∀ a b c, r a b → r b c → r a c) :
    (l.insertionSort r).head? = some a ↔ First r l a := by
  induction l generalizing a with
  | nil => simp [First]
  | cons x l ih =>
    rw [List.insertionSort_cons, first_cons]
    cases hl : l.insertionSort r with
    | nil =>
      obtain rfl : l = [] := by
        rw [← List.length_eq_zero_iff, ← List.length_insertionSort r l, hl, List.length_nil]
      simp [First]
    | cons y ys =>
      have hy : First r l y := ih.mp (congrArg List.head? hl)
      rw [List.orderedInsert_cons]
      split_ifs with hxy
      · rw [List.head?_cons, Option.some.injEq]
        constructor
        · rintro rfl
          exact .inl ⟨rfl, fun b hb => htrans _ _ _ hxy (hy.le htotal b hb)⟩
        · rintro (⟨rfl, -⟩ | ⟨hxa, hf⟩)
          · rfl
          · exact absurd (htrans _ _ _ hxy (hy.le htotal a hf.mem)) hxa
      · rw [List.head?_cons, ← List.head?_cons (a := y) (l := ys), ← hl, ih]
        constructor
        · intro hf
          exact .inr ⟨fun hxa => hxy (htrans _ _ _ hxa (hf.le htotal y hy.mem)), hf⟩
        · rintro (⟨rfl, hle⟩ | ⟨-, hf⟩)
          · exact absurd (hle y hy.mem) hxy
          · exact hf

end

/-! ## Counting -/

theorem countP_eq_one {α : Type} {p : α → Bool} {l : List α} (hnd : l.Nodup) :
    l.countP p = 1 ↔ (∃ x ∈ l, p x = true) ∧
      ∀ x ∈ l, ∀ y ∈ l, p x = true → p y = true → x = y := by
  rw [List.countP_eq_length_filter]
  constructor
  · intro h
    obtain ⟨z, hz⟩ := List.length_eq_one_iff.mp h
    have hall (x : α) (hx : x ∈ l) (hp : p x = true) : x = z := by
      have : x ∈ l.filter p := List.mem_filter.mpr ⟨hx, hp⟩
      rwa [hz, List.mem_singleton] at this
    obtain ⟨hzl, hp⟩ := List.mem_filter.mp (hz ▸ List.mem_singleton_self z : z ∈ l.filter p)
    exact ⟨⟨z, hzl, hp⟩, fun x hx y hy hpx hpy => (hall x hx hpx).trans (hall y hy hpy).symm⟩
  · rintro ⟨⟨z, hz, hp⟩, hunique⟩
    have hperm : (l.filter p).Perm [z] := by
      rw [List.perm_ext_iff_of_nodup (hnd.filter p) (List.nodup_singleton z)]
      intro x
      rw [List.mem_filter, List.mem_singleton]
      constructor
      · rintro ⟨hx, hpx⟩
        exact hunique x hx z hz hpx hp
      · rintro rfl
        exact ⟨hz, hp⟩
    exact hperm.length_eq

theorem countP_forall₂ {α β : Type} {R : α → β → Prop} {p : α → Bool} {q : β → Bool}
    (hpq : ∀ a b, R a b → p a = q b) {l : List α} {l' : List β} (h : List.Forall₂ R l l') :
    l.countP p = l'.countP q := by
  induction h with
  | nil => rfl
  | cons hab _ ih => rw [List.countP_cons, List.countP_cons, ih, hpq _ _ hab]

theorem mem_forall₂ {α β : Type} {R : α → β → Prop} {l : List α} {l' : List β}
    (h : List.Forall₂ R l l') {x : α} (hx : x ∈ l) : ∃ y ∈ l', R x y := by
  induction h with
  | nil => cases hx
  | cons hab _ ih =>
    rcases List.mem_cons.mp hx with rfl | hx
    · exact ⟨_, List.mem_cons_self, hab⟩
    · obtain ⟨y, hy, hr⟩ := ih hx
      exact ⟨y, List.mem_cons_of_mem _ hy, hr⟩

/-- A relation that, where the rows match, is a condition on the left row. -/
theorem forall₂_iff {α β : Type} {Q R : α → β → Prop} {p : α → Prop} {l : List α} {l' : List β}
    (h : List.Forall₂ Q l l') (hiff : ∀ x ∈ l, ∀ y, Q x y → (R x y ↔ p x)) :
    List.Forall₂ R l l' ↔ ∀ x ∈ l, p x := by
  induction h with
  | nil => simp
  | cons hab _ ih =>
    rw [List.forall₂_cons, List.forall_mem_cons, ih fun x hx => hiff x (List.mem_cons_of_mem _ hx),
      hiff _ List.mem_cons_self _ hab]

/-- Lists whose rows match have matching last rows, where keys match too. -/
theorem last_forall₂ {α β κ κ' : Type} {key : α → κ} {key' : β → κ'} {R : α → β → Prop}
    {l : List α} {l' : List β} (h : List.Forall₂ R l l')
    (hkey : ∀ {x y x' y'}, R x y → R x' y' → (key x = key x' ↔ key' y = key' y')) {x : α}
    (hx : Last key l x) : ∃ y, Last key' l' y ∧ R x y := by
  induction h with
  | nil => cases hx.mem
  | cons hab hrest ih =>
    obtain ⟨rfl, hafter⟩ | hx := last_cons.mp hx
    · refine ⟨_, last_cons.mpr (.inl ⟨rfl, fun t ht hkt => ?_⟩), hab⟩
      obtain ⟨s, hs, hst⟩ := mem_forall₂ hrest.flip ht
      exact hafter s hs ((hkey hst hab).mpr hkt)
    · obtain ⟨y, hy, hr⟩ := ih hx
      exact ⟨y, last_cons.mpr (.inr hy), hr⟩

end Rows
