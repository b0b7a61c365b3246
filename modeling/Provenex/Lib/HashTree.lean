import Mathlib.Tactic

/-! Binary hash trees over lists of any length, split at the largest power of
two below the length (RFC 6962). Nothing is assumed of the node function but
what a theorem names: which pairs of digests it keeps apart. -/

namespace HashTree

/-- Where the sibling stands at one level of an audit path. -/
inductive Side
  | left
  | right
  deriving DecidableEq, Repr

/-- The largest power of two strictly below `n`, for `1 < n`. -/
def split (n : ℕ) : ℕ := 2 ^ (n - 1).log2

theorem split_pos (n : ℕ) : 0 < split n := Nat.two_pow_pos _

theorem split_lt {n : ℕ} (hn : 1 < n) : split n < n := by
  have := Nat.log2_self_le (n := n - 1) (by omega)
  unfold split
  omega

section Tree

variable {D : Type*} (node : D → D → D)

/-- The root of a nonempty list; `d0` stands in for the empty one. -/
def root (d0 : D) (l : List D) : D :=
  if _h : l.length ≤ 1 then l.headD d0
  else node (root d0 (l.take (split l.length))) (root d0 (l.drop (split l.length)))
termination_by l.length
decreasing_by
  · have := split_lt (n := l.length) (by omega); simp; omega
  · have := split_pos l.length; simp; omega

/-- The audit path of position `i`, the leaf's sibling first. -/
def path (d0 : D) (l : List D) (i : ℕ) : List D :=
  if _h : l.length ≤ 1 then []
  else if i < split l.length then
    path d0 (l.take (split l.length)) i ++ [root node d0 (l.drop (split l.length))]
  else
    path d0 (l.drop (split l.length)) (i - split l.length) ++
      [root node d0 (l.take (split l.length))]
termination_by l.length
decreasing_by
  · have := split_lt (n := l.length) (by omega); simp; omega
  · have := split_pos l.length; simp; omega

/-- Where the siblings of position `i` stand in a tree of `n` leaves. -/
def sides (n i : ℕ) : List Side :=
  if _h : n ≤ 1 then []
  else if i < split n then sides (split n) i ++ [.right]
  else sides (n - split n) (i - split n) ++ [.left]
termination_by n
decreasing_by
  · exact split_lt (by omega)
  · have := split_pos n; omega

/-- One level up: the sibling `s` on the given side of `cur`. -/
def join (cur : D) : Side × D → D
  | (.left, s) => node s cur
  | (.right, s) => node cur s

/-- Recompute a root from a leaf and an audit path. -/
def climb (cur : D) (steps : List (Side × D)) : D := steps.foldl (join node) cur

/-- The pairs a step and a climb give to the node function. -/
def joinPair (cur : D) : Side × D → D × D
  | (.left, s) => (s, cur)
  | (.right, s) => (cur, s)

def climbPairs : D → List (Side × D) → List (D × D)
  | _, [] => []
  | cur, st :: rest => joinPair cur st :: climbPairs (join node cur st) rest

/-- The pairs the tree itself gives to the node function. -/
def treePairs (d0 : D) (l : List D) : List (D × D) :=
  if _h : l.length ≤ 1 then []
  else
    treePairs d0 (l.take (split l.length)) ++ treePairs d0 (l.drop (split l.length)) ++
      [(root node d0 (l.take (split l.length)), root node d0 (l.drop (split l.length)))]
termination_by l.length
decreasing_by
  · have := split_lt (n := l.length) (by omega); simp; omega
  · have := split_pos l.length; simp; omega

/-- No pair of the one list is hashed to the digest of another pair of the other. -/
def KeepsApart (ps qs : List (D × D)) : Prop :=
  ∀ p ∈ ps, ∀ q ∈ qs, node p.1 p.2 = node q.1 q.2 → p = q

theorem join_eq (cur : D) (st : Side × D) :
    join node cur st = node (joinPair cur st).1 (joinPair cur st).2 := by
  obtain ⟨s, d⟩ := st
  cases s <;> rfl

@[simp] theorem climb_nil (cur : D) : climb node cur [] = cur := rfl

theorem climb_append (cur : D) (as bs : List (Side × D)) :
    climb node cur (as ++ bs) = climb node (climb node cur as) bs := by
  simp [climb]

theorem climbPairs_append (cur : D) (as bs : List (Side × D)) :
    climbPairs node cur (as ++ bs) =
      climbPairs node cur as ++ climbPairs node (climb node cur as) bs := by
  induction as generalizing cur with
  | nil => rfl
  | cons a as ih => simp [climbPairs, climb, ih]

theorem root_leaf (d0 : D) {l : List D} (h : l.length ≤ 1) : root node d0 l = l.headD d0 := by
  rw [root, dif_pos h]

theorem root_split (d0 : D) {l : List D} (h : ¬ l.length ≤ 1) :
    root node d0 l =
      node (root node d0 (l.take (split l.length))) (root node d0 (l.drop (split l.length))) := by
  rw [root, dif_neg h]

theorem treePairs_split (d0 : D) {l : List D} (h : ¬ l.length ≤ 1) :
    treePairs node d0 l =
      treePairs node d0 (l.take (split l.length)) ++ treePairs node d0 (l.drop (split l.length)) ++
        [(root node d0 (l.take (split l.length)), root node d0 (l.drop (split l.length)))] := by
  rw [treePairs, dif_neg h]

theorem take_split_length {l : List D} (h : ¬ l.length ≤ 1) :
    (l.take (split l.length)).length = split l.length := by
  have := split_lt (n := l.length) (by omega)
  simp; omega

theorem path_length (d0 : D) (l : List D) (i : ℕ) :
    (path node d0 l i).length = (sides l.length i).length := by
  fun_induction path node d0 l i with
  | case1 l i h => rw [sides, dif_pos h]; rfl
  | case2 l i h hi ih =>
    rw [sides, dif_neg h, if_pos hi]
    simp only [List.length_append, List.length_singleton, ih, take_split_length h]
  | case3 l i h hi ih =>
    rw [sides, dif_neg h, if_neg hi]
    simp only [List.length_append, List.length_singleton, ih, List.length_drop]

/-- Completeness: the tree's own path climbs to its root. -/
theorem climb_path (d0 : D) (l : List D) (i : ℕ) {x : D} (hx : l[i]? = some x) :
    climb node x ((sides l.length i).zip (path node d0 l i)) = root node d0 l := by
  fun_induction path node d0 l i with
  | case1 l i h =>
    have hi := (List.getElem?_eq_some_iff.mp hx).1
    obtain ⟨a, rfl⟩ : ∃ a, l = [a] := List.length_eq_one_iff.mp (by omega)
    obtain rfl : i = 0 := by simpa using hi
    rw [sides, dif_pos h, root_leaf node d0 h]
    simpa using hx.symm
  | case2 l i h hs ih =>
    have hlen := take_split_length h
    rw [List.getElem?_take_of_lt hs, hlen] at ih
    rw [sides, dif_neg h, if_pos hs,
      List.zip_append (by rw [path_length, hlen]), climb_append, root_split node d0 h, ih hx]
    rfl
  | case3 l i h hs ih =>
    rw [List.getElem?_drop, Nat.add_sub_cancel' (by omega), List.length_drop] at ih
    rw [sides, dif_neg h, if_neg hs,
      List.zip_append (by rw [path_length, List.length_drop]), climb_append,
      root_split node d0 h, ih hx]
    rfl

/-- What every node digest and every leaf has, every root has. -/
theorem root_of {P : D → Prop} (d0 : D) (hnode : ∀ a b, P (node a b)) {l : List D}
    (hl : ∀ d ∈ l, P d) (hne : l ≠ []) : P (root node d0 l) := by
  by_cases h : l.length ≤ 1
  · rw [root_leaf node d0 h]
    cases l with
    | nil => exact absurd rfl hne
    | cons d ds => exact hl d List.mem_cons_self
  · rw [root_split node d0 h]
    exact hnode _ _

theorem treePairs_of {P : D → Prop} (d0 : D) (hnode : ∀ a b, P (node a b)) {l : List D}
    (hl : ∀ d ∈ l, P d) : ∀ q ∈ treePairs node d0 l, P q.1 ∧ P q.2 := by
  fun_induction treePairs node d0 l with
  | case1 l h => simp
  | case2 l h ih1 ih2 =>
    have htake : ∀ d ∈ l.take (split l.length), P d := fun d hd => hl d (List.mem_of_mem_take hd)
    have hdrop : ∀ d ∈ l.drop (split l.length), P d := fun d hd => hl d (List.mem_of_mem_drop hd)
    intro q hq
    simp only [List.mem_append, List.mem_singleton] at hq
    rcases hq with (hq | hq) | rfl
    · exact ih1 htake q hq
    · exact ih2 hdrop q hq
    · have := split_lt (n := l.length) (by omega)
      have := split_pos l.length
      exact ⟨root_of node d0 hnode htake (List.ne_nil_of_length_pos (by simp; omega)),
        root_of node d0 hnode hdrop (List.ne_nil_of_length_pos (by simp; omega))⟩

/-- One half of each pair in a climb is the digest below it. -/
theorem climbPairs_of {P : D → Prop} (hnode : ∀ a b, P (node a b)) (steps : List (Side × D)) :
    ∀ cur, P cur → ∀ p ∈ climbPairs node cur steps, P p.1 ∨ P p.2 := by
  induction steps with
  | nil => simp [climbPairs]
  | cons st steps ih =>
    intro cur hc p hp
    rcases List.mem_cons.mp hp with rfl | hp
    · obtain ⟨side, d⟩ := st
      cases side with
      | left => exact .inr hc
      | right => exact .inl hc
    · exact ih _ (by rw [join_eq]; exact hnode _ _) p hp

theorem KeepsApart.mono {ps ps' qs qs' : List (D × D)} (h : KeepsApart node ps qs)
    (hp : ps' ⊆ ps) (hq : qs' ⊆ qs) : KeepsApart node ps' qs' :=
  fun p h1 q h2 => h p (hp h1) q (hq h2)

/-- The last join of a climb that ends in the digest of `(a, b)` was of that pair. -/
theorem climb_top {cur : D} {as : List (Side × D)} {st : Side × D} {a b : D}
    (hk : KeepsApart node (climbPairs node cur (as ++ [st])) [(a, b)])
    (h : climb node cur (as ++ [st]) = node a b) : joinPair (climb node cur as) st = (a, b) := by
  rw [climb_append] at h
  apply hk _ _ _ (List.mem_singleton_self _)
  · rw [← join_eq node]; exact h
  · rw [climbPairs_append]
    exact List.mem_append_right _ (List.mem_singleton_self _)

private theorem eq_append_singleton {p : List D} {n : ℕ} (h : p.length = n + 1) :
    ∃ q s, p = q ++ [s] ∧ q.length = n := by
  rcases List.eq_nil_or_concat p with rfl | ⟨q, s, rfl⟩
  · simp at h
  · exact ⟨q, s, by simp, by simpa using h⟩

/-- Soundness: a climb along the sides of position `i` that reaches the root
started at the leaf in position `i` and used the tree's own path. -/
theorem climb_unique (d0 : D) (l : List D) (i : ℕ) (hi : i < l.length) (cur : D) (p : List D)
    (hlen : p.length = (sides l.length i).length)
    (hk : KeepsApart node (climbPairs node cur ((sides l.length i).zip p)) (treePairs node d0 l))
    (h : climb node cur ((sides l.length i).zip p) = root node d0 l) :
    l[i]? = some cur ∧ p = path node d0 l i := by
  fun_induction path node d0 l i generalizing p with
  | case1 l i h1 =>
    rw [sides, dif_pos h1] at hlen h
    obtain rfl : p = [] := List.length_eq_zero_iff.mp hlen
    obtain ⟨a, rfl⟩ : ∃ a, l = [a] := List.length_eq_one_iff.mp (by omega)
    obtain rfl : i = 0 := by simpa using hi
    rw [root_leaf node d0 h1] at h
    exact ⟨by simpa using h.symm, rfl⟩
  | case2 l i h1 hs ih =>
    rw [sides, dif_neg h1, if_pos hs] at hlen h hk
    obtain ⟨q, s, rfl, hq⟩ := eq_append_singleton (by simpa using hlen)
    rw [List.zip_append hq.symm] at h hk
    rw [root_split node d0 h1] at h
    rw [treePairs, dif_neg h1] at hk
    -- the last join is the tree's top pair; what is below it climbs to the left root
    have htop := climb_top node (hk.mono node (List.Subset.refl _)
      (List.subset_append_right _ _)) h
    simp only [joinPair, Prod.mk.injEq] at htop
    rw [take_split_length h1, List.getElem?_take_of_lt hs] at ih
    obtain ⟨hl, hp⟩ := ih hs q hq
      (hk.mono node (by rw [climbPairs_append]; exact List.subset_append_left _ _)
        (by rw [List.append_assoc]; exact List.subset_append_left _ _)) htop.1
    exact ⟨hl, by rw [hp, htop.2]⟩
  | case3 l i h1 hs ih =>
    rw [sides, dif_neg h1, if_neg hs] at hlen h hk
    obtain ⟨q, s, rfl, hq⟩ := eq_append_singleton (by simpa using hlen)
    rw [List.zip_append hq.symm] at h hk
    rw [root_split node d0 h1] at h
    rw [treePairs, dif_neg h1] at hk
    have htop := climb_top node (hk.mono node (List.Subset.refl _)
      (List.subset_append_right _ _)) h
    simp only [joinPair, Prod.mk.injEq] at htop
    rw [List.length_drop, List.getElem?_drop, Nat.add_sub_cancel' (by omega)] at ih
    obtain ⟨hl, hp⟩ := ih (by omega) q hq
      (hk.mono node (by rw [climbPairs_append]; exact List.subset_append_left _ _)
        (by
          rw [List.append_assoc]
          exact List.Subset.trans (List.subset_append_left _ _)
            (List.subset_append_right _ _))) htop.2
    exact ⟨hl, by rw [hp, htop.1]⟩

/-- Two trees of one size with one root have the same leaves, as far as no node of the one is
hashed to that of another pair of the other. -/
theorem root_inj (d0 : D) {l l' : List D} (hlen : l.length = l'.length)
    (hk : KeepsApart node (treePairs node d0 l) (treePairs node d0 l'))
    (h : root node d0 l = root node d0 l') : l = l' := by
  fun_induction treePairs node d0 l generalizing l' with
  | case1 l h1 =>
    rw [root_leaf node d0 h1, root_leaf node d0 (hlen ▸ h1)] at h
    rcases l with _ | ⟨a, _ | ⟨b, l⟩⟩
    · exact (List.length_eq_zero_iff.mp hlen.symm).symm
    · obtain ⟨b, rfl⟩ := List.length_eq_one_iff.mp hlen.symm
      exact congrArg (fun x => [x]) h
    · simp at h1
  | case2 l h1 ih1 ih2 =>
    have h1' : ¬ l'.length ≤ 1 := hlen ▸ h1
    rw [root_split node d0 h1, root_split node d0 h1'] at h
    rw [treePairs_split node d0 h1'] at hk
    -- the two tops are one pair, so both halves have one root
    obtain ⟨hl, hr⟩ := Prod.mk.inj (hk _ (List.mem_append_right _ (List.mem_singleton_self _)) _
      (List.mem_append_right _ (List.mem_singleton_self _)) h)
    have htake := ih1 (by simp [hlen]) (hk.mono node
      (by rw [List.append_assoc]; exact List.subset_append_left _ _)
      (by rw [List.append_assoc]; exact List.subset_append_left _ _)) hl
    have hdrop := ih2 (by simp [hlen]) (hk.mono node
      (by rw [List.append_assoc]; exact List.Subset.trans (List.subset_append_left _ _)
            (List.subset_append_right _ _))
      (by rw [List.append_assoc]; exact List.Subset.trans (List.subset_append_left _ _)
            (List.subset_append_right _ _))) hr
    rw [← List.take_append_drop (split l.length) l, htake, hdrop, List.take_append_drop]

end Tree

/-! ## The same sides from the bits of the position -/

/-- Skip the levels at which an even node has no sibling to its right. -/
def unwind (r sn : ℕ) : ℕ × ℕ :=
  if h : r % 2 = 0 ∧ r ≠ 0 then unwind (r / 2) (sn / 2) else (r, sn)
termination_by r
decreasing_by omega

theorem unwind_fst_le (r sn : ℕ) : (unwind r sn).1 ≤ r := by
  fun_induction unwind r sn with
  | case1 r sn h ih => omega
  | case2 r sn h => exact le_rfl

theorem unwind_snd_le (r sn : ℕ) : (unwind r sn).2 ≤ sn := by
  fun_induction unwind r sn with
  | case1 r sn h ih => omega
  | case2 r sn h => exact le_rfl

/-- The sides met going up from node `r` of a level whose last node is `sn`. -/
def walk (r sn : ℕ) : List Side :=
  if h0 : sn = 0 then []
  else if r % 2 = 1 ∨ r = sn then
    .left :: walk ((unwind r sn).1 / 2) ((unwind r sn).2 / 2)
  else .right :: walk (r / 2) (sn / 2)
termination_by sn
decreasing_by
  · have := unwind_snd_le r sn; omega
  · omega

theorem unwind_odd {r : ℕ} (sn : ℕ) (h : r % 2 = 1) : unwind r sn = (r, sn) := by
  rw [unwind, dif_neg (by omega)]

theorem unwind_even {r : ℕ} (sn : ℕ) (h : r % 2 = 0) (h0 : r ≠ 0) :
    unwind r sn = unwind (r / 2) (sn / 2) := by
  rw [unwind, dif_pos ⟨h, h0⟩]

theorem walk_zero (r : ℕ) : walk r 0 = [] := by rw [walk, dif_pos rfl]

theorem walk_left {r sn : ℕ} (h0 : sn ≠ 0) (h : r % 2 = 1 ∨ r = sn) :
    walk r sn = .left :: walk ((unwind r sn).1 / 2) ((unwind r sn).2 / 2) := by
  rw [walk, dif_neg h0, if_pos h]

theorem walk_odd {r sn : ℕ} (h0 : sn ≠ 0) (h : r % 2 = 1) :
    walk r sn = .left :: walk (r / 2) (sn / 2) := by
  rw [walk_left h0 (.inl h), unwind_odd sn h]

theorem walk_even {r sn : ℕ} (h0 : sn ≠ 0) (h : r % 2 = 0) (hne : r ≠ sn) :
    walk r sn = .right :: walk (r / 2) (sn / 2) := by
  rw [walk, dif_neg h0, if_neg (by omega)]

/-- In the left, complete, half the last node of the level never matters. -/
theorem walk_lt_pow (m i sn : ℕ) (hi : i < 2 ^ m) (h1 : 2 ^ m ≤ sn) (h2 : sn < 2 ^ (m + 1)) :
    walk i sn = walk i (2 ^ m - 1) ++ [.right] := by
  induction m generalizing i sn with
  | zero =>
    obtain rfl : i = 0 := by omega
    obtain rfl : sn = 1 := by omega
    rw [walk_even (by decide) (by decide) (by decide), walk_zero,
      show 2 ^ 0 - 1 = 0 from rfl, walk_zero]
    rfl
  | succ m ih =>
    have hp : 2 ^ (m + 1) = 2 * 2 ^ m := pow_succ' 2 m
    have hp' : 2 ^ (m + 1 + 1) = 2 * 2 ^ (m + 1) := pow_succ' 2 (m + 1)
    have hpos := Nat.two_pow_pos m
    have hhalf : (2 ^ (m + 1) - 1) / 2 = 2 ^ m - 1 := by omega
    have hrec := ih (i / 2) (sn / 2) (by omega) (by omega) (by omega)
    rcases Nat.mod_two_eq_zero_or_one i with h | h
    · rw [walk_even (by omega) h (by omega), @walk_even i (2 ^ (m + 1) - 1) (by omega) h
        (by omega), hhalf, hrec]
      rfl
    · rw [walk_odd (by omega) h, @walk_odd i (2 ^ (m + 1) - 1) (by omega) h, hhalf, hrec]
      rfl

/-- Unwinding does not see a higher power of two on both numbers. -/
theorem unwind_add_pow (t r : ℕ) (hr : r < 2 ^ t) (h0 : r ≠ 0) :
    ∃ t', (unwind r r).1 = (unwind r r).2 ∧ (unwind r r).1 % 2 = 1 ∧
      (unwind r r).1 < 2 ^ t' ∧ 0 < t' ∧
      unwind (r + 2 ^ t) (r + 2 ^ t) =
        ((unwind r r).1 + 2 ^ t', (unwind r r).1 + 2 ^ t') := by
  induction t generalizing r with
  | zero => omega
  | succ t ih =>
    have hp : 2 ^ (t + 1) = 2 * 2 ^ t := pow_succ' 2 t
    rcases Nat.mod_two_eq_zero_or_one r with h | h
    · obtain ⟨t', h1, h2, h3, h4, h5⟩ := ih (r / 2) (by omega) (by omega)
      rw [unwind_even r h h0, unwind_even (r + 2 ^ (t + 1)) (by omega) (by omega),
        show (r + 2 ^ (t + 1)) / 2 = r / 2 + 2 ^ t by omega]
      exact ⟨t', h1, h2, h3, h4, h5⟩
    · rw [unwind_odd r h, unwind_odd _ (by omega)]
      exact ⟨t + 1, rfl, h, hr, Nat.succ_pos t, rfl⟩

theorem unwind_pow (t : ℕ) : unwind (2 ^ t) (2 ^ t) = (1, 1) := by
  induction t with
  | zero => exact unwind_odd 1 rfl
  | succ t ih =>
    have hp : 2 ^ (t + 1) = 2 * 2 ^ t := pow_succ' 2 t
    have hpos := Nat.two_pow_pos t
    rw [unwind_even _ (by omega) (by omega), show 2 ^ (t + 1) / 2 = 2 ^ t by omega, ih]

/-- In the right half the walk is the one of the smaller tree, then a left sibling. -/
theorem walk_add_pow (sn : ℕ) : ∀ t r, r ≤ sn → sn < 2 ^ t →
    walk (r + 2 ^ t) (sn + 2 ^ t) = walk r sn ++ [.left] := by
  induction sn using Nat.strong_induction_on with
  | _ sn ih =>
    intro t r hr ht
    have hpos := Nat.two_pow_pos t
    rcases Nat.eq_zero_or_pos sn with rfl | hsn
    · -- the smaller tree is exhausted; what is left is the spine up to the root
      obtain rfl : r = 0 := by omega
      rw [walk_zero, Nat.zero_add, walk_left (by omega) (.inr rfl), unwind_pow]
      rw [show (1, 1).2 / 2 = 0 from rfl, walk_zero]
      rfl
    obtain ⟨t, rfl⟩ : ∃ t', t = t' + 1 := by
      cases t with
      | zero => simp only [pow_zero] at ht; omega
      | succ t => exact ⟨t, rfl⟩
    have hp : 2 ^ (t + 1) = 2 * 2 ^ t := pow_succ' 2 t
    have hhalf (n : ℕ) : (n + 2 ^ (t + 1)) / 2 = n / 2 + 2 ^ t := by omega
    have hrec := ih (sn / 2) (by omega) t (r / 2) (by omega) (by omega)
    rcases Nat.mod_two_eq_zero_or_one r with h | h
    · by_cases hne : r = sn
      · subst hne
        obtain ⟨t', h1, h2, h3, h4, h5⟩ := unwind_add_pow (t + 1) r ht (by omega)
        have hle := unwind_fst_le r r
        obtain ⟨u, rfl⟩ : ∃ u, t' = u + 1 := ⟨t' - 1, by omega⟩
        have hp' : 2 ^ (u + 1) = 2 * 2 ^ u := pow_succ' 2 u
        rw [walk_left (by omega) (.inr rfl), walk_left (r := r) (by omega) (.inr rfl), h5, ← h1,
          List.cons_append]
        congr 1
        rw [show ((unwind r r).1 + 2 ^ (u + 1)) / 2 = (unwind r r).1 / 2 + 2 ^ u by omega]
        exact ih _ (by omega) u _ le_rfl (by omega)
      · rw [walk_even (by omega) (by omega) (by omega), walk_even (by omega) h hne, hhalf, hhalf,
          hrec]
        rfl
    · rw [walk_odd (by omega) (by omega), walk_odd (by omega) h, hhalf, hhalf, hrec]
      rfl

theorem split_bounds {n : ℕ} (hn : 1 < n) :
    ∃ m, split n = 2 ^ m ∧ 2 ^ m ≤ n - 1 ∧ n - 1 < 2 ^ (m + 1) :=
  ⟨(n - 1).log2, rfl, Nat.log2_self_le (by omega), Nat.lt_log2_self⟩

/-- Bottom-up bits and top-down splits meet the same siblings. -/
theorem walk_eq_sides (n i : ℕ) (hi : i < n) : walk i (n - 1) = sides n i := by
  fun_induction sides n i with
  | case1 n i h => rw [show n - 1 = 0 by omega, walk_zero]
  | case2 n i h hs ih =>
    obtain ⟨m, hm, h1, h2⟩ := split_bounds (n := n) (by omega)
    rw [← ih hs, hm]
    exact walk_lt_pow m i (n - 1) (hm ▸ hs) h1 h2
  | case3 n i h hs ih =>
    obtain ⟨m, hm, h1, h2⟩ := split_bounds (n := n) (by omega)
    have hp : 2 ^ (m + 1) = 2 * 2 ^ m := pow_succ' 2 m
    rw [hm] at hs
    rw [← ih (by omega), hm]
    have := walk_add_pow (n - 2 ^ m - 1) m (i - 2 ^ m) (by omega) (by omega)
    rwa [show i - 2 ^ m + 2 ^ m = i by omega, show n - 2 ^ m - 1 + 2 ^ m = n - 1 by omega] at this

end HashTree
