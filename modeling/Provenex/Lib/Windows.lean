import Mathlib.Data.Nat.Digits.Defs
import Mathlib.Tactic

/-! Windows of a list: slices of one length that start at the multiples of a
stride, the positions they reach, and a polynomial hash that rolls from one slice
to the next. -/

namespace Windows

/-! ## Slices -/

section

variable {α : Type}

/-- The slice of `n` items that starts at `i`. -/
def slice (xs : List α) (i n : ℕ) : List α := (xs.drop i).take n

theorem slice_length {xs : List α} {i n : ℕ} (h : i + n ≤ xs.length) : (slice xs i n).length = n := by
  rw [slice, List.length_take, List.length_drop]
  omega

theorem slice_all (xs : List α) : slice xs 0 xs.length = xs := by
  rw [slice, List.drop_zero, List.take_length]

/-- A slice begins with the item that leaves it in the next position. -/
theorem slice_cons {xs : List α} {i : ℕ} (h : i < xs.length) (n : ℕ) :
    slice xs i (n + 1) = xs[i] :: slice xs (i + 1) n := by
  rw [slice, slice, List.drop_eq_getElem_cons h, List.take_succ_cons]

/-- A slice ends with the item that entered it in this position. -/
theorem slice_concat {xs : List α} {i n : ℕ} (h : i + n < xs.length) :
    slice xs i (n + 1) = slice xs i n ++ [xs[i + n]] := by
  have hlast : (xs.drop i)[n]? = some xs[i + n] := by
    rw [List.getElem?_drop, List.getElem?_eq_getElem h]
  rw [slice, slice, List.take_add_one, hlast, Option.toList_some]

end

/-! ## Offsets -/

/-- The multiples of `s` at which a window of `w` items starts in a list of `n`. -/
def offsets (n w s : ℕ) : List ℕ := (List.range (n - w + 1)).filter (s ∣ ·)

theorem mem_offsets {n w s o : ℕ} : o ∈ offsets n w s ↔ ∃ k, o = k * s ∧ k * s ≤ n - w := by
  rw [offsets, List.mem_filter, List.mem_range, decide_eq_true_eq]
  constructor
  · rintro ⟨hle, k, rfl⟩
    exact ⟨k, Nat.mul_comm s k, by rw [Nat.mul_comm k]; omega⟩
  · rintro ⟨k, rfl, hle⟩
    exact ⟨by omega, Dvd.intro_left k rfl⟩

theorem offsets_sorted (n w s : ℕ) : (offsets n w s).Pairwise (· < ·) :=
  List.pairwise_lt_range.filter _

/-- Some window reaches position `p`. -/
def Covered (n w s p : ℕ) : Prop := ∃ o ∈ offsets n w s, o ≤ p ∧ p < o + w

/-- The last window ends where the positions that are reached end. -/
theorem covered_iff {n w s : ℕ} (hs : 0 < s) (hsw : s ≤ w) (p : ℕ) :
    Covered n w s p ↔ p < (n - w) / s * s + w := by
  constructor
  · rintro ⟨o, ho, -, hlt⟩
    obtain ⟨k, rfl, hk⟩ := mem_offsets.mp ho
    have hlast : k * s ≤ (n - w) / s * s := Nat.mul_le_mul_right s ((Nat.le_div_iff_mul_le hs).mpr hk)
    omega
  · intro hp
    -- the last window that starts at or before the position
    set k := min (p / s) ((n - w) / s)
    have hstart : k * s ≤ p := (Nat.mul_le_mul_right s (min_le_left _ _)).trans (Nat.div_mul_le_self p s)
    have hend : k * s ≤ n - w :=
      (Nat.mul_le_mul_right s (min_le_right _ _)).trans (Nat.div_mul_le_self _ s)
    refine ⟨k * s, mem_offsets.mpr ⟨k, rfl, hend⟩, hstart, ?_⟩
    rcases min_choice (p / s) ((n - w) / s) with hmin | hmin
    · have hnext := Nat.lt_div_mul_add hs (a := p)
      rw [show k = p / s from hmin]
      omega
    · rw [show k = (n - w) / s from hmin]
      exact hp

/-- All positions are reached where the last window ends with the list. -/
theorem all_covered_iff {n w s : ℕ} (hs : 0 < s) (hsw : s ≤ w) (hwn : w ≤ n) :
    (∀ p < n, Covered n w s p) ↔ s ∣ n - w := by
  have hrem := Nat.div_add_mod' (n - w) s
  rw [Nat.dvd_iff_mod_eq_zero]
  constructor
  · intro h
    by_contra hne
    have hlast := (covered_iff hs hsw (n - 1)).mp (h (n - 1) (by omega))
    omega
  · intro hzero p hp
    rw [covered_iff hs hsw]
    omega

/-! ## A hash that rolls -/

section

variable (b : ℕ) (m : ℤ)

/-- The polynomial in `b` with the codes for coefficients, the first the leading one, modulo `m`. -/
def hash (cs : List ℕ) : ℤ := (Nat.ofDigits b cs.reverse : ℕ) % m

theorem hash_concat (cs : List ℕ) (c : ℕ) : hash b m (cs ++ [c]) = (hash b m cs * b + c) % m := by
  have hvalue : ((Nat.ofDigits b (cs ++ [c]).reverse : ℕ) : ℤ) = (Nat.ofDigits b cs.reverse : ℕ) * b + c := by
    rw [List.reverse_append, List.reverse_singleton, List.singleton_append, Nat.ofDigits_cons]
    push_cast
    ring
  have hreduced : hash b m cs * b + c ≡ (Nat.ofDigits b cs.reverse : ℕ) * b + c [ZMOD m] :=
    ((Int.mod_modEq _ m).mul_right b).add_right c
  rw [hash, hvalue]
  exact hreduced.symm

theorem hash_cons (c : ℕ) (cs : List ℕ) :
    hash b m (c :: cs) ≡ c * (b : ℤ) ^ cs.length + hash b m cs [ZMOD m] := by
  have hvalue : ((Nat.ofDigits b (c :: cs).reverse : ℕ) : ℤ) =
      c * (b : ℤ) ^ cs.length + (Nat.ofDigits b cs.reverse : ℕ) := by
    rw [Nat.ofDigits_reverse_cons]
    push_cast
    ring
  calc hash b m (c :: cs) ≡ (Nat.ofDigits b (c :: cs).reverse : ℕ) [ZMOD m] := Int.mod_modEq _ m
    _ = c * (b : ℤ) ^ cs.length + (Nat.ofDigits b cs.reverse : ℕ) := hvalue
    _ ≡ c * (b : ℤ) ^ cs.length + hash b m cs [ZMOD m] := (Int.mod_modEq _ m).symm.add_left _

/-- Reducing at each item computes the hash. -/
theorem foldl_hash (cs : List ℕ) :
    cs.foldl (fun (h : ℤ) (c : ℕ) => (h * b + c) % m) 0 = hash b m cs := by
  induction cs using List.reverseRecOn with
  | nil => rfl
  | append_singleton cs c ih =>
    rw [List.foldl_append, List.foldl_cons, List.foldl_nil, ih, hash_concat]

/-- The first item is subtracted at its power, the next one is appended. -/
theorem roll_hash (out : ℕ) (mid : List ℕ) (inc : ℕ) :
    ((hash b m (out :: mid) - out * ((b : ℤ) ^ mid.length % m)) % m * b + inc) % m =
      hash b m (mid ++ [inc]) := by
  have hdropped : (hash b m (out :: mid) - out * ((b : ℤ) ^ mid.length % m)) % m ≡ hash b m mid [ZMOD m] := by
    calc (hash b m (out :: mid) - out * ((b : ℤ) ^ mid.length % m)) % m
        ≡ hash b m (out :: mid) - out * ((b : ℤ) ^ mid.length % m) [ZMOD m] := Int.mod_modEq _ m
      _ ≡ out * (b : ℤ) ^ mid.length + hash b m mid - out * (b : ℤ) ^ mid.length [ZMOD m] :=
        (hash_cons b m out mid).sub ((Int.mod_modEq _ m).mul_left _)
      _ = hash b m mid := by ring
  rw [hash_concat]
  exact (hdropped.mul_right b).add_right inc

end

end Windows
