import Provenex.Core.Fingerprinter
import Provenex.Lib.Windows

/-! `iter_window_hashes` emits the windows at the multiples of the stride, and the
hash it rolls is the polynomial hash of each. The windows after the first come
from one loop, whose hasher is at each position primed with the window before. -/

namespace Provenex

section

variable (py : Stdlib)

/-- The polynomial hash of the codepoints, from scratch. -/
def polynomialHash (codepoints : List ℕ) : ℤ := Windows.hash 1000003 rollingMod codepoints

/-- The window of `w` codepoints at `i`, with its hashes from scratch. -/
def directWindow (text : String) (i w : ℕ) : WindowHash :=
  ⟨i, w, polynomialHash (codepoints (sliceText text i w)), sha256Fingerprint py (sliceText text i w)⟩

/-- No window of an empty text, one of a short text, and else those at the multiples of the stride. -/
def directWindows (text : String) (w s : ℕ) : List WindowHash :=
  let n := (codepoints text).length
  if n = 0 then []
  else if n ≤ w then [directWindow py text 0 n]
  else (Windows.offsets n w s).map fun i => directWindow py text i w

theorem codepoints_slice (text : String) (i w : ℕ) :
    codepoints (sliceText text i w) = Windows.slice (codepoints text) i w := by
  rw [codepoints, codepoints, sliceText, String.toList_ofList, Windows.slice, List.map_take, List.map_drop]

theorem sliceText_all {text : String} {n : ℕ} (h : (codepoints text).length = n) : sliceText text 0 n = text := by
  rw [codepoints, List.length_map] at h
  rw [sliceText, List.drop_zero, ← h, List.take_length, String.ofList_toList]

theorem prime_value (cps : List ℕ) : (RollingHasher.prime cps).value = polynomialHash cps := by
  have hcast : (do let a ← cps; pure (a : ℤ)) = cps.map (fun (c : ℕ) => (c : ℤ)) := by
    rw [List.map_eq_flatMap]
    rfl
  change List.foldl (fun h c => (h * rollingBase + c) % rollingMod) 0 (do let a ← cps; pure (a : ℤ)) = _
  rw [hcast, List.foldl_map]
  exact Windows.foldl_hash 1000003 rollingMod cps

/-- The hasher after the window at position `i`. -/
structure PrimedAt (text : String) (w i : ℕ) (h : RollingHasher) : Prop where
  windowSize : h.windowSize = w
  value : h.value = polynomialHash (Windows.slice (codepoints text) i w)

theorem PrimedAt.windowAt {text : String} {w i : ℕ} {h : RollingHasher} (hp : PrimedAt text w i h) :
    windowAt py text i h = directWindow py text i w := by
  rw [Provenex.windowAt, directWindow, hp.windowSize, hp.value, codepoints_slice]

/-- Rolling over the codepoint that leaves and the one that enters moves the window on by one. -/
theorem PrimedAt.roll {text : String} {w i : ℕ} {h : RollingHasher} (hp : PrimedAt text w i h) (hw : 0 < w)
    (hi : i + w < (codepoints text).length) :
    PrimedAt text w (i + 1)
      (h.roll ((codepoints text).getD i 0) ((codepoints text).getD (i + w) 0)) := by
  obtain ⟨m, rfl⟩ : ∃ m, w = m + 1 := ⟨w - 1, by omega⟩
  refine ⟨hp.windowSize, ?_⟩
  have hlength : (Windows.slice (codepoints text) (i + 1) m).length = m := Windows.slice_length (by omega)
  have hroll := Windows.roll_hash 1000003 rollingMod (codepoints text)[i]
    (Windows.slice (codepoints text) (i + 1) m) (codepoints text)[i + 1 + m]
  rw [← Windows.slice_cons, ← Windows.slice_concat, hlength] at hroll
  have hout : (codepoints text).getD i 0 = (codepoints text)[i] := by
    rw [List.getD_eq_getElem?_getD, List.getElem?_eq_getElem (by omega), Option.getD_some]
  have hin : (codepoints text).getD (i + (m + 1)) 0 = (codepoints text)[i + 1 + m] := by
    rw [List.getD_eq_getElem?_getD, show i + (m + 1) = i + 1 + m by omega,
      List.getElem?_eq_getElem (by omega),
      Option.getD_some]
  rw [hout, hin, RollingHasher.roll, RollingHasher.topPower, hp.windowSize, hp.value]
  exact hroll

theorem primedAt_prime (text : String) {w : ℕ} (hw : w ≤ (codepoints text).length) :
    PrimedAt text w 0 (RollingHasher.prime ((codepoints text).take w)) where
  windowSize := by rw [RollingHasher.prime, List.length_take, min_eq_left hw]
  value := by rw [prime_value, Windows.slice, List.drop_zero]

/-- The loop emits the windows at the multiples of the stride among the positions it walks. -/
theorem slide_direct {text : String} {w : ℕ} (hw : 0 < w) (s m i : ℕ) {h : RollingHasher}
    (hp : PrimedAt text w i h) (him : i + m + w ≤ (codepoints text).length) :
    slide py text s h (List.range' (i + 1) m) =
      ((List.range' (i + 1) m).filter (s ∣ ·)).map fun j => directWindow py text j w := by
  induction m generalizing i h with
  | zero => rfl
  | succ m ih =>
    have hnext := hp.roll hw (by omega)
    have hrest := ih (i + 1) hnext (by omega)
    have hin : i + 1 + h.windowSize - 1 = i + w := by
      rw [hp.windowSize]
      omega
    rw [List.range'_succ, slide, hin, Nat.add_sub_cancel, List.filter_cons]
    by_cases hs : s ∣ i + 1
    · rw [if_pos (Nat.mod_eq_zero_of_dvd hs), if_pos (decide_eq_true hs), hnext.windowAt, hrest,
        List.map_cons]
    · rw [if_neg (fun hzero => hs (Nat.dvd_of_mod_eq_zero hzero)), if_neg (by simpa using hs), hrest]

theorem iterWindowHashes_direct (text : String) {windowSize stride : ℤ} (hw : 1 ≤ windowSize) (hs : 1 ≤ stride) :
    iterWindowHashes py text windowSize stride =
      .ok (directWindows py text windowSize.toNat stride.toNat) := by
  unfold iterWindowHashes directWindows
  rw [if_neg (by omega), if_neg (by omega)]
  have hw' : 0 < windowSize.toNat := by omega
  simp only
  split_ifs with hshort hempty
  · rfl
  · rw [directWindow, sliceText_all rfl, prime_value]
  · rename_i hlong
    omega
  · have hfirst := primedAt_prime text (by omega : windowSize.toNat ≤ (codepoints text).length)
    rw [hfirst.windowAt, slide_direct py hw' _ _ 0 hfirst (by omega), Windows.offsets, List.range_eq_range',
      List.range'_succ, List.filter_cons, if_pos (by simp), List.map_cons]

/-- The windows that are emitted are the direct ones, at the multiples of the stride in increasing
order. -/
theorem incremental_windows_match (text : String) (windowSize stride : ℤ) (hw : 1 ≤ windowSize)
    (hs : 1 ≤ stride) :
    iterWindowHashes py text windowSize stride =
        .ok (directWindows py text windowSize.toNat stride.toNat) ∧
      ∀ n, (Windows.offsets n windowSize.toNat stride.toNat).Pairwise (· < ·) ∧
        ∀ o, o ∈ Windows.offsets n windowSize.toNat stride.toNat ↔
          ∃ k, o = k * stride.toNat ∧ k * stride.toNat ≤ n - windowSize.toNat :=
  ⟨iterWindowHashes_direct py text hw hs, fun n => ⟨Windows.offsets_sorted n _ _, fun _ => Windows.mem_offsets⟩⟩

/-- A text of five codepoints, whose last one no window of two with a stride of two starts at. -/
theorem incremental_windows_sample :
    iterWindowHashes .blank "abcde" 2 2 = .ok (directWindows .blank "abcde" 2 2) ∧
      Windows.offsets 5 2 2 = [0, 2] :=
  ⟨(incremental_windows_match .blank "abcde" 2 2 (by decide) (by decide)).1, by decide⟩

/-! ## The positions that are reached -/

/-- Some window holds position `p`. -/
def Reached (windows : List WindowHash) (p : ℕ) : Prop :=
  ∃ w ∈ windows, w.offset ≤ p ∧ p < w.offset + w.length

theorem reached_offsets {text : String} {w s : ℕ} (p : ℕ) :
    Reached ((Windows.offsets (codepoints text).length w s).map fun i => directWindow py text i w) p ↔
      Windows.Covered (codepoints text).length w s p := by
  simp only [Reached, List.mem_map, exists_exists_and_eq_and]
  rfl

theorem reached_iff {text : String} (hn : 0 < (codepoints text).length) {w s : ℕ} (hs : 0 < s) (hsw : s ≤ w)
    {p : ℕ} (hp : p < (codepoints text).length) :
    Reached (directWindows py text w s) p ↔
      (codepoints text).length ≤ w ∨ p < ((codepoints text).length - w) / s * s + w := by
  unfold directWindows
  rw [if_neg (by omega)]
  split_ifs with hshort
  · refine iff_of_true ⟨_, List.mem_singleton_self _, Nat.zero_le p, ?_⟩ (Or.inl hshort)
    simpa [directWindow] using hp
  · rw [reached_offsets, Windows.covered_iff hs hsw, or_iff_right hshort]

/-- The windows reach the positions up to the end of the last one, and so all of them exactly where
the text is short or its length fits the stride. -/
theorem windows_reach_iff (text : String) (windowSize stride : ℤ) (hn : text ≠ "") (hw : 1 ≤ windowSize)
    (hs : 1 ≤ stride) (hsw : stride ≤ windowSize) :
    ∃ windows, iterWindowHashes py text windowSize stride = .ok windows ∧
      (∀ p < (codepoints text).length, Reached windows p ↔
        (codepoints text).length ≤ windowSize.toNat ∨
          p < ((codepoints text).length - windowSize.toNat) / stride.toNat * stride.toNat +
            windowSize.toNat) ∧
      ((∀ p < (codepoints text).length, Reached windows p) ↔
        (codepoints text).length ≤ windowSize.toNat ∨
          stride.toNat ∣ (codepoints text).length - windowSize.toNat) := by
  have hlength : 0 < (codepoints text).length := by
    rw [codepoints, List.length_map, List.length_pos_iff]
    exact fun hnil => hn (String.toList_eq_nil_iff.mp hnil)
  have hs' : 0 < stride.toNat := by omega
  have hsw' : stride.toNat ≤ windowSize.toNat := by omega
  refine ⟨_, iterWindowHashes_direct py text hw hs, fun p hp => reached_iff py hlength hs' hsw' hp, ?_⟩
  by_cases hshort : (codepoints text).length ≤ windowSize.toNat
  · exact iff_of_true (fun p hp => (reached_iff py hlength hs' hsw' hp).mpr (Or.inl hshort)) (Or.inl hshort)
  · rw [or_iff_right hshort, ← Windows.all_covered_iff hs' hsw' (by omega)]
    refine forall₂_congr fun p hp => ?_
    rw [reached_iff py hlength hs' hsw' hp, or_iff_right hshort, Windows.covered_iff hs' hsw']

theorem windows_reach_sample :
    ∃ windows, iterWindowHashes .blank "abcdef" 4 2 = .ok windows ∧ ∀ p < 6, Reached windows p := by
  obtain ⟨windows, hwindows, -, hall⟩ :=
    windows_reach_iff .blank "abcdef" 4 2 (by decide) (by decide) (by decide) (by decide)
  exact ⟨windows, hwindows, hall.mpr (Or.inr (by decide))⟩

/-- Three codepoints and one window of two: the last position is in no window. -/
theorem windows_leave_a_tail :
    ∃ windows, iterWindowHashes .blank "abc" 2 2 = .ok windows ∧ 2 < (codepoints "abc").length ∧
      ¬ Reached windows 2 := by
  refine ⟨_, iterWindowHashes_direct .blank "abc" (by decide) (by decide), by decide, ?_⟩
  rw [reached_iff .blank (by decide) (by decide) (by decide) (by decide)]
  decide

end

end Provenex
