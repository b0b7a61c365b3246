import Provenex.Proofs.Evaluate

/-! `not_older_than` counts whole seconds: each of the two instants loses what is below a
second before they are compared. How far that is from comparing the instants. -/

namespace Provenex

open Guard

/-! ## Instants -/

/-- The epoch seconds of an instant in microseconds, cut off toward zero. -/
def wholeSeconds (us : ℤ) : ℤ := us.tdiv 1000000

/-- What is cut off. -/
def belowSecond (us : ℤ) : ℤ := us.tmod 1000000

/-- The text is a timestamp of this instant, to the millisecond, and a `datetime` can hold it: a day
after the year 9999 at most, in any offset. -/
structure Timestamp (py : Stdlib) (s : String) (us : ℤ) : Prop where
  parsed : ∃ dt, py.fromisoformat ((stripZ s).elim s (· ++ "+00:00")) = some dt ∧ dt.us = us
  millis : 1000 ∣ us
  range : |us| < 253402387200000000

/-- `timestamp()` is the nearest float, which for such an instant has the right seconds; `int` drops
the rest. -/
def CutsSeconds (py : Stdlib) : Prop :=
  ∀ us : ℤ, 1000 ∣ us → |us| < 253402387200000000 → py.intTimestamp us = wholeSeconds us

/-- The constraint holds of the value at this time. -/
def Fresh {Ω : Type} (rt : Runtime Ω) (constraint : PyDict) (actual : PyObj Ω) (now : String) : Prop :=
  ∀ place unknownMetadata, ∃ why, checkConstraint rt place (.dict constraint) (some actual)
    (.str now) unknownMetadata = .ok (true, why)

section

variable {py : Stdlib}

theorem parseIso8601_timestamp (hcuts : CutsSeconds py) {s : String} {us : ℤ}
    (h : Timestamp py s us) (place : String) : parseIso8601 py s place = .ok (wholeSeconds us) := by
  obtain ⟨dt, hdt, rfl⟩ := h.parsed
  unfold parseIso8601
  cases hz : stripZ s with
  | none =>
    rw [hz, Option.elim_none] at hdt
    simp only [hdt, hcuts dt.us h.millis h.range]
  | some front =>
    rw [hz, Option.elim_some] at hdt
    simp only [hdt, hcuts dt.us h.millis h.range]

/-! ## Durations -/

theorem digits_nonneg (digits : List Char) :
    ∀ n : ℤ, 0 ≤ n → 0 ≤ digits.foldl (fun n c => 10 * n + ((py.decimal c).getD 0 : ℤ)) n := by
  induction digits with
  | nil => exact fun n hn => hn
  | cons c cs ih =>
    intro n hn
    refine ih _ ?_
    dsimp only
    omega

theorem durationUnitSeconds_pos (unit : Char) : 0 < durationUnitSeconds unit := by
  unfold durationUnitSeconds
  split <;> decide

theorem parseDuration_nonneg {operand : PyVal} {place : String} {w : ℤ}
    (h : parseDuration py operand place = .ok w) : 0 ≤ w := by
  unfold parseDuration at h
  split at h
  · split at h
    · next digits unit _ =>
      obtain ⟨n, hn, rfl⟩ := map_ok.mp h
      unfold intOfDigits at hn
      split_ifs at hn
      obtain rfl := Except.ok.inj hn
      exact mul_nonneg (digits_nonneg digits 0 le_rfl) (durationUnitSeconds_pos unit).le
    · cases h
  · cases h

/-! ## Cutting off -/

theorem wholeSeconds_add (us : ℤ) : 1000000 * wholeSeconds us + belowSecond us = us :=
  Int.mul_tdiv_add_tmod us 1000000

theorem belowSecond_lt (us : ℤ) : -1000000 < belowSecond us ∧ belowSecond us < 1000000 :=
  ⟨Int.lt_tmod_of_pos us (by decide), Int.tmod_lt_of_pos us (by decide)⟩

theorem belowSecond_nonneg {us : ℤ} (h : 0 ≤ us) : 0 ≤ belowSecond us := Int.tmod_nonneg _ h

theorem belowSecond_nonpos {us : ℤ} (h : us ≤ 0) : belowSecond us ≤ 0 := by
  have hneg := Int.tmod_nonneg 1000000 (Int.neg_nonneg_of_nonpos h)
  rw [Int.neg_tmod] at hneg
  unfold belowSecond
  omega

section

variable {t n w : ℤ}

/-- The two parts that are cut off shift the comparison. -/
theorem wholeSeconds_sub_le : wholeSeconds n - wholeSeconds t ≤ w ↔
    n - t - (belowSecond n - belowSecond t) ≤ w * 1000000 := by
  have hn := wholeSeconds_add n
  have ht := wholeSeconds_add t
  omega

/-- A value that is not too old is found fresh. -/
theorem wholeSeconds_of_age (hw : 0 ≤ w) (h : n - t ≤ w * 1000000) :
    wholeSeconds n - wholeSeconds t ≤ w := by
  have hn := wholeSeconds_add n
  have ht := wholeSeconds_add t
  have hnlt := belowSecond_lt n
  have htlt := belowSecond_lt t
  rcases le_total 0 n with hn0 | hn0
  · have hb := belowSecond_nonneg hn0
    omega
  · have hb := belowSecond_nonpos hn0
    rcases le_total 0 t with ht0 | ht0
    · have hc := belowSecond_nonneg ht0
      omega
    · have hc := belowSecond_nonpos ht0
      omega

/-- What is found fresh is too old by less than a second, or less than two across the epoch. -/
theorem age_of_wholeSeconds (h : wholeSeconds n - wholeSeconds t ≤ w) :
    n - t < (w + 1) * 1000000 ∨ t < 0 ∧ 0 < n ∧ n - t < (w + 2) * 1000000 := by
  rw [wholeSeconds_sub_le] at h
  have hnlt := belowSecond_lt n
  have htlt := belowSecond_lt t
  rcases lt_or_ge t 0 with ht0 | ht0
  · rcases lt_or_ge 0 n with hn0 | hn0
    · omega
    · have hb := belowSecond_nonpos hn0
      omega
  · have hc := belowSecond_nonneg ht0
    omega

end

end

/-! ## The report -/

/-- An age between two such instants takes few digits. -/
theorem age_writable {t n : ℤ} (ht : |t| < 253402387200000000) (hn : |n| < 253402387200000000) :
    writableInt (wholeSeconds n - wholeSeconds t) = true := by
  have hwt := wholeSeconds_add t
  have hwn := wholeSeconds_add n
  have htlt := belowSecond_lt t
  have hnlt := belowSecond_lt n
  rw [abs_lt] at ht hn
  obtain ⟨k, hk⟩ : ∃ k, maxIntDigits = k + 12 + 1 := ⟨4287, rfl⟩
  rw [writableInt, hk, digitsWithin_iff]
  have hpow : 10 ^ (12 + 1) ≤ 10 ^ (k + 12 + 1) := Nat.pow_le_pow_right (by decide) (by omega)
  have hsmall : (wholeSeconds n - wholeSeconds t).natAbs < 10 ^ (12 + 1) := by
    norm_num
    omega
  exact hsmall.trans_le hpow

/-! ## The constraint -/

/-- Where `not_older_than` is what is looked at, the whole seconds are compared. -/
theorem fresh_iff {Ω : Type} {rt : Runtime Ω} (hcuts : CutsSeconds rt.toStdlib)
    {constraint : PyDict} {operand : PyVal} {actual : PyObj Ω} {s now : String} {t n w : ℤ}
    (hop : firstOperator constraint = some .notOlderThan)
    (hoperand : getKey constraint "not_older_than" = some operand)
    (hw : parseDuration rt.toStdlib operand "" = .ok w) (hdigits : writableInt w = true)
    (hs : actual.str? = some s) (ht : Timestamp rt.toStdlib s t) (hn : Timestamp rt.toStdlib now n) :
    Fresh rt constraint actual now ↔ wholeSeconds n - wholeSeconds t ≤ w := by
  have hkey : getOrNone constraint Operator.notOlderThan.key = operand := by
    change (getKey constraint "not_older_than").getD .none = operand
    rw [hoperand]
    rfl
  have hpasses : ValuePasses rt (.dict constraint) (.str now) actual ↔
      wholeSeconds n - wholeSeconds t ≤ w := by
    have ht' := parseIso8601_timestamp hcuts ht ""
    have hn' := parseIso8601_timestamp hcuts hn ""
    simp only [ValuePasses, hop, Option.some.injEq, exists_eq_left', hkey, Operator.Holds,
      Operator.Written, hs]
    constructor
    · rintro ⟨⟨s', now', maxAge, a, b, rfl, hnow, hmax, ha, hb, hle⟩, -⟩
      obtain rfl : now = now' := by injection hnow with h; injection h
      obtain rfl := Except.ok.inj (hw.symm.trans hmax)
      obtain rfl := Except.ok.inj (ht'.symm.trans ha)
      obtain rfl := Except.ok.inj (hn'.symm.trans hb)
      exact hle
    · refine fun hle => ⟨⟨s, now, w, _, _, rfl, rfl, hw, ht', hn', hle⟩, ?_⟩
      rintro _ _ maxAge a b rfl ⟨⟩ hmax ha hb
      obtain rfl := Except.ok.inj (hw.symm.trans hmax)
      obtain rfl := Except.ok.inj (ht'.symm.trans ha)
      obtain rfl := Except.ok.inj (hn'.symm.trans hb)
      exact ⟨age_writable ht.range hn.range, hdigits⟩
  rw [← hpasses]
  exact ⟨fun h => (checkConstraint_true rt "" _ _ _ "").mp (h "" ""),
    fun h place unknownMetadata => (checkConstraint_true rt place _ _ _ unknownMetadata).mpr h⟩

/-- A value is fresh by its whole seconds, where the limit in seconds can be written. None that is young enough is missed, what passes is too
old by less than a second (by less than two, where the epoch lies between), and the comparison is the
exact one unless the excess is within what was cut off. -/
theorem freshness_in_seconds {Ω : Type} {rt : Runtime Ω} (hcuts : CutsSeconds rt.toStdlib)
    {constraint : PyDict} {operand : PyVal} {actual : PyObj Ω} {s now : String} {t n w : ℤ}
    (hop : firstOperator constraint = some .notOlderThan)
    (hoperand : getKey constraint "not_older_than" = some operand)
    (hw : parseDuration rt.toStdlib operand "" = .ok w) (hdigits : writableInt w = true)
    (hs : actual.str? = some s) (ht : Timestamp rt.toStdlib s t) (hn : Timestamp rt.toStdlib now n) :
    (Fresh rt constraint actual now ↔ wholeSeconds n - wholeSeconds t ≤ w) ∧
      (n - t ≤ w * 1000000 → Fresh rt constraint actual now) ∧
      (Fresh rt constraint actual now →
        n - t < (w + 1) * 1000000 ∨ t < 0 ∧ 0 < n ∧ n - t < (w + 2) * 1000000) ∧
      ((Fresh rt constraint actual now ↔ n - t ≤ w * 1000000) ↔
        ¬ (0 < n - t - w * 1000000 ∧ n - t - w * 1000000 ≤ belowSecond n - belowSecond t)) := by
  have hfresh := fresh_iff hcuts hop hoperand hw hdigits hs ht hn
  have hage := wholeSeconds_of_age (n := n) (t := t) (parseDuration_nonneg hw)
  refine ⟨hfresh, fun h => hfresh.mpr (hage h), fun h => age_of_wholeSeconds (hfresh.mp h), ?_⟩
  rw [hfresh]
  constructor
  · rintro h ⟨hpos, hle⟩
    have hfound := h.mp (wholeSeconds_sub_le.mpr (by omega))
    omega
  · refine fun hnot => ⟨fun h => ?_, hage⟩
    rw [wholeSeconds_sub_le] at h
    omega

namespace Sample

/-- A clock that reads three texts. -/
def clock : Runtime Empty :=
  { Runtime.blank with
    intTimestamp := wholeSeconds
    fromisoformat := fun s =>
      if s = "2026-04-01T09:00:00.000+00:00" then some ⟨true, 1775034000000000⟩
      else if s = "2026-04-01T09:00:01.999+00:00" then some ⟨true, 1775034001999000⟩
      else if s = "2026-04-01T11:00:01.000+02:00" then some ⟨true, 1775034001000000⟩
      else none }

theorem clock_cuts : CutsSeconds clock.toStdlib := fun _ _ _ => rfl

/-- The three texts, the instants in microseconds. -/
theorem clock_start : Timestamp clock.toStdlib "2026-04-01T09:00:00.000Z" 1775034000000000 :=
  ⟨⟨_, rfl, rfl⟩, by decide, by decide⟩

theorem clock_late : Timestamp clock.toStdlib "2026-04-01T09:00:01.999Z" 1775034001999000 :=
  ⟨⟨_, rfl, rfl⟩, by decide, by decide⟩

theorem clock_offset : Timestamp clock.toStdlib "2026-04-01T11:00:01.000+02:00" 1775034001000000 :=
  ⟨⟨_, rfl, rfl⟩, by decide, by decide⟩

/-- At most one second old. -/
def oneSecond : PyDict := [(.str "not_older_than", .str "1s")]

theorem oneSecond_parses : parseDuration clock.toStdlib (.str "1s") "" = .ok 1 := by decide

end Sample

/-- One second later, written with another offset: fresh, and exactly so. -/
theorem freshness_in_seconds_sample : Fresh Sample.clock Sample.oneSecond
    (.val (.str "2026-04-01T09:00:00.000Z")) "2026-04-01T11:00:01.000+02:00" := by
  have hop : firstOperator Sample.oneSecond = some .notOlderThan := rfl
  have hs : (PyObj.val (.str "2026-04-01T09:00:00.000Z") : PyObj Empty).str? =
      some "2026-04-01T09:00:00.000Z" := rfl
  obtain ⟨-, hfresh, -, -⟩ := freshness_in_seconds Sample.clock_cuts hop rfl Sample.oneSecond_parses
    rfl hs Sample.clock_start Sample.clock_offset
  exact hfresh (by decide)

/-- Almost two seconds old, and still fresh where one second is the limit. -/
theorem stale_by_milliseconds : Fresh Sample.clock Sample.oneSecond
      (.val (.str "2026-04-01T09:00:00.000Z")) "2026-04-01T09:00:01.999Z" ∧
    parseDuration Sample.clock.toStdlib (.str "1s") "" = .ok 1 ∧
    ∃ t n, Timestamp Sample.clock.toStdlib "2026-04-01T09:00:00.000Z" t ∧
      Timestamp Sample.clock.toStdlib "2026-04-01T09:00:01.999Z" n ∧ ¬ n - t ≤ 1 * 1000000 := by
  refine ⟨?_, Sample.oneSecond_parses, _, _, Sample.clock_start, Sample.clock_late, by decide⟩
  refine (fresh_iff Sample.clock_cuts rfl rfl Sample.oneSecond_parses rfl rfl
    Sample.clock_start Sample.clock_late).mpr ?_
  decide

end Provenex
