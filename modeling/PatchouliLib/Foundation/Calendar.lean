import Mathlib

/-!
# The proleptic Gregorian calendar

Dates from year 1 to year 9999 and their ordinals, where January 1 of year 1 has
ordinal 1.  The ordinal of a date counts the days of the years before it, of the
months before it, and its day; the date of an ordinal is found by taking out
whole 400-year, 100-year, 4-year and 1-year cycles, the last cycle of each kind
being one day longer than the others.

## Main definitions

* `Date`, `Date.Valid` — a year, a month and a day, and when they name a day.
* `Date.toOrdinal`, `Date.ofOrdinal` — a date and its ordinal.
* `Date.Precedes` — the order of the dates.

## Main results

* `Date.toOrdinal_ofOrdinal`, `Date.valid_ofOrdinal` — every ordinal is that of a
  valid date.
* `Date.toOrdinal_lt` — an earlier date has a smaller ordinal.
* `Date.ofOrdinal_toOrdinal` — every valid date is that of its ordinal.
-/

namespace Foundation

/-- A year, a month and a day of the month. -/
structure Date where
  year : ℕ
  month : ℕ
  day : ℕ
deriving DecidableEq, Repr

/-- A leap year has a February 29. -/
def isLeap (year : ℕ) : Bool :=
  year % 4 = 0 && (year % 100 ≠ 0 || year % 400 = 0)

/-- The length of a month, counted from 1. -/
def daysInMonth (leap : Bool) : ℕ → ℕ
  | 2 => if leap then 29 else 28
  | 4 | 6 | 9 | 11 => 30
  | _ => 31

/-- The days of the months before the given one. -/
def daysBeforeMonth (leap : Bool) : ℕ → ℕ
  | 0 => 0
  | 1 => 0
  | m + 1 => daysBeforeMonth leap m + daysInMonth leap m

/-- The days of the years before the given one. -/
def daysBeforeYear (year : ℕ) : ℕ :=
  (year - 1) * 365 + (year - 1) / 4 - (year - 1) / 100 + (year - 1) / 400

/-- The last ordinal, that of December 31 of year 9999. -/
def maxOrdinal : ℕ := 3652059

namespace Date

/-- The date names a day of the years 1 to 9999. -/
def Valid (d : Date) : Prop :=
  1 ≤ d.year ∧ d.year ≤ 9999 ∧ 1 ≤ d.month ∧ d.month ≤ 12 ∧ 1 ≤ d.day ∧
    d.day ≤ daysInMonth (isLeap d.year) d.month

instance (d : Date) : Decidable d.Valid := by
  unfold Valid
  infer_instance

/-- The ordinal of a date. -/
def toOrdinal (d : Date) : ℕ :=
  daysBeforeYear d.year + daysBeforeMonth (isLeap d.year) d.month + d.day

/-- The month and the day of the month of a day of the year, counted from 0. -/
def monthAndDay (leap : Bool) (dayOfYear : ℕ) : ℕ × ℕ :=
  let month := ((List.range 12).filter fun m => daysBeforeMonth leap (m + 1) ≤ dayOfYear).length
  (month, dayOfYear - daysBeforeMonth leap month + 1)

/-- The year and the day of the year, counted from 0, of an ordinal. -/
def yearAndDay (ordinal : ℕ) : ℕ × ℕ :=
  let n := ordinal - 1
  let n400 := n / 146097
  let n := n % 146097
  let n100 := n / 36524
  let n := n % 36524
  let n4 := n / 1461
  let n := n % 1461
  let n1 := n / 365
  let n := n % 365
  let year := n400 * 400 + n100 * 100 + n4 * 4 + n1 + 1
  -- the last day of a 400-year or of a 4-year cycle starts no new year
  if n1 = 4 ∨ n100 = 4 then (year - 1, 365) else (year, n)

/-- The date of an ordinal. -/
def ofOrdinal (ordinal : ℕ) : Date :=
  let yearDay := yearAndDay ordinal
  let monthDay := monthAndDay (isLeap yearDay.1) yearDay.2
  ⟨yearDay.1, monthDay.1, monthDay.2⟩

/-! ### Days of a year -/

/-- The number of days of a year. -/
def yearLength (leap : Bool) : ℕ := if leap then 366 else 365

theorem monthAndDay_spec (leap : Bool) :
    ∀ n < yearLength leap, 1 ≤ (monthAndDay leap n).1 ∧ (monthAndDay leap n).1 ≤ 12 ∧
      1 ≤ (monthAndDay leap n).2 ∧
      (monthAndDay leap n).2 ≤ daysInMonth leap (monthAndDay leap n).1 ∧
      daysBeforeMonth leap (monthAndDay leap n).1 + (monthAndDay leap n).2 = n + 1 := by
  cases leap <;> decide +kernel

/-! ### Years of an ordinal -/

theorem isLeap_iff (year : ℕ) :
    isLeap year = true ↔ year % 4 = 0 ∧ (year % 100 ≠ 0 ∨ year % 400 = 0) := by
  simp [isLeap]

/-- The year is in range, and its days before it and its day of the year add up
to the ordinal. -/
theorem yearAndDay_spec {ordinal : ℕ} (h1 : 1 ≤ ordinal) (h2 : ordinal ≤ maxOrdinal) :
    1 ≤ (yearAndDay ordinal).1 ∧ (yearAndDay ordinal).1 ≤ 9999 ∧
      (yearAndDay ordinal).2 < yearLength (isLeap (yearAndDay ordinal).1) ∧
      daysBeforeYear (yearAndDay ordinal).1 + (yearAndDay ordinal).2 + 1 = ordinal := by
  unfold maxOrdinal at h2
  simp only [yearAndDay, daysBeforeYear, yearLength, isLeap_iff]
  generalize ha : (ordinal - 1) / 146097 = a
  generalize hr : (ordinal - 1) % 146097 = r
  generalize hb : r / 36524 = b
  generalize hr1 : r % 36524 = r1
  generalize hc : r1 / 1461 = c
  generalize hr2 : r1 % 1461 = r2
  generalize hd : r2 / 365 = d
  generalize hr3 : r2 % 365 = r3
  split
  · rename_i hlast
    dsimp only
    have hquarter : (a * 400 + b * 100 + c * 4 + d + 1 - 1 - 1) / 4 =
        if b = 4 then a * 100 + 99 else a * 100 + b * 25 + c := by split <;> omega
    have hcentury : (a * 400 + b * 100 + c * 4 + d + 1 - 1 - 1) / 100 =
        if b = 4 then a * 4 + 3 else a * 4 + b := by split <;> omega
    have hcycle : (a * 400 + b * 100 + c * 4 + d + 1 - 1 - 1) / 400 = a := by omega
    rw [hquarter, hcentury, hcycle]
    refine ⟨by omega, by omega, ?_, by split <;> omega⟩
    rw [if_pos (by omega)]
    omega
  · rename_i hnot
    dsimp only
    have hquarter : (a * 400 + b * 100 + c * 4 + d + 1 - 1) / 4 = a * 100 + b * 25 + c := by omega
    have hcentury : (a * 400 + b * 100 + c * 4 + d + 1 - 1) / 100 = a * 4 + b := by omega
    have hcycle : (a * 400 + b * 100 + c * 4 + d + 1 - 1) / 400 = a := by omega
    rw [hquarter, hcentury, hcycle]
    refine ⟨by omega, by omega, ?_, by omega⟩
    split <;> omega

/-! ### The round trip -/

theorem valid_ofOrdinal {ordinal : ℕ} (h1 : 1 ≤ ordinal) (h2 : ordinal ≤ maxOrdinal) :
    (ofOrdinal ordinal).Valid := by
  obtain ⟨hy1, hy2, hday, -⟩ := yearAndDay_spec h1 h2
  obtain ⟨hm1, hm2, hd1, hd2, -⟩ := monthAndDay_spec _ _ hday
  exact ⟨hy1, hy2, hm1, hm2, hd1, hd2⟩

/-- **Every ordinal is that of its date.** -/
theorem toOrdinal_ofOrdinal {ordinal : ℕ} (h1 : 1 ≤ ordinal) (h2 : ordinal ≤ maxOrdinal) :
    (ofOrdinal ordinal).toOrdinal = ordinal := by
  obtain ⟨-, -, hday, hsum⟩ := yearAndDay_spec h1 h2
  obtain ⟨-, -, -, -, hmonth⟩ := monthAndDay_spec _ _ hday
  simp only [toOrdinal, ofOrdinal]
  omega

/-! ### The order of the dates -/

/-- The date stands before the other one in the calendar. -/
def Precedes (d d' : Date) : Prop :=
  d.year < d'.year ∨
    d.year = d'.year ∧ (d.month < d'.month ∨ d.month = d'.month ∧ d.day < d'.day)

theorem precedes_trichotomy (d d' : Date) : d.Precedes d' ∨ d = d' ∨ d'.Precedes d := by
  obtain ⟨year, month, day⟩ := d
  obtain ⟨year', month', day'⟩ := d'
  simp only [Precedes, mk.injEq]
  omega

theorem daysBeforeMonth_succ (leap : Bool) {m : ℕ} (hm : 1 ≤ m) :
    daysBeforeMonth leap (m + 1) = daysBeforeMonth leap m + daysInMonth leap m := by
  cases m with
  | zero => exact absurd hm (by decide)
  | succ m => rfl

/-- A month ends before a later one begins. -/
theorem daysBeforeMonth_add_le (leap : Bool) {m m' : ℕ} (hm : 1 ≤ m) (h : m < m') :
    daysBeforeMonth leap m + daysInMonth leap m ≤ daysBeforeMonth leap m' := by
  induction m', h using Nat.le_induction with
  | base => exact (daysBeforeMonth_succ leap hm).ge
  | succ m' hle ih =>
    rw [daysBeforeMonth_succ leap (by omega)]
    omega

theorem daysBeforeMonth_yearEnd (leap : Bool) : daysBeforeMonth leap 13 = yearLength leap := by
  cases leap <;> decide

theorem daysBeforeYear_succ {year : ℕ} (hyear : 1 ≤ year) :
    daysBeforeYear (year + 1) = daysBeforeYear year + yearLength (isLeap year) := by
  obtain ⟨n, rfl⟩ := Nat.exists_eq_add_of_le' hyear
  have hcentury : n / 100 ≤ n / 4 := Nat.div_le_div_left (by decide) (by decide)
  -- a quotient grows when the year is a multiple of its cycle
  simp only [daysBeforeYear, yearLength, isLeap_iff, Nat.add_sub_cancel, Nat.succ_div,
    Nat.dvd_iff_mod_eq_zero]
  have h100 : (n + 1) % 100 = 0 → (n + 1) % 4 = 0 := by omega
  have h400 : (n + 1) % 400 = 0 → (n + 1) % 100 = 0 := by omega
  generalize n / 4 = a at *
  generalize n / 100 = b at *
  generalize n / 400 = c at *
  by_cases h4 : (n + 1) % 4 = 0
  · by_cases hb : (n + 1) % 100 = 0
    · by_cases hc : (n + 1) % 400 = 0
      · simp only [h4, hb, hc, if_true, ne_eq, not_true_eq_false, or_true, and_true]
        omega
      · simp only [h4, hb, hc, if_true, if_false, ne_eq, not_true_eq_false, or_false, and_false]
        omega
    · have hc : ¬(n + 1) % 400 = 0 := fun h => hb (h400 h)
      simp only [h4, hb, hc, if_true, if_false, ne_eq, not_false_eq_true, true_or, and_true]
      omega
  · have hb : ¬(n + 1) % 100 = 0 := fun h => h4 (h100 h)
    have hc : ¬(n + 1) % 400 = 0 := fun h => hb (h400 h)
    simp only [h4, hb, hc, if_false, false_and]
    omega

/-- A year ends before a later one begins. -/
theorem daysBeforeYear_add_le {year year' : ℕ} (hyear : 1 ≤ year) (h : year < year') :
    daysBeforeYear year + yearLength (isLeap year) ≤ daysBeforeYear year' := by
  induction year', h using Nat.le_induction with
  | base => exact (daysBeforeYear_succ hyear).ge
  | succ year' hle ih =>
    rw [daysBeforeYear_succ (by omega)]
    omega

/-- The day of the year is one of the year. -/
theorem Valid.dayOfYear_le {d : Date} (h : d.Valid) :
    daysBeforeMonth (isLeap d.year) d.month + d.day ≤ yearLength (isLeap d.year) := by
  obtain ⟨-, -, hm1, hm2, -, hday⟩ := h
  have hmonth := daysBeforeMonth_add_le (isLeap d.year) hm1 (by omega : d.month < 13)
  rw [daysBeforeMonth_yearEnd] at hmonth
  omega

/-- **An earlier date has a smaller ordinal.** -/
theorem toOrdinal_lt {d d' : Date} (h : d.Valid) (h' : d'.Valid) (hlt : d.Precedes d') :
    d.toOrdinal < d'.toOrdinal := by
  have hday := h.dayOfYear_le
  obtain ⟨hy1, -, hm1, -, -, hd⟩ := h
  obtain ⟨-, -, -, -, hd1', -⟩ := h'
  unfold toOrdinal
  rcases hlt with hyear | ⟨hyear, hlt⟩
  · have hyears := daysBeforeYear_add_le hy1 hyear
    omega
  · rw [← hyear]
    rcases hlt with hmonth | ⟨hmonth, hlt⟩
    · have hmonths := daysBeforeMonth_add_le (isLeap d.year) hm1 hmonth
      omega
    · rw [← hmonth]
      omega

theorem eq_of_toOrdinal {d d' : Date} (h : d.Valid) (h' : d'.Valid)
    (heq : d.toOrdinal = d'.toOrdinal) : d = d' := by
  rcases precedes_trichotomy d d' with hlt | hsame | hlt
  · exact absurd heq (toOrdinal_lt h h' hlt).ne
  · exact hsame
  · exact absurd heq (toOrdinal_lt h' h hlt).ne'

/-- The ordinals of the valid dates. -/
theorem Valid.toOrdinal_mem {d : Date} (h : d.Valid) :
    1 ≤ d.toOrdinal ∧ d.toOrdinal ≤ maxOrdinal := by
  have hday := h.dayOfYear_le
  obtain ⟨hy1, hy2, -, -, hd1, -⟩ := h
  have hyears := daysBeforeYear_add_le hy1 (by omega : d.year < 10000)
  have hlast : daysBeforeYear 10000 = maxOrdinal := by decide
  unfold toOrdinal
  omega

/-- **Every valid date is that of its ordinal.** -/
theorem ofOrdinal_toOrdinal {d : Date} (h : d.Valid) : ofOrdinal d.toOrdinal = d := by
  obtain ⟨h1, h2⟩ := h.toOrdinal_mem
  exact eq_of_toOrdinal (valid_ofOrdinal h1 h2) h (toOrdinal_ofOrdinal h1 h2)

end Date

end Foundation
