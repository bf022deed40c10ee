import Mathlib

/-!
# Days and months of the civil calendar

Days are counted from 1970-01-01, months from January of year 0, so a month's
number carries its year. The proleptic Gregorian rule is written out for the
first day of a month; the month of a day is found from its average length and
corrected by at most one.
-/

namespace Calendar

/-- The leap days before a year. -/
def leapDays (year : Int) : Int := year / 4 - year / 100 + year / 400

/-- The first day of a month. Years begin in March, so that the leap day comes last. -/
def monthStart (month : Int) : Int :=
  let year := (month - 2) / 12
  let ofYear := (month - 2) % 12
  365 * year + leapDays year + (153 * ofYear + 2) / 5 - 719468

/-- A month that is right or one too late. -/
def monthGuess (day : Int) : Int := ((day + 719468) * 4800 + 9600) / 146097 + 2

/-- The month a day lies in. -/
def monthOf (day : Int) : Int :=
  if day < monthStart (monthGuess day) then monthGuess day - 1 else monthGuess day

/-- Four hundred years have 97 leap days. -/
theorem leapDays_near (year : Int) :
    97 * year - 591 ≤ 400 * leapDays year ∧ 400 * leapDays year ≤ 97 * year + 288 := by
  have hcentury : year / 100 = year / 4 / 25 := by omega
  have hcycle : year / 400 = year / 4 / 25 / 4 := by omega
  simp only [leapDays, hcentury, hcycle]
  omega

theorem leapDays_succ (year : Int) : leapDays year ≤ leapDays (year + 1) := by
  have hcentury : year / 100 = year / 4 / 25 := by omega
  have hcentury' : (year + 1) / 100 = (year + 1) / 4 / 25 := by omega
  have hcycle : year / 400 = year / 4 / 25 / 4 := by omega
  have hcycle' : (year + 1) / 400 = (year + 1) / 4 / 25 / 4 := by omega
  simp only [leapDays, hcentury, hcentury', hcycle, hcycle']
  omega

/-- Four hundred years have 146097 days; a month strays from its average place by
less than three. -/
theorem monthStart_near (month : Int) :
    146097 * (month - 2) - 7092 ≤ 4800 * (monthStart month + 719468) ∧
      4800 * (monthStart month + 719468) ≤ 146097 * (month - 2) + 13989 := by
  simp only [monthStart]
  have hmonth := Int.mul_ediv_add_emod (month - 2) 12
  have hlow := Int.emod_nonneg (month - 2) (show (12 : Int) ≠ 0 by decide)
  have hhigh := Int.emod_lt_of_pos (month - 2) (show (0 : Int) < 12 by decide)
  have hleap := leapDays_near ((month - 2) / 12)
  generalize (month - 2) % 12 = ofYear at *
  generalize (month - 2) / 12 = year at *
  rw [← hmonth]
  interval_cases ofYear <;> omega

theorem monthStart_succ (month : Int) :
    monthStart month + 28 ≤ monthStart (month + 1) := by
  have hlow := Int.emod_nonneg (month - 2) (show (12 : Int) ≠ 0 by decide)
  have hhigh := Int.emod_lt_of_pos (month - 2) (show (0 : Int) < 12 by decide)
  simp only [monthStart]
  by_cases hlast : (month - 2) % 12 = 11
  · have hyear : (month + 1 - 2) / 12 = (month - 2) / 12 + 1 := by omega
    have hfirst : (month + 1 - 2) % 12 = 0 := by omega
    have hleap := leapDays_succ ((month - 2) / 12)
    rw [hyear, hfirst, hlast]
    omega
  · have hyear : (month + 1 - 2) / 12 = (month - 2) / 12 := by omega
    have hnext : (month + 1 - 2) % 12 = (month - 2) % 12 + 1 := by omega
    rw [hyear, hnext]
    generalize (month - 2) % 12 = ofYear at *
    interval_cases ofYear <;> omega

theorem monthStart_strictMono : StrictMono monthStart := by
  refine strictMono_int_of_lt_succ fun month => ?_
  have := monthStart_succ month
  omega

/-- The days of a month, counted from January as 1. -/
def monthLength (year : Int) (month : Nat) : Nat :=
  if month = 2 then
    if year % 4 = 0 ∧ (year % 100 ≠ 0 ∨ year % 400 = 0) then 29 else 28
  else if month = 4 ∨ month = 6 ∨ month = 9 ∨ month = 11 then 30
  else 31

theorem leapDays_next (year : Int) :
    leapDays year = leapDays (year - 1) +
      if year % 4 = 0 ∧ (year % 100 ≠ 0 ∨ year % 400 = 0) then 1 else 0 := by
  have hcentury : year / 100 = year / 4 / 25 := by omega
  have hcentury' : (year - 1) / 100 = (year - 1) / 4 / 25 := by omega
  have hcycle : year / 400 = year / 4 / 25 / 4 := by omega
  have hcycle' : (year - 1) / 400 = (year - 1) / 4 / 25 / 4 := by omega
  simp only [leapDays, hcentury, hcentury', hcycle, hcycle']
  split_ifs with hleap
  · omega
  · omega

/-- A month ends where the next one begins. -/
theorem monthStart_next (year : Int) {month : Nat} (hmonth : 1 ≤ month ∧ month ≤ 12) :
    monthStart (12 * year + month) =
      monthStart (12 * year + month - 1) + monthLength year month := by
  have hleap := leapDays_next year
  obtain ⟨hlow, hhigh⟩ := hmonth
  by_cases hfebruary : month = 2
  · subst hfebruary
    have hthis : (12 * year + (2 : Nat) - 1 - 2) / 12 = year - 1 := by omega
    have hnext : (12 * year + (2 : Nat) - 2) / 12 = year := by omega
    simp only [monthStart, monthLength, if_true, hthis, hnext, hleap]
    split_ifs
    · omega
    · omega
  · have hyear : (12 * year + month - 1 - 2) / 12 = (12 * year + month - 2) / 12 := by omega
    simp only [monthStart, monthLength, hyear, if_neg hfebruary]
    generalize leapDays ((12 * year + month - 2) / 12) = days
    interval_cases month
    all_goals
      norm_num
      omega

/-- The days of a year. -/
def yearLength (year : Int) : Nat := ∑ month ∈ Finset.Ico 1 13, monthLength year month

/-- The days from 1970-01-01 to a date, year by year and month by month. -/
def daysCounted (year month day : Nat) : Int :=
  (∑ y ∈ Finset.range year, (yearLength y : Int)) -
    (∑ y ∈ Finset.range 1970, (yearLength y : Int)) +
    (∑ m ∈ Finset.Ico 1 month, (monthLength year m : Int)) + (day - 1)

/-- A month begins behind the months before it. -/
theorem monthStart_sum (year : Int) {month : Nat} (hlow : 1 ≤ month) (hhigh : month ≤ 13) :
    monthStart (12 * year + month - 1) =
      monthStart (12 * year) + ∑ m ∈ Finset.Ico 1 month, (monthLength year m : Int) := by
  induction month, hlow using Nat.le_induction with
  | base => simp
  | succ month hlow ih =>
    have hnext := monthStart_next year (show 1 ≤ month ∧ month ≤ 12 by omega)
    rw [Finset.sum_Ico_succ_top hlow, ← add_assoc, ← ih (by omega), ← hnext]
    congr 1
    omega

theorem monthStart_year (year : Int) :
    monthStart (12 * (year + 1)) = monthStart (12 * year) + yearLength year := by
  have hlast := monthStart_sum year (show 1 ≤ 13 by decide) (le_refl 13)
  rw [yearLength, Nat.cast_sum, ← hlast]
  congr 1
  omega

/-- A year begins behind the years before it. -/
theorem monthStart_years (year : Nat) :
    monthStart (12 * year) = monthStart 0 + ∑ y ∈ Finset.range year, (yearLength y : Int) := by
  induction year with
  | zero => simp
  | succ year ih =>
    rw [Finset.sum_range_succ, ← add_assoc, ← ih, Nat.cast_succ, monthStart_year]

/-- The closed form counts the days. -/
theorem monthStart_counted (year : Nat) {month : Nat} (hmonth : 1 ≤ month ∧ month ≤ 12)
    (day : Nat) :
    monthStart (12 * year + month - 1) + (day - 1) = daysCounted year month day := by
  have hepoch := monthStart_years 1970
  have hzero : monthStart (12 * (1970 : Nat)) = 0 := by decide
  have hyear := monthStart_years year
  have hsum := monthStart_sum year hmonth.1 (by omega)
  rw [hzero] at hepoch
  rw [daysCounted, hsum, hyear]
  omega

/-- A day lies in its month. -/
theorem monthOf_spec (day : Int) :
    monthStart (monthOf day) ≤ day ∧ day < monthStart (monthOf day + 1) := by
  have hguess : 146097 * (monthGuess day - 2) ≤ (day + 719468) * 4800 + 9600 ∧
      (day + 719468) * 4800 + 9600 < 146097 * (monthGuess day - 1) := by
    simp only [monthGuess]
    omega
  have hhere := monthStart_near (monthGuess day)
  have hbefore := monthStart_near (monthGuess day - 1)
  have hafter := monthStart_near (monthGuess day + 1)
  by_cases h : day < monthStart (monthGuess day)
  · simp only [monthOf, if_pos h, Int.sub_add_cancel]
    constructor
    · omega
    · exact h
  · simp only [monthOf, if_neg h]
    constructor
    · omega
    · omega

/-- A month has begun by a day when it is no later than the day's own. -/
theorem monthStart_le_iff (month day : Int) : monthStart month ≤ day ↔ month ≤ monthOf day := by
  obtain ⟨hlow, hhigh⟩ := monthOf_spec day
  constructor
  · intro h
    have hlt : month < monthOf day + 1 := monthStart_strictMono.lt_iff_lt.mp (by omega)
    omega
  · intro h
    exact (monthStart_strictMono.monotone h).trans hlow

example : monthStart (12 * 1970) = 0 ∧ monthOf 20527 = 12 * 2026 + 2 := by decide

end Calendar
