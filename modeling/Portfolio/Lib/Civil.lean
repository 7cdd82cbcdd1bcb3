import Mathlib.Tactic.IntervalCases
import Mathlib.Tactic.SplitIfs

/-!
# Calendar dates

The Gregorian calendar in both directions, with days counted from 1970-01-01. Years start in March
here, so that a leap day is the last day of its year, of its four years and of its four centuries.
-/

namespace Portfolio

def IsLeap (year : Int) : Prop := year % 4 = 0 ∧ (year % 100 ≠ 0 ∨ year % 400 = 0)

instance (year : Int) : Decidable (IsLeap year) := inferInstanceAs (Decidable (_ ∧ _))

def daysInMonth (year month : Int) : Int :=
  if month = 2 then if IsLeap year then 29 else 28
  else if month = 4 ∨ month = 6 ∨ month = 9 ∨ month = 11 then 30
  else 31

structure ValidDate (year month day : Int) : Prop where
  month_pos : 1 ≤ month
  month_le : month ≤ 12
  day_pos : 1 ≤ day
  day_le : day ≤ daysInMonth year month

structure CivilDate where
  year : Int
  month : Int
  day : Int
  valid : ValidDate year month day
  deriving DecidableEq, Repr

/-! ### Days from dates -/

/-- The days of the year before the month, `month` counted from March. -/
def daysBeforeMonth (month : Int) : Int := (153 * month + 2) / 5

/-- The days before the year that starts in March of `year`. -/
def daysBeforeYear (year : Int) : Int := 365 * year + year / 4 - year / 100 + year / 400

/-- The number of a day; `day` need not be a day of the month. -/
def makeDay (year month day : Int) : Int :=
  if month ≤ 2 then daysBeforeYear (year - 1) + daysBeforeMonth (month + 9) + day - 719469
  else daysBeforeYear year + daysBeforeMonth (month - 3) + day - 719469

def CivilDate.toDays (date : CivilDate) : Int := makeDay date.year date.month date.day

theorem makeDay_add (year month day n : Int) : makeDay year month (day + n) = makeDay year month day + n := by
  rw [makeDay, makeDay]
  split <;> omega

/-! ### Dates from days -/

/-- The year that a day belongs to, and the days of the year before it. -/
def yearOfDay (days : Int) : Int × Int :=
  let era := (days + 719468) / 146097
  let dayOfEra := (days + 719468) % 146097
  let century := min (dayOfEra / 36524) 3
  let dayOfCentury := dayOfEra - 36524 * century
  let cycle := dayOfCentury / 1461
  let dayOfCycle := dayOfCentury % 1461
  let year := min (dayOfCycle / 365) 3
  (400 * era + 100 * century + 4 * cycle + year, dayOfCycle - 365 * year)

/-- The month, counted from March, of a day of the year. -/
def monthOfDay (dayOfYear : Int) : Int := (5 * dayOfYear + 2) / 153

/-- A year has 365 days, and one more if it ends with a leap day. -/
structure DayOfYear (days year dayOfYear : Int) : Prop where
  split : days = daysBeforeYear year + dayOfYear - 719468
  nonneg : 0 ≤ dayOfYear
  le : dayOfYear ≤ 365
  leap : dayOfYear = 365 → IsLeap (year + 1)

theorem dayOfYear_yearOfDay (days : Int) : DayOfYear days (yearOfDay days).1 (yearOfDay days).2 := by
  simp only [yearOfDay]
  generalize hera : (days + 719468) / 146097 = era
  generalize hdayOfEra : (days + 719468) % 146097 = dayOfEra
  generalize hcentury : min (dayOfEra / 36524) 3 = century
  generalize hdayOfCentury : dayOfEra - 36524 * century = dayOfCentury
  generalize hcycle : dayOfCentury / 1461 = cycle
  generalize hdayOfCycle : dayOfCentury % 1461 = dayOfCycle
  generalize hyear : min (dayOfCycle / 365) 3 = year
  have hcentury' : 0 ≤ century ∧ century ≤ 3 := by omega
  have hcycle' : 0 ≤ cycle ∧ cycle ≤ 24 := by omega
  have hyear' : 0 ≤ year ∧ year ≤ 3 := by omega
  refine ⟨?_, by omega, by omega, fun hlast => ?_⟩
  · have h4 : (400 * era + 100 * century + 4 * cycle + year) / 4 = 100 * era + 25 * century + cycle := by
      omega
    have h100 : (400 * era + 100 * century + 4 * cycle + year) / 100 = 4 * era + century := by omega
    have h400 : (400 * era + 100 * century + 4 * cycle + year) / 400 = era := by omega
    rw [daysBeforeYear, h4, h100, h400]
    omega
  · have hthree : year = 3 := by omega
    have hcentury3 : cycle = 24 → century = 3 := by omega
    refine ⟨by omega, ?_⟩
    by_cases hlast : cycle = 24
    · exact .inr (by omega)
    · exact .inl (by omega)

theorem DayOfYear.unique {days year year' dayOfYear dayOfYear' : Int} (h : DayOfYear days year dayOfYear)
    (h' : DayOfYear days year' dayOfYear') : year = year' ∧ dayOfYear = dayOfYear' := by
  have hlt : ∀ {year year' dayOfYear dayOfYear' : Int}, DayOfYear days year dayOfYear →
      DayOfYear days year' dayOfYear' → ¬ year < year' := by
    rintro year year' dayOfYear dayOfYear' ⟨hsplit, -, hle, hleap⟩ ⟨hsplit', hnonneg', -, -⟩ hlt
    rw [daysBeforeYear] at hsplit hsplit'
    obtain rfl : year' = year + 1 := by omega
    have hlast : dayOfYear = 365 := by omega
    obtain ⟨hfour, hcentury⟩ := hleap hlast
    omega
  obtain rfl : year = year' := Int.le_antisymm (Int.not_lt.1 (hlt h' h)) (Int.not_lt.1 (hlt h h'))
  have hsplit := h.split
  have hsplit' := h'.split
  exact ⟨rfl, by omega⟩

/-- The month of a year that starts in March, in a year of the calendar. -/
def fromMarch (year month : Int) : Int × Int :=
  if month < 10 then (year, month + 3) else (year + 1, month - 9)

theorem validDate_fromMarch {days year dayOfYear : Int} (h : DayOfYear days year dayOfYear) :
    ValidDate (fromMarch year (monthOfDay dayOfYear)).1 (fromMarch year (monthOfDay dayOfYear)).2
      (dayOfYear - daysBeforeMonth (monthOfDay dayOfYear) + 1) := by
  obtain ⟨-, hnonneg, hle, hleap⟩ := h
  have hmonth : 0 ≤ monthOfDay dayOfYear ∧ monthOfDay dayOfYear ≤ 11 := by
    rw [monthOfDay]
    omega
  have hday : daysBeforeMonth (monthOfDay dayOfYear) ≤ dayOfYear ∧
      dayOfYear < daysBeforeMonth (monthOfDay dayOfYear + 1) := by
    rw [daysBeforeMonth, daysBeforeMonth, monthOfDay]
    omega
  generalize monthOfDay dayOfYear = month at hmonth hday
  rw [daysBeforeMonth, daysBeforeMonth] at hday
  rw [fromMarch, daysBeforeMonth]
  split
  · refine ⟨by omega, by omega, by omega, ?_⟩
    simp only [daysInMonth]
    split_ifs <;> omega
  · refine ⟨by omega, by omega, by omega, ?_⟩
    simp only [daysInMonth]
    split_ifs with hfeb hleap'
    · omega
    · have hlast : dayOfYear ≠ 365 := fun hlast => hleap' (hleap hlast)
      omega
    · omega
    · omega

/-- The date of a day. -/
def ofDays (days : Int) : CivilDate where
  year := (fromMarch (yearOfDay days).1 (monthOfDay (yearOfDay days).2)).1
  month := (fromMarch (yearOfDay days).1 (monthOfDay (yearOfDay days).2)).2
  day := (yearOfDay days).2 - daysBeforeMonth (monthOfDay (yearOfDay days).2) + 1
  valid := validDate_fromMarch (dayOfYear_yearOfDay days)

@[simp] theorem toDays_ofDays (days : Int) : (ofDays days).toDays = days := by
  obtain ⟨hsplit, hnonneg, hle, -⟩ := dayOfYear_yearOfDay days
  have hmonth : 0 ≤ monthOfDay (yearOfDay days).2 ∧ monthOfDay (yearOfDay days).2 ≤ 11 := by
    rw [monthOfDay]
    omega
  simp only [CivilDate.toDays, ofDays]
  generalize yearOfDay days = year at hsplit hmonth
  generalize monthOfDay year.2 = month at hmonth
  rw [fromMarch]
  split
  · have hmarch : ¬ month + 3 ≤ 2 := by omega
    simp only [makeDay, if_neg hmarch, Int.add_sub_cancel]
    omega
  · have hjanuary : month - 9 ≤ 2 := by omega
    simp only [makeDay, if_pos hjanuary, Int.add_sub_cancel, Int.sub_add_cancel]
    omega

/-- The year and the month of a date, counted from March. -/
def toMarch (year month : Int) : Int × Int :=
  if month ≤ 2 then (year - 1, month + 9) else (year, month - 3)

theorem fromMarch_toMarch (year : Int) {month : Int} (hpos : 1 ≤ month) (hle : month ≤ 12) :
    fromMarch (toMarch year month).1 (toMarch year month).2 = (year, month) := by
  rw [toMarch, fromMarch]
  split
  · have hnot : ¬ month + 9 < 10 := by omega
    rw [if_neg hnot, Int.sub_add_cancel, Int.add_sub_cancel]
  · have hlt : month - 3 < 10 := by omega
    rw [if_pos hlt, Int.sub_add_cancel]

/-- The day of a date in the year that starts in March. -/
def CivilDate.dayOfYear (date : CivilDate) : Int :=
  daysBeforeMonth (toMarch date.year date.month).2 + date.day - 1

/-- From March on the lengths of the months follow one formula. -/
theorem daysInMonth_le (year : Int) {month : Int} (hpos : 1 ≤ month) (hle : month ≤ 12) :
    daysBeforeMonth (toMarch year month).2 + daysInMonth year month ≤
      daysBeforeMonth ((toMarch year month).2 + 1) := by
  simp only [daysInMonth]
  interval_cases month <;> simp [toMarch, daysBeforeMonth]
  -- February
  split_ifs <;> decide

theorem CivilDate.monthOfDay_dayOfYear (date : CivilDate) :
    monthOfDay date.dayOfYear = (toMarch date.year date.month).2 := by
  obtain ⟨hpos, hle, hday, hlast⟩ := date.valid
  have hlen := daysInMonth_le date.year hpos hle
  rw [CivilDate.dayOfYear, monthOfDay]
  generalize (toMarch date.year date.month).2 = month at hlen ⊢
  rw [daysBeforeMonth, daysBeforeMonth] at hlen
  rw [daysBeforeMonth]
  omega

theorem CivilDate.dayOfYear_toDays (date : CivilDate) :
    DayOfYear date.toDays (toMarch date.year date.month).1 date.dayOfYear := by
  obtain ⟨hpos, hle, hday, hlast⟩ := date.valid
  have hlen := daysInMonth_le date.year hpos hle
  rw [CivilDate.dayOfYear, CivilDate.toDays, makeDay]
  by_cases hjanuary : date.month ≤ 2
  · have hmarch : toMarch date.year date.month = (date.year - 1, date.month + 9) := if_pos hjanuary
    rw [hmarch] at hlen ⊢
    rw [if_pos hjanuary]
    simp only [daysBeforeMonth, daysInMonth] at hlen hlast ⊢
    refine ⟨by omega, by omega, ?_, fun hleap => ?_⟩
    · split_ifs at hlast <;> omega
    · rw [Int.sub_add_cancel]
      split_ifs at hlast with hfeb hyear
      · exact hyear
      · omega
      · omega
      · omega
  · have hmarch : toMarch date.year date.month = (date.year, date.month - 3) := if_neg hjanuary
    rw [hmarch] at hlen ⊢
    rw [if_neg hjanuary]
    simp only [daysBeforeMonth] at hlen ⊢
    exact ⟨by omega, by omega, by omega, by omega⟩

theorem ofDays_toDays (date : CivilDate) : ofDays date.toDays = date := by
  obtain ⟨hyear, hday⟩ := (dayOfYear_yearOfDay date.toDays).unique date.dayOfYear_toDays
  have hmonth := date.monthOfDay_dayOfYear
  have hmarch := fromMarch_toMarch date.year date.valid.month_pos date.valid.month_le
  have hfirst : date.dayOfYear - daysBeforeMonth (toMarch date.year date.month).2 + 1 = date.day := by
    rw [CivilDate.dayOfYear]
    omega
  obtain ⟨year, month, day, valid⟩ := date
  simp only [ofDays, hyear, hday, hmonth, hmarch, hfirst]

end Portfolio
