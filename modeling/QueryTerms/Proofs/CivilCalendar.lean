import QueryTerms.Calendar
import Mathlib.Tactic.IntervalCases

/-! The days of the calendar in a row. A numbering of the days gives the first of January 1970 the number zero and the
day after a day the next number. There is one such numbering of the days that exist, and `ofDays` undoes it.

A day is written for this in years that begin in March, `MarchDay`: the number of such a day is a sum of what comes
before its year, before its month and before itself, and two days of one number are the same. -/

namespace QueryTerms

namespace CivilDate

/-- Whether there is such a day, in a year of any number. -/
def IsDay (date : CivilDate) : Prop :=
  1 ≤ date.month ∧ date.month ≤ 12 ∧ 1 ≤ date.day ∧ date.day ≤ daysInMonth date.year date.month

/-- The day after. -/
def next (date : CivilDate) : CivilDate :=
  if date.day < daysInMonth date.year date.month then ⟨date.year, date.month, date.day + 1⟩
  else if date.month < 12 then ⟨date.year, date.month + 1, 1⟩
  else ⟨date.year + 1, 1, 1⟩

/-- Numbers for the days that exist, one after the other. -/
structure Numbering (number : CivilDate → Int) : Prop where
  first : number ⟨1970, 1, 1⟩ = 0
  next : ∀ date, date.IsDay → number date.next = number date + 1

/-- The days before a year that begins in March, from the year zero on. -/
def yearStart (year : Int) : Int :=
  365 * year + year / 4 - year / 100 + year / 400

/-- The days before a month in a year that begins in March. -/
def monthStart (month : Int) : Int :=
  (153 * month + 2) / 5

/-- The days of a month in a year that begins in March: as far as to the next month, or to the next year. -/
def monthLength (year month : Int) : Int :=
  (if month < 11 then monthStart (month + 1) else yearStart (year + 1) - yearStart year) - monthStart month

def yearOfEra (dayOfEra : Int) : Int :=
  (dayOfEra - dayOfEra / 1460 + dayOfEra / 36524 - dayOfEra / 146096) / 365

theorem isLeapYear_iff (year : Int) : isLeapYear year = true ↔ year % 4 = 0 ∧ (year % 100 ≠ 0 ∨ year % 400 = 0) := by
  simp only [isLeapYear, Bool.and_eq_true, Bool.or_eq_true, beq_iff_eq, bne_iff_ne]

private theorem yearStart_succ (year : Int) :
    yearStart (year + 1) = yearStart year + (if isLeapYear (year + 1) then 366 else 365) := by
  simp only [isLeapYear_iff]
  unfold yearStart
  split <;> omega

private theorem yearStart_mono {year year' : Int} (earlier : year ≤ year') : yearStart year ≤ yearStart year' := by
  unfold yearStart
  omega

private theorem monthStart_mono {month month' : Int} (earlier : month ≤ month') :
    monthStart month ≤ monthStart month' := by
  unfold monthStart
  omega

/-- Within the years of an era, the days are divided as the years are: by centuries, and the last day apart. -/
private theorem yearOfEra_century {day : Int} (begun : 0 ≤ day) (notLast : day < 146096) :
    yearOfEra day / 100 = day / 36524 := by
  unfold yearOfEra
  omega

/-- The year of an era in which a day lies. The last day is taken apart: it would begin a fifth century. -/
private theorem yearOfEra_bounds {day : Int} (begun : 0 ≤ day) (inEra : day < 146097) :
    0 ≤ yearOfEra day ∧ yearOfEra day ≤ 399 ∧
      yearStart (yearOfEra day) ≤ day ∧ day < yearStart (yearOfEra day + 1) := by
  by_cases last : day = 146096
  · subst last
    decide
  have century := yearOfEra_century begun (by omega)
  have inYear : 365 * yearOfEra day ≤ day - day / 1460 + day / 36524 ∧
      day - day / 1460 + day / 36524 < 365 * yearOfEra day + 365 := by
    unfold yearOfEra
    omega
  generalize yearOfEra day = year at *
  have lower : year / 4 ≤ day / 1460 := by omega
  have upper : day / 1460 ≤ (year + 1) / 4 := by omega
  unfold yearStart
  refine ⟨by omega, by omega, by omega, ?_⟩
  by_cases ends : (year + 1) % 100 = 0
  · omega
  · have sameCentury : (year + 1) / 100 = year / 100 := by omega
    omega

private theorem yearStart_era (year era : Int) : yearStart (year + era * 400) = yearStart year + era * 146097 := by
  unfold yearStart
  omega

private theorem year_length (year : Int) : 365 ≤ yearStart (year + 1) - yearStart year ∧
    yearStart (year + 1) - yearStart year ≤ 366 := by
  rw [yearStart_succ]
  split <;> omega

private theorem daysInMonth_eq (year : Int) {month : Int} (inYear : 0 ≤ month ∧ month ≤ 11) :
    daysInMonth (if month < 10 then year else year + 1) (if month < 10 then month + 3 else month - 9) =
      monthLength year month := by
  obtain ⟨begun, ended⟩ := inYear
  by_cases last : month = 11
  · subst last
    have length := yearStart_succ year
    unfold daysInMonth monthLength monthStart
    cases leap : isLeapYear (year + 1) with
    | false => simp [leap] at length ⊢; omega
    | true => simp [leap] at length ⊢; omega
  · have early : month < 11 := by omega
    clear last ended
    interval_cases month <;> rfl

private theorem monthLength_pos (year : Int) {month : Int} (inYear : 0 ≤ month ∧ month ≤ 11) :
    0 < monthLength year month := by
  have length := year_length year
  unfold monthLength monthStart
  split <;> omega

private theorem monthStart_bounds {day : Int} (begun : 0 ≤ day) (inYear : day ≤ 365) :
    (0 ≤ (5 * day + 2) / 153 ∧ (5 * day + 2) / 153 ≤ 11) ∧
      monthStart ((5 * day + 2) / 153) ≤ day ∧ day < monthStart ((5 * day + 2) / 153 + 1) := by
  unfold monthStart
  omega

end CivilDate

open CivilDate

/-- A day in a year that begins in March. The months from March on and the days of a month count from zero. -/
@[ext]
structure MarchDay where
  year : Int
  month : Int
  day : Int
  inYear : 0 ≤ month ∧ month ≤ 11
  inMonth : 0 ≤ day ∧ day < monthLength year month

namespace MarchDay

def civil (m : MarchDay) : CivilDate where
  year := if m.month < 10 then m.year else m.year + 1
  month := if m.month < 10 then m.month + 3 else m.month - 9
  day := m.day + 1

/-- The days before the day, from the first of March of the year zero on. -/
def count (m : MarchDay) : Int :=
  yearStart m.year + monthStart m.month + m.day

private theorem daysInMonth_civil (m : MarchDay) :
    daysInMonth m.civil.year m.civil.month = monthLength m.year m.month :=
  daysInMonth_eq m.year m.inYear

theorem civil_isDay (m : MarchDay) : m.civil.IsDay := by
  have inYear := m.inYear
  have inMonth := m.inMonth
  unfold IsDay
  rw [daysInMonth_civil]
  simp only [civil]
  refine ⟨?_, ?_, by omega, by omega⟩
  · split <;> omega
  · split <;> omega

theorem yearStart_le_count (m : MarchDay) : yearStart m.year ≤ m.count := by
  have inYear := m.inYear
  have inMonth := m.inMonth
  unfold count monthStart
  omega

private theorem sum_lt_of_month_lt {m : MarchDay} {month : Int} (earlier : m.month < month) (inYear : month ≤ 11) :
    monthStart m.month + m.day < monthStart month := by
  have inMonth := m.inMonth
  have upTo : monthStart (m.month + 1) ≤ monthStart month := monthStart_mono (by omega)
  rw [monthLength, if_pos (by omega)] at inMonth
  omega

theorem count_lt_of_year_lt {m : MarchDay} {year : Int} (earlier : m.year < year) : m.count < yearStart year := by
  have inYear := m.inYear
  have inMonth := m.inMonth
  have length := year_length m.year
  have upTo : yearStart (m.year + 1) ≤ yearStart year := yearStart_mono (by omega)
  unfold count
  by_cases last : m.month < 11
  · have before : monthStart m.month + m.day < monthStart 11 := sum_lt_of_month_lt last (by decide)
    have short : monthStart 11 = 337 := rfl
    omega
  · rw [monthLength, if_neg last] at inMonth
    omega

private theorem year_le_of_count_le {m m' : MarchDay} (lessEqual : m.count ≤ m'.count) : m.year ≤ m'.year := by
  by_contra later
  have before := count_lt_of_year_lt (Int.not_le.mp later)
  have begun := yearStart_le_count m
  omega

private theorem month_le_of_sum_le {m m' : MarchDay}
    (lessEqual : monthStart m.month + m.day ≤ monthStart m'.month + m'.day) :
    m.month ≤ m'.month := by
  by_contra later
  have before := sum_lt_of_month_lt (Int.not_le.mp later) m.inYear.2
  have begun := m.inMonth.1
  omega

theorem eq_of_count {m m' : MarchDay} (same : m.count = m'.count) : m = m' := by
  have sameYear : m.year = m'.year :=
    Int.le_antisymm (year_le_of_count_le same.le) (year_le_of_count_le same.ge)
  have sameSum : monthStart m.month + m.day = monthStart m'.month + m'.day := by
    unfold count at same
    rw [sameYear] at same
    omega
  have sameMonth : m.month = m'.month :=
    Int.le_antisymm (month_le_of_sum_le sameSum.le) (month_le_of_sum_le sameSum.ge)
  rw [sameMonth] at sameSum
  exact MarchDay.ext sameYear sameMonth (by omega)

/-- The day of a year that so many days come before. -/
def ofDayOfYear (year day : Int) (begun : 0 ≤ day) (notOver : day < yearStart (year + 1) - yearStart year) :
    MarchDay :=
  have length := year_length year
  have bounds := monthStart_bounds begun (by omega)
  { year
    month := (5 * day + 2) / 153
    day := day - monthStart ((5 * day + 2) / 153)
    inYear := bounds.1
    inMonth := by
      unfold monthLength
      split <;> omega }

theorem exists_ofDays (days : Int) : ∃ m : MarchDay, m.civil = ofDays days ∧ m.count = days + 719468 := by
  let day := (days + 719468) % 146097
  let era := (days + 719468) / 146097
  let year := yearOfEra day
  obtain ⟨begun, inEra, started, notOver⟩ : 0 ≤ year ∧ year ≤ 399 ∧ yearStart year ≤ day ∧ day < yearStart (year + 1) :=
    yearOfEra_bounds (Int.emod_nonneg _ (by decide)) (Int.emod_lt_of_pos _ (by decide))
  have thisYear := yearStart_era year era
  have nextYear := yearStart_era (year + 1) era
  rw [Int.add_right_comm] at nextYear
  refine ⟨ofDayOfYear (year + era * 400) (day - yearStart year) (by omega) (by omega), ?_, ?_⟩
  · have firstEra : 365 * year + year / 4 - year / 100 = yearStart year := by
      unfold yearStart
      omega
    have unfolded : ofDays days =
        (let dayOfYear := day - (365 * year + year / 4 - year / 100)
          let month := (5 * dayOfYear + 2) / 153
          { year := if month < 10 then year + era * 400 else year + era * 400 + 1
            month := if month < 10 then month + 3 else month - 9
            day := dayOfYear - (153 * month + 2) / 5 + 1 }) := rfl
    rw [unfolded, firstEra]
    rfl
  · simp only [count, ofDayOfYear]
    omega

/-- The day after a day. At the end of a month, the year of the calendar changes after December and the year that begins
in March after its last month. -/
theorem exists_next (m : MarchDay) : ∃ m' : MarchDay, m'.civil = m.civil.next ∧ m'.count = m.count + 1 := by
  have inYear := m.inYear
  have inMonth := m.inMonth
  unfold next
  rw [daysInMonth_civil]
  by_cases within : m.day + 1 < monthLength m.year m.month
  · refine ⟨⟨m.year, m.month, m.day + 1, inYear, by omega, within⟩, ?_, ?_⟩
    · exact (if_pos within).symm
    · simp only [count]
      omega
  rw [if_neg (show ¬ m.civil.day < monthLength m.year m.month from within)]
  have ends : m.day + 1 = monthLength m.year m.month := by omega
  by_cases last : m.month < 11
  · refine ⟨⟨m.year, m.month + 1, 0, by omega, by decide, monthLength_pos _ (by omega)⟩, ?_, ?_⟩
    · simp only [civil]
      obtain early | december | january : m.month < 9 ∨ m.month = 9 ∨ m.month = 10 := by omega
      · simp [show m.month < 10 by omega, show m.month + 1 < 10 by omega, show m.month + 3 < 12 by omega,
          Int.add_right_comm]
      · simp [december]
      · simp [january]
    · rw [monthLength, if_pos last] at ends
      simp only [count]
      omega
  · have february : m.month = 11 := by omega
    refine ⟨⟨m.year + 1, 0, 0, by decide, by decide, monthLength_pos _ (by decide)⟩, ?_, ?_⟩
    · simp [civil, february]
    · have march : monthStart 0 = 0 := rfl
      rw [monthLength, if_neg last] at ends
      simp only [count, march]
      omega

theorem toDays_civil (m : MarchDay) : m.civil.toDays = m.count - 719468 := by
  have inYear := m.inYear
  simp only [toDays, civil, count, yearStart, monthStart]
  by_cases early : m.month < 10
  · simp only [early, if_true, show ¬ m.month + 3 ≤ 2 by omega, if_false, Int.add_sub_cancel]
    omega
  · simp only [early, if_false, show m.month - 9 ≤ 2 by omega, if_true, Int.sub_add_cancel, Int.add_sub_cancel]
    omega

theorem exists_of_isDay {date : CivilDate} (isDay : date.IsDay) : ∃ m : MarchDay, m.civil = date := by
  obtain ⟨year, month, day⟩ := date
  obtain ⟨begun, ended, first, last⟩ : 1 ≤ month ∧ month ≤ 12 ∧ 1 ≤ day ∧ day ≤ daysInMonth year month := isDay
  by_cases early : month ≤ 2
  · have inYear : 0 ≤ month + 9 ∧ month + 9 ≤ 11 := by omega
    have late : ¬ month + 9 < 10 := by omega
    have length := daysInMonth_eq (year - 1) inYear
    rw [if_neg late, if_neg late, Int.sub_add_cancel, Int.add_sub_cancel] at length
    refine ⟨⟨year - 1, month + 9, day - 1, inYear, by omega, by omega⟩, ?_⟩
    simp [civil, late]
  · have inYear : 0 ≤ month - 3 ∧ month - 3 ≤ 11 := by omega
    have length := daysInMonth_eq year inYear
    rw [if_pos (by omega), if_pos (by omega), Int.sub_add_cancel] at length
    refine ⟨⟨year, month - 3, day - 1, inYear, by omega, by omega⟩, ?_⟩
    simp [civil, show month - 3 < 10 by omega]

end MarchDay

namespace CivilDate

theorem ofDays_isDay (days : Int) : (ofDays days).IsDay := by
  obtain ⟨m, same, -⟩ := MarchDay.exists_ofDays days
  exact same ▸ m.civil_isDay

theorem ofDays_succ (days : Int) : ofDays (days + 1) = (ofDays days).next := by
  obtain ⟨m, same, count⟩ := MarchDay.exists_ofDays days
  obtain ⟨m', same', count'⟩ := MarchDay.exists_ofDays (days + 1)
  obtain ⟨following, after, countAfter⟩ := m.exists_next
  have equal : m' = following := MarchDay.eq_of_count (by omega)
  rw [← same', equal, after, same]

theorem ofDays_toDays {date : CivilDate} (isDay : date.IsDay) : ofDays date.toDays = date := by
  obtain ⟨m, rfl⟩ := MarchDay.exists_of_isDay isDay
  obtain ⟨m', same, count⟩ := MarchDay.exists_ofDays m.civil.toDays
  have equal : m' = m := MarchDay.eq_of_count (by rw [count, m.toDays_civil]; omega)
  rw [← same, equal]

theorem Numbering.ofDays {number : CivilDate → Int} (numbering : Numbering number) (days : Int) :
    number (ofDays days) = days := by
  induction days with
  | zero => exact numbering.first
  | succ n ih =>
    rw [ofDays_succ, numbering.next _ (ofDays_isDay _), ih]
  | pred n ih =>
    have step := numbering.next _ (ofDays_isDay (-n - 1))
    rw [← ofDays_succ, Int.sub_add_cancel, ih] at step
    omega

theorem Numbering.eq_toDays {number : CivilDate → Int} (numbering : Numbering number) {date : CivilDate}
    (isDay : date.IsDay) : number date = date.toDays := by
  rw [← numbering.ofDays date.toDays, ofDays_toDays isDay]

theorem toDays_numbering : Numbering toDays where
  first := rfl
  next date isDay := by
    obtain ⟨m, rfl⟩ := MarchDay.exists_of_isDay isDay
    obtain ⟨m', after, count⟩ := m.exists_next
    rw [← after, m'.toDays_civil, m.toDays_civil]
    omega

end CivilDate

end QueryTerms
