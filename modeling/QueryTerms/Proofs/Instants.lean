import QueryTerms.Proofs.CivilCalendar
import QueryTerms.Proofs.ComputedNumbers
import QueryTerms.Proofs.Rounding

/-! Points in time and the terms that name them. With an offset of whole minutes the term gives the date and the time of
day that a clock with the offset shows, and the offset itself as a text: together they name the instant. With any other
offset the term is the one of the instant in standard time. The seconds have a fraction and are sent as a floating-point
number, which is off by less than half a nanosecond where they are those of a minute, and by less than half a
millisecond where they are those of all time. -/

namespace QueryTerms

theorem Datum.exists_ofInt {n : Int} (small : -9223372036854775808 ≤ n ∧ n < 9223372036854775808) :
    ∃ number, ofInt n = .number number ∧ number.toInt? = some n := by
  have fits : (Number.ofInt? n).isSome := by
    cases n with
    | ofNat n =>
      rw [Int.ofNat_eq_natCast] at small
      have inside : n < UInt64.size := by
        simp only [UInt64.size]
        omega
      rw [Number.ofInt?, if_pos inside]
      rfl
    | negSucc k =>
      have inside : k < 0x8000000000000000 := by omega
      rw [Number.ofInt?, dif_pos inside]
      rfl
  obtain ⟨number, made⟩ := Option.isSome_iff_exists.mp fits
  exact ⟨number, by rw [ofInt, made], Number.toInt?_of_ofInt? made⟩

private theorem CivilDate.daysInMonth_le (year month : Int) : daysInMonth year month ≤ 31 := by
  unfold daysInMonth
  repeat' split
  all_goals decide

private theorem CivilDate.ofDays_year {days : Int} (covered : -1000000000 ≤ days ∧ days ≤ 1000000000) :
    -10000000 ≤ (ofDays days).year ∧ (ofDays days).year ≤ 10000000 := by
  obtain ⟨m, same, count⟩ := MarchDay.exists_ofDays days
  have begun := m.yearStart_le_count
  have notOver : m.count < yearStart (m.year + 1) := MarchDay.count_lt_of_year_lt (Int.lt_succ m.year)
  unfold yearStart at begun notOver
  rw [← same]
  simp only [MarchDay.civil]
  split <;> omega

private theorem CivilDate.isDay_of_isValid {date : CivilDate} (valid : date.isValid) :
    date.IsDay ∧ -10000000 ≤ date.year ∧ date.year ≤ 10000000 := by
  simp only [isValid, Bool.and_eq_true, decide_eq_true_eq] at valid
  unfold IsDay
  omega

namespace CivilTime

/-- A time of day that a clock can show. Leap seconds are in the nanoseconds. -/
def Shown (t : CivilTime) : Prop :=
  t.date.IsDay ∧ (0 ≤ t.hour ∧ t.hour < 24) ∧ (0 ≤ t.minute ∧ t.minute < 60) ∧ (0 ≤ t.second ∧ t.second < 60)

theorem ofInstant_shown (t : Instant) (offset : Int) : (ofInstant t offset).Shown := by
  refine ⟨CivilDate.ofDays_isDay _, ?_⟩
  simp only [ofInstant]
  omega

private theorem ofInstant_seconds {number : CivilDate → Int} (numbering : CivilDate.Numbering number) (t : Instant)
    (offset : Int) :
    number (ofInstant t offset).date * 86400 + 3600 * (ofInstant t offset).hour +
        60 * (ofInstant t offset).minute + (ofInstant t offset).second - offset = t.seconds := by
  simp only [ofInstant, numbering.ofDays]
  omega

theorem ofInstant_exact {number : CivilDate → Int} (numbering : CivilDate.Numbering number) (t : Instant)
    (offset : Int) :
    (number (ofInstant t offset).date * 86400 + 3600 * (ofInstant t offset).hour +
        60 * (ofInstant t offset).minute +
        ((ofInstant t offset).second + (ofInstant t offset).nanos / 1000000000) - offset : ℚ) =
      t.seconds + t.nanos / 1000000000 := by
  have nanos : (ofInstant t offset).nanos = t.nanos := rfl
  rw [nanos, ← ofInstant_seconds numbering t offset]
  push_cast
  linarith

end CivilTime

namespace HostValue

def digit? (c : Char) : Option Int :=
  if c.isDigit then some (c.toNat - '0'.toNat : Nat) else none

/-- The number below `bound` that two digits stand for. -/
def readDigits? (bound : Int) (a b : Char) : Option Int := do
  let n := 10 * (← digit? a) + (← digit? b)
  if n < bound then some n else none

/-- The seconds that a sign, hours and minutes stand for. -/
def readOffset? (zone : String) : Option Int :=
  match zone.toList with
  | [sign, a, b, ':', c, d] => do
    let size := 3600 * (← readDigits? 24 a b) + 60 * (← readDigits? 60 c d)
    match sign with
    | '+' => some size
    | '-' => some (-size)
    | _ => none
  | _ => none

private theorem digit?_digitChar : ∀ n < 10, digit? (Nat.digitChar n) = some (n : Int) := by decide

private theorem readDigits?_digitChar {bound n : Nat} (below : n < bound) (small : n < 100) :
    readDigits? bound (n / 10).digitChar (n % 10).digitChar = some (n : Int) := by
  rw [readDigits?, digit?_digitChar _ (by omega), digit?_digitChar _ (by omega)]
  simp only [bind, Option.bind]
  rw [if_pos (by omega)]
  exact congrArg some (by omega)

private theorem twoDigits_toList {n : Nat} (small : n < 100) :
    (twoDigits n).toList = [(n / 10).digitChar, (n % 10).digitChar] := by
  have text : toString (n : Int) = String.ofList (Nat.toDigits 10 n) := rfl
  rw [twoDigits, text]
  by_cases short : n < 10
  · rw [Nat.toDigits_of_lt_base short, Nat.div_eq_of_lt short, Nat.mod_eq_of_lt short]
    simp
  · rw [Nat.toDigits_of_base_le (by decide) (by omega), Nat.toDigits_of_lt_base (by omega)]
    simp

private theorem offsetText_toList {offset : Int} (short : offset.natAbs < 86400) :
    (offsetText offset).toList =
      [if offset < 0 then '-' else '+', (offset.natAbs / 3600 / 10).digitChar, (offset.natAbs / 3600 % 10).digitChar,
        ':', (offset.natAbs % 3600 / 60 / 10).digitChar, (offset.natAbs % 3600 / 60 % 10).digitChar] := by
  have hours := twoDigits_toList (show offset.natAbs / 3600 < 100 by omega)
  have minutes := twoDigits_toList (show offset.natAbs % 3600 / 60 < 100 by omega)
  simp only [Int.natCast_ediv, Int.natCast_emod, Nat.cast_ofNat] at hours minutes
  have sign : (if offset < 0 then "-" else "+").toList = [if offset < 0 then '-' else '+'] := by split <;> rfl
  have separator : ":".toList = [':'] := rfl
  simp only [offsetText, String.toList_append, sign, hours, separator, minutes, List.cons_append, List.nil_append]

theorem readOffset?_offsetText {offset : Int} (short : offset.natAbs < 86400) (whole : offset % 60 = 0) :
    readOffset? (offsetText offset) = some offset := by
  have hours : readDigits? 24 _ _ = _ :=
    readDigits?_digitChar (show offset.natAbs / 3600 < 24 by omega) (by omega)
  have minutes : readDigits? 60 _ _ = _ :=
    readDigits?_digitChar (show offset.natAbs % 3600 / 60 < 60 by omega) (by omega)
  rw [readOffset?, offsetText_toList short]
  simp only [hours, minutes, bind, Option.bind]
  by_cases negative : offset < 0
  · simp only [if_pos negative]
    exact congrArg some (by omega)
  · simp only [if_neg negative]
    exact congrArg some (by omega)

/-- Seconds with their nanoseconds as a floating-point number. The fraction is rounded, and then the sum. -/
def IsSeconds (seconds nanos : Int) (x : Double) : Prop :=
  ∃ part : Double, part.Rounds (nanos / 1000000000) ∧ x.Rounds (seconds + part.value)

section Seconds

variable {seconds nanos : Int}

private theorem fraction_bounds (fraction : 0 ≤ nanos ∧ nanos < 2000000000) :
    (0 : ℚ) ≤ nanos / 1000000000 ∧ (nanos / 1000000000 : ℚ) ≤ 1999999999 / 1000000000 := by
  obtain ⟨least, most⟩ : (0 : ℚ) ≤ nanos ∧ (nanos : ℚ) ≤ 1999999999 := by
    exact_mod_cast And.imp_right Int.le_sub_one_of_lt fraction
  exact ⟨by positivity, by linarith⟩

private theorem part_error (fraction : 0 ≤ nanos ∧ nanos < 2000000000) {part : Double}
    (rounds : part.Rounds (nanos / 1000000000)) : |part.value - nanos / 1000000000| ≤ 2 ^ (-52 : Int) / 2 := by
  obtain ⟨least, most⟩ := fraction_bounds fraction
  apply rounds.error _ (by decide) (by decide)
  rw [abs_of_nonneg least]
  norm_num at most ⊢
  linarith

private theorem abs_part_le (fraction : 0 ≤ nanos ∧ nanos < 2000000000) {part : Double}
    (rounds : part.Rounds (nanos / 1000000000)) : |part.value| ≤ 3 := by
  obtain ⟨least, most⟩ := fraction_bounds fraction
  have error := abs_le.mp (part_error fraction rounds)
  norm_num at error most
  exact abs_le.mpr ⟨by linarith, by linarith⟩

private theorem two_zpow_large : (2 : ℚ) ^ (53 : Int) ≤ 2 ^ (1023 : Int) :=
  zpow_le_zpow_right₀ (by norm_num) (by decide)

private theorem exists_part (fraction : 0 ≤ nanos ∧ nanos < 2000000000) :
    ∃ part, Double.ofRatio? false nanos.toNat 1000000000 = some part ∧ part.Rounds (nanos / 1000000000) := by
  obtain ⟨-, most⟩ := fraction_bounds fraction
  have same : (nanos.toNat : ℚ) = nanos := by exact_mod_cast Int.toNat_of_nonneg fraction.1
  have small : (nanos.toNat / (1000000000 : Nat) : ℚ) < 2 ^ (1023 : Int) := by
    refine lt_of_lt_of_le ?_ two_zpow_large
    rw [same, Nat.cast_ofNat]
    norm_num
    linarith
  obtain ⟨part, made⟩ := Double.exists_ofRatio? false (by decide) small
  have rounds := Double.ofRatio?_rounds (by decide) made
  rw [if_neg Bool.false_ne_true, same, Nat.cast_ofNat] at rounds
  exact ⟨part, made, rounds⟩

/-- Whole seconds of at most 52 bits are exact, so that only their fraction and the sum are rounded. -/
theorem secondsDatum_eq (short : seconds.natAbs < 2 ^ 52) (fraction : 0 ≤ nanos ∧ nanos < 2000000000) :
    ∃ x : Double, secondsDatum seconds nanos = .number (.double x) ∧ IsSeconds seconds nanos x := by
  obtain ⟨whole, wholeMade, wholeValue⟩ := Double.ofInt?_exact (show seconds.natAbs < 2 ^ 53 by omega)
  obtain ⟨part, partMade, partRounds⟩ := exists_part fraction
  have size : |(seconds : ℚ)| < 2 ^ 52 := by
    rw [← Int.cast_abs, ← Nat.cast_natAbs]
    exact_mod_cast short
  have sum : |whole.value + part.value| < 2 ^ (1023 : Int) := by
    have bound := abs_part_le fraction partRounds
    have triangle := abs_add_le whole.value part.value
    refine lt_of_lt_of_le ?_ two_zpow_large
    rw [wholeValue] at triangle ⊢
    norm_num at size ⊢
    linarith
  obtain ⟨x, made, rounds⟩ := Double.add?_rounds sum
  refine ⟨x, ?_, part, partRounds, wholeValue ▸ rounds⟩
  simp only [secondsDatum, wholeMade, partMade, made, Option.bind_eq_bind, Option.bind_some, Datum.ofDouble?]

/-- The two roundings together, where a last bit of exponent `e` leaves room for the seconds. -/
theorem IsSeconds.error {x : Double} {e : Int} (isSeconds : IsSeconds seconds nanos x)
    (fraction : 0 ≤ nanos ∧ nanos < 2000000000) (bound : |(seconds : ℚ)| + 3 ≤ (2 ^ 53 - 1) * 2 ^ e)
    (least : -1074 ≤ e) (greatest : e ≤ 970) :
    |x.value - (seconds + nanos / 1000000000)| ≤ 2 ^ e / 2 + 2 ^ (-52 : Int) / 2 := by
  obtain ⟨part, partRounds, rounds⟩ := isSeconds
  have triangle := abs_add_le (seconds : ℚ) part.value
  have sum := rounds.error (by linarith [abs_part_le fraction partRounds]) least greatest
  have fractionError := part_error fraction partRounds
  calc |x.value - (seconds + nanos / 1000000000)|
      = |(x.value - (seconds + part.value)) + (part.value - nanos / 1000000000)| := by congr 1; ring
    _ ≤ |x.value - (seconds + part.value)| + |part.value - nanos / 1000000000| := abs_add_le _ _
    _ ≤ 2 ^ e / 2 + 2 ^ (-52 : Int) / 2 := add_le_add sum fractionError

end Seconds

/-- The numbers of a year, a month and a day. -/
def IsDate (date : CivilDate) (year month day : Number) : Prop :=
  year.toInt? = some date.year ∧ month.toInt? = some date.month ∧ day.toInt? = some date.day

/-- A call of the time constructor with the date and the time of day that a clock shows, and with its zone. The seconds
are rounded, by less than half a nanosecond. -/
def IsTimeCall (clock : CivilTime) (zone : String) (term : Term) : Prop :=
  ∃ (year month day hour minute : Number) (second : Double),
    term = .call .time
      [.literal (.number year), .literal (.number month), .literal (.number day), .literal (.number hour),
       .literal (.number minute), .literal (.number (.double second)), .literal (.string zone)] [] ∧
    IsDate clock.date year month day ∧ hour.toInt? = some clock.hour ∧ minute.toInt? = some clock.minute ∧
    IsSeconds clock.second clock.nanos second ∧
    |second.value - (clock.second + clock.nanos / 1000000000)| < 1 / 2000000000

/-- A call of the time constructor for an instant in standard time. Its seconds are rounded, by less than half a
millisecond. -/
def IsEpochCall (t : Instant) (term : Term) : Prop :=
  ∃ seconds : Double, term = .call .epochTime [.literal (.number (.double seconds))] [] ∧
    IsSeconds t.seconds t.nanos seconds ∧ |seconds.value - (t.seconds + t.nanos / 1000000000)| < 1 / 2000

/-- A call of the time constructor with a date only, for the start of the day in standard time. -/
def IsDateCall (date : CivilDate) (term : Term) : Prop :=
  ∃ year month day : Number,
    term = .call .time
      [.literal (.number year), .literal (.number month), .literal (.number day), .literal (.string "Z")] [] ∧
    IsDate date year month day

/-- A value of the host that is an instant in the time of an offset: it gives the instant itself, or what a clock shows
then, where the last second of a minute can be a leap second. -/
inductive Shows (number : CivilDate → Int) : HostValue → Instant → Int → Prop where
  | instant {t : Instant} {offset : Int} : t.isValid → Shows number (.instant t offset) t offset
  | clock {c : CivilTime} {offset : Int} : c.isValid →
    Shows number (.clock c offset)
      ⟨number c.date * 86400 + 3600 * c.hour + 60 * c.minute + c.second - offset, c.nanos⟩ offset

private theorem exists_isDate {date : CivilDate} (isDay : date.IsDay)
    (covered : -10000000 ≤ date.year ∧ date.year ≤ 10000000) :
    ∃ year month day, Datum.ofInt date.year = .number year ∧ Datum.ofInt date.month = .number month ∧
      Datum.ofInt date.day = .number day ∧ IsDate date year month day := by
  obtain ⟨monthBegun, monthEnded, dayBegun, dayEnded⟩ := isDay
  have inMonth := CivilDate.daysInMonth_le date.year date.month
  obtain ⟨year, sameYear, readYear⟩ := Datum.exists_ofInt (show _ ∧ date.year < _ by omega)
  obtain ⟨month, sameMonth, readMonth⟩ := Datum.exists_ofInt (show _ ∧ date.month < _ by omega)
  obtain ⟨day, sameDay, readDay⟩ := Datum.exists_ofInt (show _ ∧ date.day < _ by omega)
  exact ⟨year, month, day, sameYear, sameMonth, sameDay, readYear, readMonth, readDay⟩

theorem clockTerm_isTimeCall {clock : CivilTime} (shown : clock.Shown) (offset : Int)
    (covered : -10000000 ≤ clock.date.year ∧ clock.date.year ≤ 10000000)
    (fraction : 0 ≤ clock.nanos ∧ clock.nanos < 2000000000) :
    IsTimeCall clock (offsetText offset) (clockTerm clock offset) := by
  obtain ⟨isDay, hours, minutes, seconds⟩ := shown
  obtain ⟨year, month, day, sameYear, sameMonth, sameDay, isDate⟩ := exists_isDate isDay covered
  obtain ⟨hour, sameHour, readHour⟩ := Datum.exists_ofInt (show _ ∧ clock.hour < _ by omega)
  obtain ⟨minute, sameMinute, readMinute⟩ := Datum.exists_ofInt (show _ ∧ clock.minute < _ by omega)
  obtain ⟨second, sameSecond, isSeconds⟩ := secondsDatum_eq (show clock.second.natAbs < 2 ^ 52 by omega) fraction
  refine ⟨year, month, day, hour, minute, second, ?_, isDate, readHour, readMinute, isSeconds, ?_⟩
  · rw [clockTerm, sameYear, sameMonth, sameDay, sameHour, sameMinute, sameSecond]
  · have inMinute : |(clock.second : ℚ)| ≤ 60 := by
      obtain ⟨least, most⟩ : (0 : ℚ) ≤ clock.second ∧ (clock.second : ℚ) < 60 := by exact_mod_cast seconds
      rw [abs_of_nonneg least]
      exact most.le
    refine (isSeconds.error (e := -47) fraction ?_ (by decide) (by decide)).trans_lt (by norm_num)
    norm_num
    linarith

theorem epochTerm_isEpochCall {t : Instant} (covered : t.isCovered) (fraction : 0 ≤ t.nanos ∧ t.nanos < 2000000000) :
    IsEpochCall t (epochTerm t) := by
  simp only [Instant.isCovered, Bool.and_eq_true, decide_eq_true_eq] at covered
  obtain ⟨seconds, same, isSeconds⟩ := secondsDatum_eq (show t.seconds.natAbs < 2 ^ 52 by omega) fraction
  refine ⟨seconds, by rw [epochTerm, same], isSeconds, ?_⟩
  have size : |(t.seconds : ℚ)| ≤ 8334601228800 := by
    obtain ⟨least, most⟩ : (-8334601228800 : ℚ) ≤ t.seconds ∧ (t.seconds : ℚ) ≤ 8210266876799 := by
      exact_mod_cast covered
    exact abs_le.mpr ⟨least, by linarith⟩
  refine (isSeconds.error (e := -10) fraction ?_ (by decide) (by decide)).trans_lt (by norm_num)
  norm_num
  linarith

theorem dateTerm_isDateCall {date : CivilDate} (isDay : date.IsDay)
    (covered : -10000000 ≤ date.year ∧ date.year ≤ 10000000) : IsDateCall date (dateTerm date) := by
  obtain ⟨year, month, day, sameYear, sameMonth, sameDay, isDate⟩ := exists_isDate isDay covered
  exact ⟨year, month, day, by rw [dateTerm, sameYear, sameMonth, sameDay], isDate⟩

theorem Shows.toTerm_eq {number : CivilDate → Int} (numbering : CivilDate.Numbering number) {value : HostValue}
    {t : Instant} {offset : Int} (shows : Shows number value t offset) (covered : t.isCovered)
    (short : isOffset offset) : toTerm value = .ok (instantTerm t offset) := by
  cases shows with
  | instant valid =>
    rw [toTerm, valid, short]
    rfl
  | @clock c offset valid =>
    have day : c.date.isValid := by
      simp only [CivilTime.isValid, Bool.and_eq_true] at valid
      tauto
    rw [numbering.eq_toDays (CivilDate.isDay_of_isValid day).1] at covered ⊢
    rw [toTerm, valid, short, CivilTime.toInstant, covered]
    rfl

/-- At the start of a day, a clock of the standard time shows the day. -/
private theorem ofInstant_midnight {date : CivilDate} (isDay : date.IsDay) :
    CivilTime.ofInstant ⟨date.toDays * 86400, 0⟩ 0 = ⟨date, 0, 0, 0, 0⟩ := by
  simp only [CivilTime.ofInstant, Int.add_zero, Int.mul_ediv_cancel _ (show (86400 : Int) ≠ 0 by decide),
    Int.mul_emod_left, CivilDate.ofDays_toDays isDay]
  rfl

end HostValue

namespace Proofs.Instants
open HostValue

/-- With an offset of whole minutes, the term of an instant is a call with what a clock shows and with the offset, and
the exact seconds of what it shows, less the offset, are those of the instant. With any other offset it is the call for
the same instant in standard time. A date becomes a call with the date that a clock of the standard time shows at its
start. -/
theorem instant_kept {number : CivilDate → Int} (numbering : CivilDate.Numbering number) :
    (∀ (t : Instant) (offset : Int), t.isCovered → 0 ≤ t.nanos ∧ t.nanos < 2000000000 → isOffset offset →
      (∀ value, Shows number value t offset → toTerm value = .ok (instantTerm t offset)) ∧
      (offset % 60 = 0 → ∃ clock zone, IsTimeCall clock zone (instantTerm t offset) ∧ clock.Shown ∧
        readOffset? zone = some offset ∧
        (number clock.date * 86400 + 3600 * clock.hour + 60 * clock.minute +
          (clock.second + clock.nanos / 1000000000) - offset : ℚ) = t.seconds + t.nanos / 1000000000) ∧
      (offset % 60 ≠ 0 → IsEpochCall t (instantTerm t offset))) ∧
    (∀ t : Instant, t.isValid → ∃ term, toTerm (.utc t) = .ok term ∧ IsEpochCall t term ∧
      ∀ offset, isOffset offset → offset % 60 ≠ 0 → toTerm (.instant t offset) = .ok term) ∧
    ∀ date : CivilDate, date.isValid → ∃ term, toTerm (.date date) = .ok term ∧ IsDateCall date term ∧
      IsTimeCall ⟨date, 0, 0, 0, 0⟩ "+00:00" (instantTerm ⟨number date * 86400, 0⟩ 0) := by
  refine ⟨fun t offset covered fraction short => ⟨fun value shows => ?_, fun whole => ?_, fun broken => ?_⟩,
    fun t valid => ?_, fun date valid => ?_⟩
  · exact shows.toTerm_eq numbering covered short
  · have shown := CivilTime.ofInstant_shown t offset
    simp only [isOffset, Instant.isCovered, Bool.and_eq_true, decide_eq_true_eq] at covered short
    have years := CivilDate.ofDays_year (show -1000000000 ≤ (t.seconds + offset) / 86400 ∧ _ by omega)
    refine ⟨.ofInstant t offset, offsetText offset, ?_, shown, readOffset?_offsetText (by omega) whole,
      CivilTime.ofInstant_exact numbering t offset⟩
    rw [instantTerm, if_pos whole]
    exact clockTerm_isTimeCall shown offset years fraction
  · rw [instantTerm, if_neg broken]
    exact epochTerm_isEpochCall covered fraction
  · have bounds : t.isCovered ∧ 0 ≤ t.nanos ∧ t.nanos < 2000000000 := by
      simp only [Instant.isValid, Bool.and_eq_true, Bool.or_eq_true, decide_eq_true_eq] at valid
      exact ⟨valid.1.1, by omega⟩
    have lifted : toTerm (.utc t) = .ok (epochTerm t) := by rw [toTerm, valid]; rfl
    refine ⟨epochTerm t, lifted, epochTerm_isEpochCall bounds.1 bounds.2, fun offset short broken => ?_⟩
    rw [(Shows.instant valid).toTerm_eq numbering bounds.1 short, instantTerm, if_neg broken]
  · obtain ⟨isDay, years⟩ := CivilDate.isDay_of_isValid valid
    have shown := CivilTime.ofInstant_shown ⟨date.toDays * 86400, 0⟩ 0
    rw [ofInstant_midnight isDay] at shown
    have zone : offsetText 0 = "+00:00" := by decide +kernel
    refine ⟨dateTerm date, by rw [toTerm, valid]; rfl, dateTerm_isDateCall isDay years, ?_⟩
    rw [numbering.eq_toDays isDay, instantTerm, if_pos (by decide), ofInstant_midnight isDay, ← zone]
    exact clockTerm_isTimeCall shown 0 years (by simp)

/-- Half a second into a leap second: one before the year zero, five and a half hours to the west, and one by a clock
that is a second ahead, for which it is not the last second of a minute in standard time. -/
theorem instant_kept_leapSecond :
    let early : Instant := ⟨-62167219201, 1500000000⟩
    let late : Instant := ⟨1483228798, 1500000000⟩
    (∃ clock zone term, toTerm (.instant early (-19800)) = .ok term ∧
      IsTimeCall clock zone term ∧ clock.Shown ∧ readOffset? zone = some (-19800) ∧
      (clock.date.toDays * 86400 + 3600 * clock.hour + 60 * clock.minute +
        (clock.second + clock.nanos / 1000000000) - (-19800 : Int) : ℚ) = early.seconds + early.nanos / 1000000000) ∧
    (∃ term, toTerm (.utc early) = .ok term ∧ toTerm (.instant early (-19801)) = .ok term ∧ IsEpochCall early term) ∧
    late.isValid = false ∧
    (∃ term, toTerm (.clock ⟨⟨2016, 12, 31⟩, 23, 59, 59, 1500000000⟩ 1) = .ok term ∧ IsEpochCall late term) ∧
    ∃ term, toTerm (.date ⟨2000, 2, 29⟩) = .ok term ∧ IsDateCall ⟨2000, 2, 29⟩ term := by
  intro early late
  obtain ⟨moments, standard, dates⟩ := instant_kept CivilDate.toDays_numbering
  obtain ⟨lifted, whole, -⟩ := moments early (-19800) (by decide) (by decide) (by decide)
  obtain ⟨clock, zone, call, shown, read, sum⟩ := whole (by decide)
  obtain ⟨epoch, utc, isEpoch, broken⟩ := standard early (by decide)
  obtain ⟨liftedLate, -, odd⟩ := moments late 1 (by decide) (by decide) (by decide)
  obtain ⟨day, dayLifted, isDay, -⟩ := dates ⟨2000, 2, 29⟩ (by decide)
  have byClock : Shows CivilDate.toDays (.clock ⟨⟨2016, 12, 31⟩, 23, 59, 59, 1500000000⟩ 1) late 1 :=
    .clock (by decide)
  exact ⟨⟨clock, zone, _, lifted _ (.instant (by decide)), call, shown, read, sum⟩,
    ⟨epoch, utc, broken (-19801) (by decide) (by decide), isEpoch⟩, by decide,
    ⟨_, liftedLate _ byClock, odd (by decide)⟩, day, dayLifted, isDay⟩

end Proofs.Instants

end QueryTerms
