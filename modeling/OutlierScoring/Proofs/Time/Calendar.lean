import OutlierScoring.Time.Calendar

/-!
# The calendar counts every day once

A day that is counted off from the first of March of the year zero is a day of the calendar
(`isValid_ofDays`), and counting up to it gives its number again (`toDays_ofDays`).

Both rest on where a day lies within its four hundred years: in which century, in which four years
of it and on which day of those (`exists_inEra`). From these three numbers the year is read off
without any rounding.
-/

namespace OutlierScoring.Time.Date

/-- The day of an era lies in a century, in four years of that and on a day of those. The last four
years of a century are a day short, but for those of the last one. -/
structure InEra (dayOfEra century quad day : Int) : Prop where
  eq_add : dayOfEra = 36524 * century + 1461 * quad + day
  century_mem : 0 ≤ century ∧ century ≤ 3
  quad_mem : 0 ≤ quad ∧ quad ≤ 24
  day_mem : 0 ≤ day ∧ day ≤ 1460
  day_short : quad = 24 → century < 3 → day ≤ 1459

theorem exists_inEra {dayOfEra : Int} (h : 0 ≤ dayOfEra) (h' : dayOfEra < daysPerEra) :
    ∃ century quad day, InEra dayOfEra century quad day := by
  rw [daysPerEra] at h'
  obtain ⟨century, rest, hdays, hcentury, hrest⟩ : ∃ century rest : Int,
      dayOfEra = 36524 * century + rest ∧ (0 ≤ century ∧ century ≤ 3) ∧
        (0 ≤ rest ∧ rest ≤ 36524 ∧ (century < 3 → rest ≤ 36523)) := by
    -- The last century is a day longer, which the division would take for a fifth one.
    by_cases hlast : dayOfEra < 109572
    · exact ⟨dayOfEra / 36524, dayOfEra % 36524, by omega, by omega, by omega⟩
    · exact ⟨3, dayOfEra - 109572, by omega, by omega, by omega⟩
  exact ⟨century, rest / 1461, rest % 1461, by omega, hcentury, by omega, by omega, by omega⟩

/-- The year of an era that a day lies in. -/
def yearOfEra (dayOfEra : Int) : Int :=
  (dayOfEra - dayOfEra / 1460 + dayOfEra / 36524 - dayOfEra / 146096) / 365

/-- The day of the year, counted from the first of March. -/
def dayOfYear (dayOfEra : Int) : Int :=
  dayOfEra - (365 * yearOfEra dayOfEra + yearOfEra dayOfEra / 4 - yearOfEra dayOfEra / 100)

theorem yearOfEra_eq {dayOfEra century quad day : Int} (h : InEra dayOfEra century quad day) :
    yearOfEra dayOfEra = 100 * century + 4 * quad + min (day / 365) 3 := by
  obtain ⟨rfl, hcentury, hquad, hday, hshort⟩ := h
  -- The leap days so far are taken away, and one more towards the end of four years, so that the
  -- last of their days does not count as a fifth year.
  have hquads : (36524 * century + 1461 * quad + day) / 1460 =
      25 * century + quad + (24 * century + quad + day) / 1460 := by omega
  have hcarry : (24 * century + quad + day) / 1460 =
      if 1460 ≤ 24 * century + quad + day then 1 else 0 := by
    split <;> omega
  have hcenturies : (36524 * century + 1461 * quad + day) / 36524 -
      (36524 * century + 1461 * quad + day) / 146096 = century := by
    have hrest : 1461 * quad + day ≤ 36524 := by omega
    by_cases hlast : 1461 * quad + day = 36524
    · obtain rfl : century = 3 := by omega
      omega
    · have hyears : (36524 * century + 1461 * quad + day) / 36524 = century := by omega
      have hera : (36524 * century + 1461 * quad + day) / 146096 = 0 := by omega
      omega
  have hsum : 36524 * century + 1461 * quad + day -
      (36524 * century + 1461 * quad + day) / 1460 +
        (36524 * century + 1461 * quad + day) / 36524 -
          (36524 * century + 1461 * quad + day) / 146096 =
      365 * (100 * century + 4 * quad) + (day - (24 * century + quad + day) / 1460) := by
    omega
  rw [yearOfEra, hsum, hcarry]
  split <;> omega

/-- A year has 365 days, and one more only where the next year is a leap year. -/
theorem dayOfYear_mem {dayOfEra : Int} (h : 0 ≤ dayOfEra) (h' : dayOfEra < daysPerEra) :
    0 ≤ yearOfEra dayOfEra ∧ yearOfEra dayOfEra ≤ 399 ∧ 0 ≤ dayOfYear dayOfEra ∧
      dayOfYear dayOfEra ≤ 365 ∧
      (dayOfYear dayOfEra = 365 → isLeapYear (yearOfEra dayOfEra + 1) = true) := by
  obtain ⟨century, quad, day, hera⟩ := exists_inEra h h'
  rw [dayOfYear, yearOfEra_eq hera]
  obtain ⟨rfl, hcentury, hquad, hday, hshort⟩ := hera
  have hquads : (100 * century + 4 * quad + min (day / 365) 3) / 4 = 25 * century + quad := by omega
  have hcenturies : (100 * century + 4 * quad + min (day / 365) 3) / 100 = century := by omega
  rw [hquads, hcenturies]
  refine ⟨by omega, by omega, by omega, by omega, fun hlong ↦ ?_⟩
  have hlast : day = 1460 := by omega
  simp only [isLeapYear, Bool.and_eq_true, Bool.or_eq_true, decide_eq_true_eq]
  omega

/-- The date of a day of a year that begins with the first of March. -/
def ofYearDay (year day : Int) : Date :=
  let month := (5 * day + 2) / 153
  let day := day - (153 * month + 2) / 5 + 1
  if month < 10 then ⟨year, (month + 3).toNat, day.toNat⟩
  else ⟨year + 1, (month - 9).toNat, day.toNat⟩

theorem ofDays_eq (days : Int) :
    ofDays days = ofYearDay (yearOfEra (days % daysPerEra) + days / daysPerEra * 400)
      (dayOfYear (days % daysPerEra)) := rfl

theorem toDays_ofYearDay (year : Int) {day : Int} (h : 0 ≤ day) (h' : day ≤ 365) :
    (ofYearDay year day).toDays =
      year / 400 * daysPerEra + (year % 400 * 365 + year % 400 / 4 - year % 400 / 100 + day) := by
  rw [ofYearDay]
  obtain ⟨month, hmonth⟩ : ∃ month, (5 * day + 2) / 153 = month := ⟨_, rfl⟩
  simp only [hmonth]
  split
  · have hmarch : ¬(month + 3).toNat ≤ 2 := by omega
    simp only [toDays, if_neg hmarch]
    omega
  · have hjanuary : (month - 9).toNat ≤ 2 := by omega
    simp only [toDays, if_pos hjanuary, Int.add_sub_cancel]
    omega

/-- A day of a year is a day of the calendar, if the 366th is one of a leap year only. -/
theorem isValid_ofYearDay {year day : Int} (h : 0 ≤ day) (h' : day ≤ 365)
    (hleap : day = 365 → isLeapYear (year + 1) = true) : (ofYearDay year day).isValid = true := by
  rw [ofYearDay]
  obtain ⟨month, hmonth⟩ : ∃ month, (5 * day + 2) / 153 = month := ⟨_, rfl⟩
  simp only [hmonth]
  split
  · simp only [isValid, daysIn, Bool.and_eq_true, decide_eq_true_eq]
    refine ⟨⟨⟨by omega, by omega⟩, by omega⟩, ?_⟩
    rw [if_neg (by omega)]
    split <;> omega
  · simp only [isValid, daysIn, Bool.and_eq_true, decide_eq_true_eq]
    refine ⟨⟨⟨by omega, by omega⟩, by omega⟩, ?_⟩
    split
    · split
      · omega
      · rename_i hcommon
        have : day ≠ 365 := fun hlast ↦ hcommon (hleap hlast)
        omega
    · split <;> omega

theorem toDays_ofDays (days : Int) : (ofDays days).toDays = days := by
  have hera : 0 ≤ days % daysPerEra := Int.emod_nonneg _ (by decide)
  have hera' : days % daysPerEra < daysPerEra := Int.emod_lt_of_pos _ (by decide)
  obtain ⟨hyear, hyear', hday, hday', -⟩ := dayOfYear_mem hera hera'
  have hdays : days % daysPerEra = yearOfEra (days % daysPerEra) * 365 +
      yearOfEra (days % daysPerEra) / 4 - yearOfEra (days % daysPerEra) / 100 +
        dayOfYear (days % daysPerEra) := by
    rw [dayOfYear]
    omega
  rw [ofDays_eq, toDays_ofYearDay _ hday hday', Int.add_mul_ediv_right _ _ (by decide),
    Int.add_mul_emod_self_right, Int.ediv_eq_zero_of_lt hyear (by omega), Int.zero_add,
    Int.emod_eq_of_lt hyear (by omega), ← hdays]
  exact Int.ediv_mul_add_emod days daysPerEra

/-- A day that is counted off is a day of the calendar. -/
theorem isValid_ofDays (days : Int) : (ofDays days).isValid = true := by
  have hera : 0 ≤ days % daysPerEra := Int.emod_nonneg _ (by decide)
  have hera' : days % daysPerEra < daysPerEra := Int.emod_lt_of_pos _ (by decide)
  obtain ⟨-, -, hday, hday', hleap⟩ := dayOfYear_mem hera hera'
  rw [ofDays_eq]
  refine isValid_ofYearDay hday hday' ?_
  intro hlast
  have := hleap hlast
  simp only [isLeapYear, Bool.and_eq_true, Bool.or_eq_true, decide_eq_true_eq] at this ⊢
  omega

end OutlierScoring.Time.Date
