import HomeWidget.Time.Calendar

/-!
# Days and dates

A day gives a date that exists, and the date gives the day again. Within an era the years are told apart by their
first days: the formula for the year never decreases, and it is right on the first and on the last day of each of the
four hundred years, hence on all days between them.

Main results: `toDays_ofDays`, `mk?_ofDays`.
-/
namespace HomeWidget.Calendar

/-! ## §1. Years of an era -/

/-- The first day of a year of an era. -/
def firstDay (year : Nat) : Nat := 365 * year + year / 4 - year / 100 + year / 400

/-- The year of a day of an era. -/
def yearOf (day : Nat) : Nat := (day - day / 1460 + day / 36524 - day / 146096) / 365

/-- Later days are in later years. -/
theorem yearOf_mono {a b : Nat} (h : a ≤ b) : yearOf a ≤ yearOf b := by
  -- taking away one in 1460 never lets a count fall back, and the days of the centuries are counted up again
  have hquads : a - a / 1460 ≤ b - b / 1460 := by omega
  have ha : a / 146096 = a / 36524 / 4 := by rw [Nat.div_div_eq_div_mul]
  have hb : b / 146096 = b / 36524 / 4 := by rw [Nat.div_div_eq_div_mul]
  have hcenturies : a / 36524 - a / 146096 ≤ b / 36524 - b / 146096 := by
    have hle : a / 36524 ≤ b / 36524 := Nat.div_le_div_right h
    rw [ha, hb]
    omega
  unfold yearOf
  apply Nat.div_le_div_right
  omega

/-- The formula on the first and on the last day of a year. -/
theorem yearOf_ends : ∀ year < 400, yearOf (firstDay year) = year ∧ yearOf (firstDay (year + 1) - 1) = year := by
  decide +kernel

/-- **A day of an era lies in the year that the formula gives.** -/
theorem firstDay_yearOf {day : Nat} (h : day < 146097) :
    yearOf day < 400 ∧ firstDay (yearOf day) ≤ day ∧ day < firstDay (yearOf day + 1) := by
  have hlast : yearOf day ≤ 399 := yearOf_mono (show day ≤ 146096 by omega)
  have hlow : firstDay (yearOf day) ≤ day := by
    -- a day before the first one of its year would lie in the year before
    refine Nat.le_of_not_lt fun hlt => ?_
    cases hy : yearOf day with
    | zero =>
      rw [hy] at hlt
      exact absurd hlt (Nat.not_lt_zero day)
    | succ year =>
      have hbefore : day ≤ firstDay (year + 1) - 1 := by
        rw [hy] at hlt
        omega
      have hle := yearOf_mono hbefore
      rw [(yearOf_ends year (by omega)).2] at hle
      omega
  refine ⟨by omega, hlow, Nat.lt_of_not_le fun hge => ?_⟩
  -- and one from the first day of the next year on would lie in that year, unless it is the last of the era
  by_cases hy : yearOf day = 399
  · rw [hy] at hge
    have h400 : firstDay (399 + 1) = 146097 := rfl
    omega
  · have hle := yearOf_mono (show firstDay (yearOf day + 1) ≤ day by omega)
    rw [(yearOf_ends (yearOf day + 1) (by omega)).1] at hle
    omega

/-- The length of a year of an era, counted from March: one more day before a leap day. -/
theorem firstDay_succ : ∀ year < 400, firstDay (year + 1)
    = firstDay year + if (year + 1) % 4 = 0 ∧ ((year + 1) % 100 ≠ 0 ∨ (year + 1) % 400 = 0) then 366 else 365 := by
  decide +kernel

/-! ## §2. Days of a year -/

/-- The date of a day of a year of an era, the year being counted from March. -/
def ofYearDay (era : Int) (year day : Nat) : Date :=
  let monthFromMarch := (5 * day + 2) / 153
  let month := if monthFromMarch < 10 then monthFromMarch + 3 else monthFromMarch - 9
  ⟨if month ≤ 2 then (year : Int) + era * 400 + 1 else (year : Int) + era * 400, month,
    day - (153 * monthFromMarch + 2) / 5 + 1⟩

/-- A leap day ends the year before March: the year that then begins in the calendar has it. -/
def EndsInLeapDay (year : Nat) : Prop := (year + 1) % 4 = 0 ∧ ((year + 1) % 100 ≠ 0 ∨ (year + 1) % 400 = 0)

/-- A date is found from the era of its day, the year in the era and the day in the year. -/
theorem ofDays_eq (days : Int) : ∃ era : Int, ∃ year day : Nat, year < 400 ∧ day < 366
    ∧ (day = 365 → EndsInLeapDay year) ∧ days = era * 146097 + (firstDay year + day : Nat) - 719468
    ∧ Date.ofDays days = ofYearDay era year day := by
  have hday : ((days + 719468) % 146097).toNat < 146097 := by omega
  obtain ⟨hyear, hlow, hhigh⟩ := firstDay_yearOf hday
  have hlength := firstDay_succ _ hyear
  refine ⟨(days + 719468) / 146097, yearOf ((days + 719468) % 146097).toNat,
    ((days + 719468) % 146097).toNat - firstDay (yearOf ((days + 719468) % 146097).toNat), hyear, ?_, ?_, ?_, ?_⟩
  · split at hlength <;> omega
  · intro hlast
    unfold EndsInLeapDay
    split at hlength
    next h => exact h
    next => omega
  · omega
  · have hfirst : firstDay (yearOf ((days + 719468) % 146097).toNat)
        = 365 * yearOf ((days + 719468) % 146097).toNat + yearOf ((days + 719468) % 146097).toNat / 4
          - yearOf ((days + 719468) % 146097).toNat / 100 := by
      unfold firstDay
      omega
    rw [hfirst]
    rfl

/-- The month of a day of the year, from March, and the day of the month. -/
theorem month_of_day : ∀ day < 366,
    (5 * day + 2) / 153 ≤ 11 ∧ (153 * ((5 * day + 2) / 153) + 2) / 5 ≤ day
      ∧ ((5 * day + 2) / 153 = 11 → day - (153 * ((5 * day + 2) / 153) + 2) / 5 + 1 ≤ if day = 365 then 29 else 28)
      ∧ ((5 * day + 2) / 153 ≠ 11 → day - (153 * ((5 * day + 2) / 153) + 2) / 5 + 1
          ≤ daysIn 1 (if (5 * day + 2) / 153 < 10 then (5 * day + 2) / 153 + 3 else (5 * day + 2) / 153 - 9)) := by
  decide +kernel

/-- **The day of a date that was found so is the day that it was found for.** -/
theorem toDays_ofYearDay (era : Int) {year day : Nat} (hyear : year < 400) (hday : day < 366) :
    (ofYearDay era year day).toDays = era * 146097 + (firstDay year + day : Nat) - 719468 := by
  obtain ⟨hmonth, hstart, -, -⟩ := month_of_day day hday
  unfold ofYearDay Date.toDays firstDay
  generalize (5 * day + 2) / 153 = m at hmonth hstart ⊢
  have hback : ((if m < 10 then m + 3 else m - 9) + 9) % 12 = m := by
    split <;> omega
  -- the month from March, the year from March and its era are got back from the date
  have hera : ((year : Int) + era * 400) / 400 = era := by omega
  have hrest : ((year : Int) + era * 400) % 400 = year := by omega
  have hcounted : (if (if m < 10 then m + 3 else m - 9) ≤ 2
      then (if (if m < 10 then m + 3 else m - 9) ≤ 2 then (year : Int) + era * 400 + 1 else year + era * 400) - 1
      else if (if m < 10 then m + 3 else m - 9) ≤ 2 then (year : Int) + era * 400 + 1 else year + era * 400)
      = year + era * 400 := by
    split <;> omega
  simp only [hback, hcounted, hera, hrest]
  omega

/-- **A day is the day of its date.** -/
theorem toDays_ofDays (days : Int) : (Date.ofDays days).toDays = days := by
  obtain ⟨era, year, day, hyear, hday, -, hdays, hdate⟩ := ofDays_eq days
  rw [hdate, toDays_ofYearDay era hyear hday, hdays]

/-! ## §3. Dates that exist -/

/-- A year that is counted with a leap day at its end runs into a leap year. -/
theorem isLeap_of_endsInLeapDay {year : Nat} (h : EndsInLeapDay year) (era : Int) :
    isLeap ((year : Int) + era * 400 + 1) = true := by
  obtain ⟨hfour, hcentury⟩ := h
  unfold isLeap
  rw [Bool.and_eq_true, Bool.or_eq_true, decide_eq_true_eq, decide_eq_true_eq, decide_eq_true_eq]
  omega

/-- Only the length of February depends on the year. -/
theorem daysIn_of_ne {month : Nat} (h : month ≠ 2) (year : Int) : daysIn year month = daysIn 1 month := by
  unfold daysIn
  rw [if_neg h, if_neg h]

/-- **The date of a day exists**, if its year is one that a date may have. -/
theorem mk?_ofDays {days : Int} (hlow : yearRange.1 ≤ (Date.ofDays days).year)
    (hhigh : (Date.ofDays days).year ≤ yearRange.2) :
    Date.mk? (Date.ofDays days).year (Date.ofDays days).month (Date.ofDays days).day
      = some (Date.ofDays days) := by
  obtain ⟨era, year, day, hyear, hday, hleap, -, hdate⟩ := ofDays_eq days
  obtain ⟨hmonth, hstart, hfebruary, hother⟩ := month_of_day day hday
  have hmonths : 1 ≤ (Date.ofDays days).month ∧ (Date.ofDays days).month ≤ 12 := by
    rw [hdate]
    simp only [ofYearDay]
    split <;> omega
  have hdays : (Date.ofDays days).day ≤ daysIn (Date.ofDays days).year (Date.ofDays days).month := by
    rw [hdate]
    unfold ofYearDay
    generalize (5 * day + 2) / 153 = m at hmonth hstart hfebruary hother ⊢
    by_cases hm : m = 11
    · -- February, which is the last month of the year: its length is that of the next calendar year's
      subst hm
      refine Nat.le_trans (hfebruary rfl) ?_
      show (if day = 365 then 29 else 28) ≤ if isLeap ((year : Int) + era * 400 + 1) then 29 else 28
      by_cases hlast : day = 365
      · refine Nat.le_of_eq ?_
        rw [if_pos hlast, if_pos (isLeap_of_endsInLeapDay (hleap hlast) era)]
      · rw [if_neg hlast]
        split <;> omega
    · have hne : (if m < 10 then m + 3 else m - 9) ≠ 2 := by
        split <;> omega
      rw [daysIn_of_ne hne]
      exact hother hm
  exact if_pos ⟨hlow, hhigh, hmonths.1, hmonths.2, by rw [hdate]; exact Nat.succ_pos _, hdays⟩

/-- A date that exists has a month of the year and a day of at most thirty-one. -/
theorem bounds_of_mk? {year : Int} {month day : Nat} {date : Date} (h : Date.mk? year month day = some date) :
    (yearRange.1 ≤ year ∧ year ≤ yearRange.2) ∧ (1 ≤ month ∧ month ≤ 12) ∧ 1 ≤ day ∧ day ≤ 31 := by
  unfold Date.mk? at h
  split at h
  next hall =>
    obtain ⟨hlow, hhigh, hmonth, hmonth', hday, hday'⟩ := hall
    have hlength : daysIn year month ≤ 31 := by
      unfold daysIn
      repeat' split
      all_goals omega
    exact ⟨⟨hlow, hhigh⟩, ⟨hmonth, hmonth'⟩, hday, Nat.le_trans hday' hlength⟩
  next => cases h

end HomeWidget.Calendar
