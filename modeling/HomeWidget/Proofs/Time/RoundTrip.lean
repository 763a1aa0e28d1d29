import HomeWidget.Proofs.Number.Digits
import HomeWidget.Proofs.Text.Cut
import HomeWidget.Proofs.Time.Calendar
import HomeWidget.Time.Reader
import Mathlib.Data.List.Induction
import Mathlib.Data.List.TakeWhile

/-!
# Timestamps read back from their texts

A moment is read back from its written form: each number of it has as many digits as its place takes, and the mark
after it ends it. What is read from any text is a moment that can be written: its year is one that a date may have,
its second lies within the day, and a leap second stands at the end of a minute.

Main results: `ofText?_write`, `valid_of_ofText?`.
-/
namespace HomeWidget.Timestamp

open Text

/-! ## §1. Moments that can be written -/

/-- A moment of the range that dates have, with a leap second only at the end of a minute. -/
structure Valid (t : Timestamp) : Prop where
  low : Calendar.yearRange.1 ≤ (Calendar.Date.ofDays t.day).year
  high : (Calendar.Date.ofDays t.day).year ≤ Calendar.yearRange.2
  second : t.second < secondsPerDay
  nano : t.nano < nanosPerSecond ∨ (t.nano < 2 * nanosPerSecond ∧ t.second % 60 = 59)

instance (t : Timestamp) : Decidable t.Valid :=
  decidable_of_iff
    (Calendar.yearRange.1 ≤ (Calendar.Date.ofDays t.day).year ∧ (Calendar.Date.ofDays t.day).year ≤ Calendar.yearRange.2 ∧
      t.second < secondsPerDay ∧ (t.nano < nanosPerSecond ∨ (t.nano < 2 * nanosPerSecond ∧ t.second % 60 = 59)))
    ⟨fun h => ⟨h.1, h.2.1, h.2.2.1, h.2.2.2⟩, fun h => ⟨h.low, h.high, h.second, h.nano⟩⟩

/-! ## §2. Digits with zeros before them -/

/-- The characters of a padded number. -/
def paddedDigits (width n : Nat) : List Char :=
  List.replicate (width - (Nat.toDigits 10 n).length) '0' ++ Nat.toDigits 10 n

theorem toList_padded (width n : Nat) : (padded width n).toList = paddedDigits width n := String.toList_ofList

/-- A number is padded with digits. -/
theorem isDigit_paddedDigits {width n : Nat} {c : Char} (h : c ∈ paddedDigits width n) : c.isDigit = true := by
  rcases List.mem_append.1 h with h | h
  · exact Decimal.isDigit_of_mem_zeros h
  · exact Decimal.isDigit_toDigits h

/-- A padded number keeps its value. -/
theorem ofDigits_paddedDigits (width n : Nat) : Decimal.ofDigits (paddedDigits width n) = n := by
  unfold paddedDigits
  rw [Decimal.ofDigits_eq, Nat.ofDigitChars_append, Nat.ofDigitChars_replicate_zero, Nat.mul_zero,
    ← Decimal.ofDigits_eq, Decimal.ofDigits_toDigits]

/-- A padded number is as long as it should be, if it has no more digits than that. -/
theorem length_paddedDigits {width n : Nat} (hwidth : 0 < width) (h : n < 10 ^ width) :
    (paddedDigits width n).length = width := by
  have hle := (Nat.length_toDigits_le_iff (by omega) hwidth).2 h
  unfold paddedDigits
  rw [List.length_append, List.length_replicate]
  omega

theorem paddedDigits_ne_nil (width n : Nat) : paddedDigits width n ≠ [] := by
  intro h
  exact Nat.toDigits_ne_nil (List.append_eq_nil_iff.1 h).2

/-! ## §3. Pieces -/

/-- No white space is lost before a digit. -/
theorem trimStart_digits {ds : List Char} (hds : ∀ c ∈ ds, c.isDigit = true) (hne : ds ≠ []) (rest : List Char) :
    trimStart (ds ++ rest) = ds ++ rest := by
  cases ds with
  | nil => exact absurd rfl hne
  | cons d ds => exact trimStart_cons (isBlank_of_isDigit (hds d List.mem_cons_self)) _

/-- As many digits as there may be are a number. -/
theorem number?_digits {ds : List Char} {width : Nat} (hds : ∀ c ∈ ds, c.isDigit = true) (hlength : ds.length = width)
    (hwidth : 0 < width) (rest : List Char) : number? width (ds ++ rest) = some (Decimal.ofDigits ds, rest) := by
  have hne : ds ≠ [] := by
    rintro rfl
    rw [← hlength] at hwidth
    exact absurd hwidth (Nat.lt_irrefl 0)
  have htaken : ((ds ++ rest).take width).takeWhile Char.isDigit = ds := by
    rw [← hlength, List.take_left]
    exact List.takeWhile_eq_self_iff.2 hds
  unfold number?
  rw [trimStart_digits hds hne]
  simp only [htaken]
  rw [if_neg (by rw [List.isEmpty_iff]; exact hne), List.drop_left]

/-- A padded number is read back, whatever is behind it. -/
theorem number?_padded {width n : Nat} (hwidth : 0 < width) (h : n < 10 ^ width) (rest : List Char) :
    number? width (paddedDigits width n ++ rest) = some (n, rest) := by
  rw [number?_digits (fun c hc => isDigit_paddedDigits hc) (length_paddedDigits hwidth h) hwidth,
    ofDigits_paddedDigits]

/-- A padded number within bounds is read back where it must be within them. -/
theorem numberIn?_padded {low high n : Nat} (hlow : low ≤ n) (hhigh : n ≤ high) (h : n < 100) (rest : List Char) :
    numberIn? low high (paddedDigits 2 n ++ rest) = some (n, rest) := by
  unfold numberIn?
  rw [number?_padded (by omega) (by omega)]
  exact if_pos ⟨hlow, hhigh⟩

/-- A mark is read where it stands. -/
theorem mark?_cons {mark : Char} (h : isBlank mark = false) (rest : List Char) :
    mark? mark (mark :: rest) = some rest := by
  unfold mark?
  rw [trimStart_cons h]
  exact if_pos rfl

/-- The digits of a year end at the dash. -/
theorem spanDigits_padded (width n : Nat) (rest : List Char) :
    Decimal.spanDigits (paddedDigits width n ++ '-' :: rest) = (paddedDigits width n, '-' :: rest) :=
  Decimal.spanDigits_append (fun c hc => isDigit_paddedDigits hc) (Decimal.head?_of_cons (by decide) rest)

theorem isEmpty_paddedDigits (width n : Nat) : (paddedDigits width n).isEmpty = false := by
  rw [List.isEmpty_eq_false_iff]
  exact paddedDigits_ne_nil width n

/-- A year is read up to the mark that follows it. -/
theorem year?_write (year : Int) (rest : List Char) :
    year? ((writeYear year).toList ++ '-' :: rest) = some (year, '-' :: rest) := by
  unfold writeYear
  by_cases hfour : 0 ≤ year ∧ year ≤ 9999
  · -- four digits: a fifth character is not looked at, and a sign does not stand in front
    rw [if_pos hfour, toList_padded]
    unfold year?
    rw [trimStart_digits (fun c hc => isDigit_paddedDigits hc) (paddedDigits_ne_nil 4 _)]
    have hnumber := @number?_padded 4 year.natAbs (by omega) (by omega) ('-' :: rest)
    have hvalue : (year.natAbs : Int) = year := by omega
    have hdigit : ∀ c, (paddedDigits 4 year.natAbs ++ '-' :: rest).head? = some c → c.isDigit = true := by
      intro c hc
      obtain ⟨d, ds, hds⟩ := List.exists_cons_of_ne_nil (paddedDigits_ne_nil 4 year.natAbs)
      rw [hds, List.cons_append, List.head?_cons, Option.some_inj] at hc
      apply @isDigit_paddedDigits 4 year.natAbs
      rw [hds, hc]
      exact List.mem_cons_self
    split
    next h => exact absurd (hdigit '-' (by rw [h]; rfl)) (by decide)
    next h => exact absurd (hdigit '+' (by rw [h]; rfl)) (by decide)
    next =>
      rw [hnumber]
      show some ((year.natAbs : Int), '-' :: rest) = _
      rw [hvalue]
  · -- with a sign any number of digits is read, and the mark after them ends the year
    rw [if_neg hfour]
    by_cases hneg : year < 0
    · have hvalue : -(year.natAbs : Int) = year := by omega
      rw [if_pos hneg, String.toList_append, toList_padded]
      have hblank : isBlank '-' = false := by decide
      show year? ('-' :: (paddedDigits 4 year.natAbs ++ '-' :: rest)) = _
      unfold year?
      simp only [trimStart_cons hblank, spanDigits_padded, isEmpty_paddedDigits, ofDigits_paddedDigits]
      rw [if_neg Bool.noConfusion, Option.map_some, hvalue]
    · have hvalue : (year.natAbs : Int) = year := by omega
      rw [if_neg hneg, String.toList_append, toList_padded]
      have hblank : isBlank '+' = false := by decide
      show year? ('+' :: (paddedDigits 4 year.natAbs ++ '-' :: rest)) = _
      unfold year?
      simp only [trimStart_cons hblank, spanDigits_padded, isEmpty_paddedDigits, ofDigits_paddedDigits]
      rw [if_neg Bool.noConfusion, Option.map_some, hvalue]

/-- The fraction of a second, followed by the mark of the offset. -/
theorem fraction?_write {nano : Nat} (h : nano < nanosPerSecond) :
    fraction? ((writeFraction nano).toList ++ ['Z']) = some (nano, ['Z']) := by
  unfold nanosPerSecond at h
  -- three, six or nine digits are written, of which the reader makes nine again
  have hdigits : ∀ width n, 0 < width → width ≤ 9 → n < 10 ^ width →
      fraction? (("." ++ padded width n).toList ++ ['Z']) = some (n * 10 ^ (9 - width), ['Z']) := by
    intro width n hwidth hnine hn
    have hlength := length_paddedDigits hwidth hn
    have hspan : Decimal.spanDigits (paddedDigits width n ++ ['Z']) = (paddedDigits width n, ['Z']) :=
      Decimal.spanDigits_append (fun c hc => isDigit_paddedDigits hc) (Decimal.head?_of_cons (by decide) [])
    rw [String.toList_append, toList_padded]
    show fraction? ('.' :: (paddedDigits width n ++ ['Z'])) = _
    simp only [fraction?, hspan, isEmpty_paddedDigits]
    rw [if_neg Bool.noConfusion, List.take_of_length_le (by omega), ofDigits_paddedDigits, hlength]
  unfold writeFraction
  by_cases hzero : nano = 0
  · rw [if_pos hzero, hzero]
    rfl
  · rw [if_neg hzero]
    by_cases hmillis : nano % 1000000 = 0
    · rw [if_pos hmillis, hdigits 3 _ (by omega) (by omega) (by omega)]
      have hvalue : nano / 1000000 * 10 ^ (9 - 3) = nano := by omega
      rw [hvalue]
    · rw [if_neg hmillis]
      by_cases hmicros : nano % 1000 = 0
      · rw [if_pos hmicros, hdigits 6 _ (by omega) (by omega) (by omega)]
        have hvalue : nano / 1000 * 10 ^ (9 - 6) = nano := by omega
        rw [hvalue]
      · rw [if_neg hmicros, hdigits 9 _ (by omega) (by omega) (by omega)]
        have hvalue : nano * 10 ^ (9 - 9) = nano := by omega
        rw [hvalue]

/-! ## §4. The whole -/

/-- The characters of a written moment, by its numbers. -/
theorem toList_write (t : Timestamp) :
    t.write.toList = (writeYear (Calendar.Date.ofDays t.day).year).toList
      ++ '-' :: (paddedDigits 2 (Calendar.Date.ofDays t.day).month
      ++ '-' :: (paddedDigits 2 (Calendar.Date.ofDays t.day).day
      ++ 'T' :: (paddedDigits 2 (t.second / 3600)
      ++ ':' :: (paddedDigits 2 (t.second / 60 % 60)
      ++ ':' :: (paddedDigits 2 (t.second % 60 + if nanosPerSecond ≤ t.nano then 1 else 0)
      ++ ((writeFraction (if nanosPerSecond ≤ t.nano then t.nano - nanosPerSecond else t.nano)).toList
      ++ ['Z'])))))) := by
  unfold write
  simp only [String.toList_append, toList_padded, List.append_assoc]
  rfl

/-- A moment of valid range, given by the date of its day, is read from that date. -/
theorem ofLocal?_ofDays {t : Timestamp} (h : t.Valid) (nano : Nat) :
    ofLocal? (Calendar.Date.ofDays t.day) t.second nano 0 = some ⟨t.day, t.second, nano⟩ := by
  obtain ⟨hlow, hhigh, hsecond, -⟩ := h
  unfold ofLocal?
  unfold secondsPerDay at hsecond
  have hday : ((t.second : Int) - 0) / (secondsPerDay : Nat) = 0 := by
    unfold secondsPerDay
    omega
  have hrest : (((t.second : Int) - 0) % (secondsPerDay : Nat)).toNat = t.second := by
    unfold secondsPerDay
    omega
  simp only [Calendar.toDays_ofDays, hday, hrest, Int.add_zero]
  exact if_pos ⟨hlow, hhigh⟩

/-- **A moment is read back from its written form.** -/
theorem ofText?_write {t : Timestamp} (h : t.Valid) : ofText? t.write.toList = some t := by
  obtain ⟨hlow, hhigh, hsecond, hnano⟩ := h
  unfold secondsPerDay at hsecond
  have hdate := Calendar.mk?_ofDays hlow hhigh
  obtain ⟨-, ⟨hmonth, hmonth'⟩, hday, hday'⟩ := Calendar.bounds_of_mk? hdate
  have hdash : isBlank '-' = false := by decide
  have hcolon : isBlank ':' = false := by decide
  have hoffset : offset? ['Z'] = some (0, []) := by decide
  -- what is written of the seconds and of their fraction
  generalize hs : t.second % 60 + (if nanosPerSecond ≤ t.nano then 1 else 0) = s
  generalize hf : (if nanosPerSecond ≤ t.nano then t.nano - nanosPerSecond else t.nano) = f
  have hs' : s ≤ 60 := by
    rw [← hs]
    split <;> omega
  have hf' : f < nanosPerSecond := by
    rw [← hf]
    split <;> omega
  have hleap : s = 60 ↔ nanosPerSecond ≤ t.nano := by
    rw [← hs]
    split <;> omega
  -- the sixtieth second is read as the one before, with a second more of nanoseconds
  have hmoment : t.second / 3600 * 3600 + t.second / 60 % 60 * 60 + (if s = 60 then 59 else s) = t.second := by
    by_cases hl : nanosPerSecond ≤ t.nano
    · rw [if_pos (hleap.2 hl)]
      omega
    · rw [if_neg fun h => hl (hleap.1 h), ← hs, if_neg hl]
      omega
  have hparts : f + (if s = 60 then nanosPerSecond else 0) = t.nano := by
    by_cases hl : nanosPerSecond ≤ t.nano
    · rw [if_pos (hleap.2 hl), ← hf, if_pos hl]
      omega
    · rw [if_neg fun h => hl (hleap.1 h), ← hf, if_neg hl]
      omega
  rw [toList_write, hs, hf]
  unfold ofText?
  simp only [year?_write, mark?_cons hdash, mark?_cons hcolon, numberIn?_padded hmonth hmonth' (by omega),
    numberIn?_padded hday hday' (by omega), numberIn?_padded (Nat.zero_le _) hs' (by omega),
    numberIn?_padded (Nat.zero_le (t.second / 3600)) (show t.second / 3600 ≤ 23 by omega) (by omega),
    numberIn?_padded (Nat.zero_le (t.second / 60 % 60)) (show t.second / 60 % 60 ≤ 59 by omega) (by omega),
    fraction?_write hf', hoffset, hdate, ← Option.pure_def, pure_bind]
  rw [hmoment, hparts, if_neg (by decide)]
  exact ofLocal?_ofDays ⟨hlow, hhigh, hsecond, hnano⟩ t.nano

/-! ## §5. What is read -/

/-- Digits spell a number below the power of ten of their count. -/
theorem ofDigits_lt {ds : List Char} (hds : ∀ c ∈ ds, c.isDigit = true) : Decimal.ofDigits ds < 10 ^ ds.length := by
  -- the last digit counts once and moves the others one place up, so that the induction is from the end
  induction ds using List.reverseRecOn with
  | nil => decide
  | append_singleton ds c ih =>
    have hvalue := ih fun d hd => hds d (List.mem_append_left _ hd)
    have hc : c.toNat ≤ 57 := by
      have hdigit := hds c (List.mem_append_right _ List.mem_cons_self)
      unfold Char.isDigit at hdigit
      rw [Bool.and_eq_true, decide_eq_true_eq, decide_eq_true_eq] at hdigit
      exact hdigit.2
    unfold Decimal.ofDigits at hvalue ⊢
    rw [List.foldl_append, List.length_append, List.length_singleton, Nat.pow_succ]
    show List.foldl _ 0 ds * 10 + (c.toNat - 48) < _
    omega

/-- A fraction is less than a second. -/
theorem fraction?_lt {text rest : List Char} {nano : Nat} (h : fraction? text = some (nano, rest)) :
    nano < nanosPerSecond := by
  unfold fraction? at h
  split at h
  next tail =>
    simp only at h
    split at h
    next => cases h
    next =>
      have hnano := (Prod.mk.inj (Option.some.inj h)).1
      have hkept : ∀ c ∈ (Decimal.spanDigits tail).1.take 9, c.isDigit = true := by
        intro c hc
        have hmem := List.mem_of_mem_take hc
        unfold Decimal.spanDigits at hmem
        rw [List.span_eq_takeWhile_dropWhile] at hmem
        exact List.mem_takeWhile_imp hmem
      have hlt := ofDigits_lt hkept
      have hlength : ((Decimal.spanDigits tail).1.take 9).length ≤ 9 := List.length_take_le 9 _
      -- the kept digits are moved up to the ninth place
      have hnine : 10 ^ ((Decimal.spanDigits tail).1.take 9).length * 10 ^ (9 - ((Decimal.spanDigits tail).1.take 9).length)
          = nanosPerSecond := by
        rw [← Nat.pow_add, Nat.add_sub_cancel' hlength]
        rfl
      rw [← hnano, ← hnine]
      exact Nat.mul_lt_mul_of_pos_right hlt (Nat.pow_pos (by omega))
  next =>
    cases h
    decide

/-- Offsets are whole minutes. -/
theorem offset?_minutes {text rest : List Char} {offset : Int} (h : offset? text = some (offset, rest)) :
    offset % 60 = 0 := by
  unfold offset? at h
  simp only at h
  split at h
  next =>
    cases h
    decide
  next =>
    split at h
    next =>
      cases h
      decide
    next =>
      cases h
      decide
    next =>
      simp only [Option.bind_eq_bind, Option.bind_eq_some_iff] at h
      obtain ⟨sign, -, hours, -, minutes, -, h⟩ := h
      -- a sign times hours and minutes, in seconds
      split at h
      next =>
        have hoffset := (Prod.mk.inj (Option.some.inj h)).1
        rw [← hoffset]
        apply Int.emod_eq_zero_of_dvd
        apply Int.dvd_mul_of_dvd_right
        omega
      next => cases h

/-- A time of the day at an offset gives a moment that can be written, if a leap second stands at the end of a minute. -/
theorem valid_of_ofLocal? {date : Calendar.Date} {second nano : Nat} {offset : Int} {t : Timestamp}
    (hoffset : offset % 60 = 0)
    (hnano : nano < nanosPerSecond ∨ (nano < 2 * nanosPerSecond ∧ second % 60 = 59))
    (h : ofLocal? date second nano offset = some t) : t.Valid := by
  unfold ofLocal? at h
  simp only at h
  split at h
  next hyear =>
    have ht := Option.some.inj h
    refine ⟨by rw [← ht]; exact hyear.1, by rw [← ht]; exact hyear.2, ?_, ?_⟩
    · rw [← ht]
      unfold secondsPerDay
      show (_ % ((86400 : Nat) : Int)).toNat < 86400
      omega
    · rw [← ht]
      refine hnano.imp_right fun hleap => ⟨hleap.1, ?_⟩
      unfold secondsPerDay
      show (_ % ((86400 : Nat) : Int)).toNat % 60 = 59
      omega
  next => cases h

/-- **A moment that is read can be written.** -/
theorem valid_of_ofText? {text : List Char} {t : Timestamp} (h : ofText? text = some t) : t.Valid := by
  obtain ⟨⟨year, rest⟩, -, h⟩ := Option.bind_eq_some_iff.1 h
  obtain ⟨rest, -, h⟩ := Option.bind_eq_some_iff.1 h
  obtain ⟨⟨month, rest⟩, -, h⟩ := Option.bind_eq_some_iff.1 h
  obtain ⟨rest, -, h⟩ := Option.bind_eq_some_iff.1 h
  obtain ⟨⟨day, rest⟩, -, h⟩ := Option.bind_eq_some_iff.1 h
  dsimp only at h
  -- the three separators between date and time lead to the same reading
  split at h
  case h_4 => cases h
  all_goals
    obtain ⟨rest, -, h⟩ := Option.bind_eq_some_iff.1 h
    obtain ⟨⟨hour, rest⟩, -, h⟩ := Option.bind_eq_some_iff.1 h
    obtain ⟨rest, -, h⟩ := Option.bind_eq_some_iff.1 h
    obtain ⟨⟨minute, rest⟩, -, h⟩ := Option.bind_eq_some_iff.1 h
    obtain ⟨rest, -, h⟩ := Option.bind_eq_some_iff.1 h
    obtain ⟨⟨second, rest⟩, hsecond, h⟩ := Option.bind_eq_some_iff.1 h
    obtain ⟨⟨nano, rest⟩, hnano, h⟩ := Option.bind_eq_some_iff.1 h
    obtain ⟨⟨offset, rest⟩, hoffset, h⟩ := Option.bind_eq_some_iff.1 h
    dsimp only at h
    split at h
    · cases h
    · obtain ⟨date, -, h⟩ := Option.bind_eq_some_iff.1 h
      have hlt := fraction?_lt hnano
      -- only the sixtieth second adds to the fraction, and it is stored as the fifty-ninth
      refine valid_of_ofLocal? (offset?_minutes hoffset) ?_ h
      by_cases hleap : second = 60
      · rw [if_pos hleap, if_pos hleap]
        exact Or.inr ⟨by omega, by omega⟩
      · rw [if_neg hleap]
        exact Or.inl hlt

end HomeWidget.Timestamp
