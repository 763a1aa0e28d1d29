import HomeWidget.Proofs.Json.Numeral
import HomeWidget.Proofs.Number.Scientific
import HomeWidget.Proofs.Number.Shortest

/-!
# Doubles read from their numerals

A double is written in one of four layouts, by the place of its leading digit. In each of them the reader finds the
digits before and after the point and the power of ten again, and makes a decimal of them whose value is that of the
shortest digits; this value is covered by the double, and so the double is read.

Main results: `spells_body`, `ofText?_double`, `isNumeral_double`.
-/
namespace HomeWidget.Json

open Decimal

/-! ## §1. Numerals of doubles -/

/-- The text, which has no sign, is a numeral that shows a double of value `n · 10 ^ k`. -/
structure SpellsDouble (text : List Char) (n : ℕ) (k : ℤ) : Prop where
  numeral : IsNumeral text
  plain : text.head? ≠ some '-'
  reads : ∃ units fraction rest exponent, takePoint text = (units, fraction, rest) ∧
    exponentPart? rest = some exponent ∧ isWholePart units = true ∧ fraction ≠ some [] ∧
    ¬(fraction.isNone ∧ rest.isEmpty) ∧
    (ofDigits (units ++ fraction.getD []) : ℚ) * 10 ^ (exponent - (fraction.getD []).length) = n * 10 ^ k

/-- A numeral with a point or an exponent is read as the double of its decimal. -/
theorem ofUnsigned?_parts {negative : Bool} {text units rest : List Char} {fraction : Option (List Char)}
    {exponent : ℤ} {x : Float} (hpoint : takePoint text = (units, fraction, rest))
    (hexponent : exponentPart? rest = some exponent) (hwhole : isWholePart units = true) (hfraction : fraction ≠ some [])
    (hdouble : ¬(fraction.isNone ∧ rest.isEmpty))
    (hfloat : (ofParts negative units (fraction.getD []) exponent).toFloat = x) (hx : x.isFinite = true) :
    Number.ofUnsigned? negative text = some (.double x) := by
  have hcount : ¬(!isWholePart units) = true ∧ ¬fraction = some [] := ⟨by rw [hwhole]; decide, hfraction⟩
  unfold Number.ofUnsigned?
  rw [hpoint]
  dsimp only
  rw [hexponent]
  show (if (!isWholePart units) = true ∨ fraction = some [] then none else _) = _
  rw [if_neg (not_or.2 hcount), hfloat, if_neg (fun h => hdouble ⟨h.1, h.2.1⟩), if_neg (fun h => hdouble ⟨h.1, h.2.1⟩),
    if_pos hx]
  rfl

/-- What is spelled is read as the double that covers it. -/
theorem ofUnsigned?_double {text : List Char} {n : ℕ} {k : ℤ} (h : SpellsDouble text n k) (hn : 0 < n) {x : Float}
    (hx : x.isFinite = true) (hb : (Binary.ofFloat x).Regular)
    (hv : (Binary.ofFloat x).Covers (n * 10 ^ k / 2 ^ (Binary.ofFloat x).exponent)) :
    Number.ofUnsigned? (Binary.ofFloat x).negative text = some (.double x) := by
  obtain ⟨units, fraction, rest, exponent, hpoint, hexponent, hwhole, hfraction, hdouble, hvalue⟩ := h.reads
  rw [← hvalue] at hv
  -- the value is not zero, so that neither are the digits that spell it
  have hdigits : 0 < ofDigits (units ++ fraction.getD []) := by
    rw [Nat.pos_iff_ne_zero]
    intro hzero
    rw [hzero, Nat.cast_zero, zero_mul] at hvalue
    have hpos : (0 : ℚ) < n * 10 ^ k := by
      have : (0 : ℚ) < n := by exact_mod_cast hn
      positivity
    exact hpos.ne hvalue
  have hfloat := @toFloat_eq (ofParts (Binary.ofFloat x).negative units (fraction.getD []) exponent) _ hdigits hb hv
  exact ofUnsigned?_parts hpoint hexponent hwhole hfraction hdouble (hfloat.trans (Binary.toFloat_ofFloat hx hb)) hx

/-- Characters of a numeral with a digit at their head. -/
theorem isNumeral_of_all {text : List Char} (hne : text ≠ []) (hhead : ∀ c ∈ text.head?, c.isDigit = true)
    (hall : ∀ c ∈ text, Lexer.isNumeralChar c = true) : IsNumeral text := by
  cases text with
  | nil => exact absurd rfl hne
  | cons c text => exact ⟨Or.inl (hhead c rfl), fun d hd => hall d (List.mem_cons_of_mem _ hd)⟩

/-- A minus in front of a numeral makes a numeral. -/
theorem isNumeral_minus {text : List Char} (h : IsNumeral text) : IsNumeral ('-' :: text) := by
  cases text with
  | nil => exact h.elim
  | cons c text =>
    refine ⟨Or.inr rfl, fun d hd => ?_⟩
    rcases List.mem_cons.1 hd with rfl | hd
    · rcases h.1 with hc | rfl
      · exact isNumeralChar_of_isDigit hc
      · rfl
    · exact h.2 d hd

/-! ## §2. The parts of a numeral -/

/-- Digits, a point and digits are taken apart at the point. -/
theorem takePoint_point {units fraction rest : List Char} (hunits : ∀ c ∈ units, c.isDigit = true)
    (hfraction : ∀ c ∈ fraction, c.isDigit = true) (hrest : ∀ c ∈ rest.head?, c.isDigit = false) :
    takePoint (units ++ '.' :: (fraction ++ rest)) = (units, some fraction, rest) := by
  have hmark : ∀ c ∈ ('.' :: (fraction ++ rest)).head?, c.isDigit = false := head?_of_cons (by decide) _
  unfold takePoint
  rw [spanDigits_append hunits hmark]
  show (units, some (spanDigits (fraction ++ rest)).1, (spanDigits (fraction ++ rest)).2) = _
  rw [spanDigits_append hfraction hrest]

/-- A numeral may end after its fraction. -/
theorem takePoint_end {units fraction : List Char} (hunits : ∀ c ∈ units, c.isDigit = true)
    (hfraction : ∀ c ∈ fraction, c.isDigit = true) :
    takePoint (units ++ '.' :: fraction) = (units, some fraction, []) := by
  have hpoint := @takePoint_point _ _ [] hunits hfraction (fun c hc => by cases hc)
  rwa [List.append_nil] at hpoint

theorem isDigit_of_mem_zero {c : Char} (h : c ∈ ['0']) : c.isDigit = true := by
  rw [List.mem_singleton.1 h]
  rfl

/-- Digits without a point end where they do. -/
theorem takePoint_plain {units : List Char} (hunits : ∀ c ∈ units, c.isDigit = true) {c : Char} (hc : c.isDigit = false)
    (hpoint : c ≠ '.') (rest : List Char) : takePoint (units ++ c :: rest) = (units, none, c :: rest) := by
  have hmark : ∀ d ∈ (c :: rest).head?, d.isDigit = false := head?_of_cons hc rest
  unfold takePoint
  rw [spanDigits_append hunits hmark]
  dsimp only
  split
  next heq => exact absurd (List.cons.inj heq).1 hpoint
  next => rfl

/-- Digits that do not start with a zero are a whole part. -/
theorem isWholePart_cons {d : Char} (h : d ≠ '0') (ds : List Char) : isWholePart (d :: ds) = true := by
  unfold isWholePart
  split
  · rfl
  next heq => exact absurd (List.cons.inj heq).1 h
  · rfl

/-- An exponent with its sign. -/
theorem exponentPart?_signed (negative : Bool) (n : ℕ) :
    exponentPart? ('e' :: (if negative then '-' else '+') :: Nat.toDigits 10 n)
      = some (if negative then -(n : ℤ) else n) := by
  have hempty : (Nat.toDigits 10 n).isEmpty = false := by
    obtain ⟨d, ds, hds, -, -⟩ := toDigits_eq_cons n
    rw [hds]
    rfl
  have hguard : ¬((Nat.toDigits 10 n).isEmpty = true ∨ (!(Nat.toDigits 10 n).all Char.isDigit) = true) := by
    rw [hempty, all_isDigit_toDigits]
    decide
  cases negative with
  | true =>
    show (if _ then none else some (-(ofDigits (Nat.toDigits 10 n) : ℤ))) = _
    rw [if_neg hguard, ofDigits_toDigits]
    rfl
  | false =>
    show (if _ then none else some (ofDigits (Nat.toDigits 10 n) : ℤ)) = _
    rw [if_neg hguard, ofDigits_toDigits]
    rfl

/-! ## §3. The four layouts -/

section
variable {n : ℕ} {k : ℤ}

/-- The digits of a positive number, none of them a zero in front. -/
theorem exists_head (hn : 0 < n) : ∃ d ds, Nat.toDigits 10 n = d :: ds ∧ d ≠ '0' := by
  obtain ⟨d, ds, hds, hd, -⟩ := toDigits_eq_cons n
  exact ⟨d, ds, hds, hd hn⟩

theorem ne_minus {text : List Char} (h : ∀ c ∈ text.head?, c.isDigit = true) : text.head? ≠ some '-' := by
  intro hhead
  exact absurd (h '-' hhead) (by decide)

/-- Zeros up to the point, and one after it. -/
theorem spells_wide (hn : 0 < n) (hk : 0 ≤ k) :
    SpellsDouble (Nat.toDigits 10 n ++ List.replicate k.toNat '0' ++ ['.', '0']) n k := by
  obtain ⟨d, ds, hds, hd⟩ := exists_head hn
  have hunits : ∀ c ∈ Nat.toDigits 10 n ++ List.replicate k.toNat '0', c.isDigit = true := by
    intro c hc
    rcases List.mem_append.1 hc with hc | hc
    · exact isDigit_toDigits hc
    · exact isDigit_of_mem_zeros hc
  have hhead : ∀ c ∈ (Nat.toDigits 10 n ++ List.replicate k.toNat '0' ++ ['.', '0']).head?, c.isDigit = true := by
    rw [hds] at hunits ⊢
    exact head?_of_cons (hunits d List.mem_cons_self) _
  refine ⟨isNumeral_of_all (by simp) hhead ?_, ne_minus hhead,
    Nat.toDigits 10 n ++ List.replicate k.toNat '0', some ['0'], [], 0,
    takePoint_end hunits (fun c hc => isDigit_of_mem_zero hc), rfl, ?_, by decide, by decide, ?_⟩
  · intro c hc
    rcases List.mem_append.1 hc with hc | hc
    · exact isNumeralChar_of_isDigit (hunits c hc)
    · rcases List.mem_cons.1 hc with rfl | hc
      · rfl
      · exact isNumeralChar_of_isDigit (isDigit_of_mem_zero hc)
  · rw [hds]
    exact isWholePart_cons hd _
  · have hexp : (10 : ℚ) ^ k = 10 ^ k.toNat := by rw [← zpow_natCast, Int.toNat_of_nonneg hk]
    have hlast : ofDigits ['0'] = 0 := rfl
    have hdigits : ofDigits (Nat.toDigits 10 n ++ List.replicate k.toNat '0' ++ ['0']) = n * 10 ^ k.toNat * 10 := by
      rw [ofDigits_append, ofDigits_append, ofDigits_toDigits, ofDigits_zeros, List.length_replicate, hlast]
      rfl
    show (ofDigits (Nat.toDigits 10 n ++ List.replicate k.toNat '0' ++ ['0']) : ℚ) * 10 ^ (-1 : ℤ) = _
    rw [hdigits, hexp, zpow_neg_one]
    push_cast
    field_simp

/-- The point among the digits. -/
theorem spells_within (hn : 0 < n) {whole : ℕ} (hpos : 0 < whole) (hlt : whole < (Nat.toDigits 10 n).length)
    (hwhole : (whole : ℤ) = k + (Nat.toDigits 10 n).length) :
    SpellsDouble ((Nat.toDigits 10 n).take whole ++ '.' :: (Nat.toDigits 10 n).drop whole) n k := by
  obtain ⟨d, ds, hds, hd⟩ := exists_head hn
  have hunits : ∀ c ∈ (Nat.toDigits 10 n).take whole, c.isDigit = true := fun c hc =>
    isDigit_toDigits (List.mem_of_mem_take hc)
  have hfraction : ∀ c ∈ (Nat.toDigits 10 n).drop whole, c.isDigit = true := fun c hc =>
    isDigit_toDigits (List.mem_of_mem_drop hc)
  obtain ⟨w, rfl⟩ : ∃ w, whole = w + 1 := ⟨whole - 1, by omega⟩
  have htake : (Nat.toDigits 10 n).take (w + 1) = d :: ds.take w := by rw [hds, List.take_succ_cons]
  have hhead : ∀ c ∈ ((Nat.toDigits 10 n).take (w + 1) ++ '.' :: (Nat.toDigits 10 n).drop (w + 1)).head?,
      c.isDigit = true := by
    rw [htake] at hunits ⊢
    exact head?_of_cons (hunits d List.mem_cons_self) _
  refine ⟨isNumeral_of_all (by simp) hhead ?_, ne_minus hhead, _, _, _, 0, takePoint_end hunits hfraction, rfl, ?_, ?_,
    ?_, ?_⟩
  · intro c hc
    rcases List.mem_append.1 hc with hc | hc
    · exact isNumeralChar_of_isDigit (hunits c hc)
    · rcases List.mem_cons.1 hc with rfl | hc
      · rfl
      · exact isNumeralChar_of_isDigit (hfraction c hc)
  · rw [htake]
    exact isWholePart_cons hd _
  · intro h
    have hlength := congrArg List.length (Option.some.inj h)
    rw [List.length_drop, List.length_nil] at hlength
    omega
  · rintro ⟨h, -⟩
    cases h
  · have hexp : (0 : ℤ) - ((Nat.toDigits 10 n).drop (w + 1)).length = k := by
      rw [List.length_drop]
      omega
    show (ofDigits ((Nat.toDigits 10 n).take (w + 1) ++ (Nat.toDigits 10 n).drop (w + 1)) : ℚ)
      * 10 ^ ((0 : ℤ) - ((Nat.toDigits 10 n).drop (w + 1)).length) = _
    rw [List.take_append_drop, ofDigits_toDigits, hexp]

/-- Zeros after the point. -/
theorem spells_narrow (zeros : ℕ) (hk : -(k + (Nat.toDigits 10 n).length) = zeros) :
    SpellsDouble ('0' :: '.' :: List.replicate zeros '0' ++ Nat.toDigits 10 n) n k := by
  have hfraction : ∀ c ∈ List.replicate zeros '0' ++ Nat.toDigits 10 n, c.isDigit = true := by
    intro c hc
    rcases List.mem_append.1 hc with hc | hc
    · exact isDigit_of_mem_zeros hc
    · exact isDigit_toDigits hc
  have hpoint := takePoint_end (fun c hc => isDigit_of_mem_zero hc) hfraction
  refine ⟨⟨Or.inl rfl, ?_⟩, by show some '0' ≠ some '-'; decide, _, _, _, 0, hpoint, rfl, rfl, ?_, ?_, ?_⟩
  · intro c hc
    rcases List.mem_cons.1 hc with rfl | hc
    · rfl
    · exact isNumeralChar_of_isDigit (hfraction c hc)
  · intro h
    have hlength := congrArg List.length (Option.some.inj h)
    have hpos : 0 < (Nat.toDigits 10 n).length := Nat.length_toDigits_pos
    rw [List.length_append, List.length_nil] at hlength
    omega
  · rintro ⟨h, -⟩
    cases h
  · have hexp : (0 : ℤ) - (List.replicate zeros '0' ++ Nat.toDigits 10 n).length = k := by
      rw [List.length_append, List.length_replicate]
      omega
    show (ofDigits (['0'] ++ (List.replicate zeros '0' ++ Nat.toDigits 10 n)) : ℚ)
      * 10 ^ ((0 : ℤ) - (List.replicate zeros '0' ++ Nat.toDigits 10 n).length) = _
    have hfront : ofDigits ['0'] = 0 := rfl
    rw [hexp, ofDigits_append, ofDigits_append, ofDigits_zeros, ofDigits_toDigits, hfront, Nat.zero_mul, Nat.zero_mul,
      Nat.zero_add, Nat.zero_add]

/-- The digits after the first one, with the point before them, or nothing. -/
def pointed : List Char → List Char
  | [] => []
  | rest => '.' :: rest

/-- A decimal with a point is made of characters of numerals. -/
theorem isNumeralChar_pointed {ds : List Char} (hds : ∀ c ∈ ds, c.isDigit = true) {c : Char} (hc : c ∈ pointed ds) :
    Lexer.isNumeralChar c = true := by
  cases ds with
  | nil => cases hc
  | cons d ds =>
    rcases List.mem_cons.1 hc with rfl | hc
    · rfl
    · exact isNumeralChar_of_isDigit (hds c hc)

/-- The mark of a power of ten, its sign and its digits. -/
def exponentText (leading : ℤ) : List Char :=
  (if leading < 0 then ['e', '-'] else ['e', '+']) ++ Nat.toDigits 10 leading.natAbs

/-- An exponent is written with its sign, whichever it is. -/
theorem exponentText_eq (leading : ℤ) : exponentText leading
    = 'e' :: (if decide (leading < 0) then '-' else '+') :: Nat.toDigits 10 leading.natAbs := by
  unfold exponentText
  by_cases h : leading < 0
  · rw [if_pos h, decide_eq_true h]
    rfl
  · rw [if_neg h, decide_eq_false h]
    rfl

/-- An exponent is read back from its text. -/
theorem exponentPart?_exponentText (leading : ℤ) : exponentPart? (exponentText leading) = some leading := by
  have hsigned : (if decide (leading < 0) = true then -(leading.natAbs : ℤ) else leading.natAbs) = leading := by
    by_cases h : leading < 0
    · rw [if_pos (decide_eq_true h)]
      omega
    · rw [if_neg (by rw [decide_eq_true_eq]; exact h)]
      omega
  rw [exponentText_eq, exponentPart?_signed, hsigned]

/-- An exponent is made of characters of numerals. -/
theorem isNumeralChar_exponentText {leading : ℤ} {c : Char} (hc : c ∈ exponentText leading) :
    Lexer.isNumeralChar c = true := by
  rw [exponentText_eq] at hc
  rcases List.mem_cons.1 hc with rfl | hc
  · rfl
  rcases List.mem_cons.1 hc with rfl | hc
  · split <;> rfl
  · exact isNumeralChar_of_isDigit (isDigit_toDigits hc)

/-- One digit, the others behind a point if there are any, and a power of ten. -/
theorem takePoint_pointed {d : Char} {ds : List Char} (hd : d.isDigit = true) (hds : ∀ c ∈ ds, c.isDigit = true)
    (leading : ℤ) : ∃ fraction, takePoint (d :: (pointed ds ++ exponentText leading))
        = ([d], fraction, exponentText leading) ∧ fraction ≠ some [] ∧ fraction.getD [] = ds := by
  have hunits : ∀ c ∈ [d], c.isDigit = true := by
    intro c hc
    rw [List.mem_singleton.1 hc]
    exact hd
  rw [exponentText_eq]
  cases ds with
  | nil => exact ⟨none, takePoint_plain hunits rfl (by decide) _, by decide, rfl⟩
  | cons e ds =>
    exact ⟨some (e :: ds), takePoint_point hunits hds (head?_of_cons (by decide) _),
      fun h => List.cons_ne_nil _ _ (Option.some.inj h), rfl⟩

/-- One digit before the point, and a power of ten. -/
theorem spells_scientific (hn : 0 < n) {leading : ℤ} (hleading : leading = k + (Nat.toDigits 10 n).length - 1) :
    SpellsDouble ((Nat.toDigits 10 n).take 1 ++ pointed ((Nat.toDigits 10 n).drop 1) ++
      (if leading < 0 then ['e', '-'] else ['e', '+']) ++ Nat.toDigits 10 leading.natAbs) n k := by
  obtain ⟨d, ds, hds, hd⟩ := exists_head hn
  have hfirst : d.isDigit = true := isDigit_toDigits (by rw [hds]; exact List.mem_cons_self)
  have hrest : ∀ c ∈ ds, c.isDigit = true := fun c hc => isDigit_toDigits (by rw [hds]; exact List.mem_cons_of_mem _ hc)
  have htext : (Nat.toDigits 10 n).take 1 ++ pointed ((Nat.toDigits 10 n).drop 1) ++
      (if leading < 0 then ['e', '-'] else ['e', '+']) ++ Nat.toDigits 10 leading.natAbs
      = d :: (pointed ds ++ exponentText leading) := by
    rw [List.append_assoc _ _ (Nat.toDigits 10 leading.natAbs), hds]
    rfl
  have hspelled : (ofDigits ([d] ++ ds) : ℚ) = n := by
    rw [List.singleton_append, ← hds, ofDigits_toDigits]
  -- the point stands after the first digit, and the power of ten makes up for that
  have hplaces : leading - (ds.length : ℤ) = k := by
    rw [hds, List.length_cons] at hleading
    push_cast at hleading
    omega
  obtain ⟨fraction, hpoint, hne, hdigits⟩ := takePoint_pointed hfirst hrest leading
  rw [htext]
  refine ⟨⟨Or.inl hfirst, ?_⟩, ne_minus (head?_of_cons hfirst _), [d], fraction, exponentText leading, leading, hpoint,
    exponentPart?_exponentText leading, isWholePart_cons hd [], hne, ?_, ?_⟩
  · intro c hc
    rcases List.mem_append.1 hc with hc | hc
    · exact isNumeralChar_pointed hrest hc
    · exact isNumeralChar_exponentText hc
  · rintro ⟨-, h⟩
    rw [exponentText_eq] at h
    cases h
  · rw [hdigits, hspelled, hplaces]

end

/-! ## §4. Every double is read back -/

/-- The layout that is chosen for the digits `n` with the power `k`. -/
def body (n : ℕ) (k : ℤ) : List Char :=
  let ds := Nat.toDigits 10 n
  let leading := k + ds.length - 1
  if Shortest.positional.1 ≤ leading ∧ leading ≤ Shortest.positional.2 then
    if 0 ≤ k then ds ++ List.replicate k.toNat '0' ++ ['.', '0']
    else if 0 ≤ leading then ds.take (leading + 1).toNat ++ '.' :: ds.drop (leading + 1).toNat
    else '0' :: '.' :: List.replicate (-leading - 1).toNat '0' ++ ds
  else ds.take 1 ++ pointed (ds.drop 1) ++ (if leading < 0 then ['e', '-'] else ['e', '+']) ++
    Nat.toDigits 10 leading.natAbs

/-- **Each layout is read as the value it shows.** -/
theorem spells_body {n : ℕ} (hn : 0 < n) (k : ℤ) : SpellsDouble (body n k) n k := by
  have hlength : 0 < (Nat.toDigits 10 n).length := Nat.length_toDigits_pos
  unfold body
  dsimp only
  -- by the place of the leading digit, and then by where the point falls among the digits
  split
  · split
    case isTrue hk => exact spells_wide hn hk
    case isFalse hk =>
      split
      case isTrue hleading => exact spells_within hn (by omega) (by omega) (by omega)
      case isFalse hleading => exact spells_narrow _ (by omega)
  · exact spells_scientific hn rfl

/-- A double that is no zero is written as its sign and the digits found for its size. -/
theorem write_of_ne_zero {x : Float} (hm : (Binary.ofFloat x).mantissa ≠ 0) :
    Shortest.write x = (if (Binary.ofFloat x).negative then ['-'] else []) ++
      body (Shortest.digits (Binary.ofFloat x)).1 (Shortest.digits (Binary.ofFloat x)).2 := by
  unfold Shortest.write
  dsimp only
  rw [if_neg hm]
  rfl

/-- Zero is finite, with either sign. -/
theorem isFinite_zero (negative : Bool) : (zero negative).isFinite = true := by
  revert negative
  decide +kernel

theorem isNumeral_zero : IsNumeral ['0', '.', '0'] := by
  refine ⟨Or.inl rfl, fun c hc => ?_⟩
  rcases List.mem_cons.1 hc with rfl | hc
  · rfl
  · exact isNumeralChar_of_isDigit (isDigit_of_mem_zero hc)

/-- Zero is read back with the sign that it is read with. -/
theorem ofUnsigned?_zero (negative : Bool) :
    Number.ofUnsigned? negative ['0', '.', '0'] = some (.double (zero negative)) := by
  have hpoint : takePoint ['0', '.', '0'] = (['0'], some ['0'], []) :=
    takePoint_end (fun c hc => isDigit_of_mem_zero hc) (fun c hc => isDigit_of_mem_zero hc)
  exact ofUnsigned?_parts hpoint rfl rfl (by decide) (by decide) (toFloat_zero rfl) (isFinite_zero negative)

/-- A double without a mantissa is one of the two zeros. -/
theorem eq_zero {x : Float} (hx : x.isFinite = true) (hm : (Binary.ofFloat x).mantissa = 0) :
    x = zero (Binary.ofFloat x).negative := by
  have hzero : ∀ negative : Bool, Float.ofModel (.pack (.zero (if negative then .negative else .positive)))
      = zero negative := by decide +kernel
  have h := Binary.ofModel_pack_unpack x
  rw [Binary.unpack_eq hx, Binary.unpacked_zero hm] at h
  exact h.symm.trans (hzero _)

/-- The numeral of a double: its sign, and a text that reads back. -/
theorem write_eq {x : Float} (hx : x.isFinite = true) : ∃ text,
    Shortest.write x = (if (Binary.ofFloat x).negative then ['-'] else []) ++ text ∧ IsNumeral text ∧
      text.head? ≠ some '-' ∧ Number.ofUnsigned? (Binary.ofFloat x).negative text = some (.double x) := by
  by_cases hm : (Binary.ofFloat x).mantissa = 0
  · -- zero has its own text, of either sign
    refine ⟨['0', '.', '0'], if_pos hm, isNumeral_zero, by show some '0' ≠ some '-'; decide, ?_⟩
    rw [ofUnsigned?_zero, ← eq_zero hx hm]
  · have hb := Binary.regular_ofFloat hx hm
    obtain ⟨hpos, hcovers⟩ := Shortest.digits_covers hb
    have hspells := spells_body hpos (Shortest.digits (Binary.ofFloat x)).2
    exact ⟨_, write_of_ne_zero hm, hspells.numeral, hspells.plain, ofUnsigned?_double hspells hpos hx hb hcovers⟩

/-- **A double is read from its numeral.** -/
theorem ofText?_double {x : Float} (hx : x.isFinite = true) : Number.ofText? (Shortest.write x) = some (.double x) := by
  obtain ⟨text, hwrite, -, hplain, hreads⟩ := write_eq hx
  rw [hwrite]
  cases hsign : (Binary.ofFloat x).negative with
  | true =>
    rw [hsign] at hreads
    exact (ofText?_minus text).trans hreads
  | false =>
    rw [hsign] at hreads
    exact (ofText?_plain hplain).trans hreads

/-- **Every finite double is written as a numeral.** -/
theorem isNumeral_double {x : Float} (hx : x.isFinite = true) : IsNumeral (Shortest.write x) := by
  obtain ⟨text, hwrite, hnumeral, -, -⟩ := write_eq hx
  rw [hwrite]
  cases (Binary.ofFloat x).negative with
  | true => exact isNumeral_minus hnumeral
  | false => exact hnumeral

end HomeWidget.Json
