import HomeWidget.Proofs.Number.Value

/-!
# Arithmetic without rounding

A sum or a difference of doubles that is the value of a double is computed exactly. Values of doubles are all multiples
of a place by less than 53 bits, and so whole numbers of less than 53 bits, and their halves, are added and subtracted
as numbers are.

Main results: `representable_mul_zpow`, `exactly_add`, `exactly_sub`, `exactly_ofNat`.
-/
namespace HomeWidget.Double

open Float.Model UnpackedFloat

variable {x y : Float} {u v : UnpackedFloat} {p q : ℚ}

/-! ## §1. Values of doubles -/

/-- There is a double of this value. -/
def Representable (q : ℚ) : Prop := q = 0 ∨ ∃ b : Binary, b.Regular ∧ b.size = |q|

/-- What is a double is one with the other sign too. -/
theorem Representable.neg (h : Representable q) : Representable (-q) := by
  unfold Representable at h ⊢
  rwa [neg_eq_zero, abs_neg]

/-- A mantissa below 53 bits is that of a double, once its first bit is moved to the front, or as far as there are
places. -/
theorem exists_regular {n : ℕ} {e : ℤ} (hpos : 0 < n) (hlt : n < 2 ^ 53) (hlow : -1074 ≤ e) (hhigh : e ≤ 971) :
    ∃ b : Binary, b.Regular ∧ b.size = n * 2 ^ e := by
  have hlog := Rounding.log2_le hpos hlt
  obtain ⟨shift, hshift⟩ : ∃ shift : ℕ, shift = min (52 - n.log2) (e + 1074).toNat := ⟨_, rfl⟩
  have hless : n * 2 ^ shift < 2 ^ 53 := by
    calc n * 2 ^ shift < 2 ^ (n.log2 + 1) * 2 ^ shift :=
          Nat.mul_lt_mul_of_pos_right Nat.lt_log2_self (Nat.two_pow_pos _)
      _ = 2 ^ (n.log2 + 1 + shift) := (Nat.pow_add _ _ _).symm
      _ ≤ 2 ^ 53 := Nat.pow_le_pow_right two_pos (by omega)
  have hfull : e - shift = -1074 ∨ 2 ^ 52 ≤ n * 2 ^ shift := by
    by_cases hplaces : shift = 52 - n.log2
    · right
      calc 2 ^ 52 = 2 ^ n.log2 * 2 ^ shift := by
            rw [← Nat.pow_add]
            congr 1
            omega
        _ ≤ n * 2 ^ shift := Nat.mul_le_mul_right _ (Nat.log2_self_le hpos.ne')
    · left
      omega
  refine ⟨⟨false, n * 2 ^ shift, e - shift⟩, ⟨Nat.mul_pos hpos (Nat.two_pow_pos _), hless, ?_, ?_, hfull⟩, ?_⟩
  · show -1074 ≤ e - shift
    omega
  · show e - shift ≤ 971
    omega
  · have hplace : (2 : ℚ) ^ shift ≠ 0 := by positivity
    unfold Binary.size
    dsimp only
    rw [zpow_sub₀ two_ne_zero, zpow_natCast]
    push_cast
    field_simp

/-- Below 53 bits there is a double for every multiple of a place. -/
theorem representable_mul_zpow {k : ℤ} {e : ℤ} (hk : |k| < 2 ^ 53) (hlow : -1074 ≤ e) (hhigh : e ≤ 971) :
    Representable (k * 2 ^ e) := by
  by_cases hzero : k = 0
  · left
    rw [hzero, Int.cast_zero, zero_mul]
  · right
    have hlt : k.natAbs < 2 ^ 53 := by
      rw [Int.abs_eq_natAbs] at hk
      exact_mod_cast hk
    obtain ⟨b, hb, hsize⟩ := exists_regular (Int.natAbs_pos.2 hzero) hlt hlow hhigh
    refine ⟨b, hb, ?_⟩
    rw [hsize, abs_mul, abs_of_pos (zpow_pos (two_pos : (0 : ℚ) < 2) e), Nat.cast_natAbs, Int.cast_abs]

/-- Below 53 bits there is a double for every whole number. -/
theorem representable_intCast {k : ℤ} (hk : |k| < 2 ^ 53) : Representable k := by
  have h := representable_mul_zpow hk (show (-1074 : ℤ) ≤ 0 by decide) (by decide)
  rwa [zpow_zero, mul_one] at h

/-! ## §2. Rounding what needs none -/

/-- A shift to the left that the exponent makes up for leaves the place of the first bit. -/
theorem totalExponent_shiftLeft {m : ℕ} (hm : 0 < m) (e : ℤ) (k : ℕ) :
    totalExponent (m <<< k) (e - k) = totalExponent m e := by
  have hlog : (m <<< k).log2 = m.log2 + k := by
    rw [Nat.shiftLeft_eq, Nat.log2_eq_iff (Nat.mul_pos hm (Nat.two_pow_pos k)).ne']
    constructor
    · rw [Nat.pow_add]
      exact Nat.mul_le_mul_right _ (Nat.log2_self_le hm.ne')
    · rw [Nat.add_right_comm, Nat.pow_add]
      exact Nat.mul_lt_mul_of_pos_right Nat.lt_log2_self (Nat.two_pow_pos k)
  unfold totalExponent
  omega

/-- A value of a double is rounded to itself. -/
theorem round_eq {b : Binary} (hb : b.Regular) (s : Sign) {m : ℕ} {e : ℤ} (hm : 0 < m) (h : m * 2 ^ e = b.size) :
    UnpackedFloat.round .binary64 s m e = .finite s b.mantissa b.exponent hb.pos := by
  unfold UnpackedFloat.round decreaseExponent
  dsimp only
  generalize htarget : Format.binary64.targetExponent (totalExponent m e) = t
  generalize hk : (e - t).toNat = k
  have hvalue : b.size / 2 ^ (e - k) = ((m <<< k : ℕ) : ℚ) := by
    rw [← h, Nat.shiftLeft_eq, zpow_sub₀ two_ne_zero, zpow_natCast]
    have hplace : (2 : ℚ) ^ e ≠ 0 := zpow_ne_zero _ two_ne_zero
    push_cast
    field_simp
  refine Rounding.roundWithAccuracy_eq hb (v := b.size) ?_ ?_ ?_
  · unfold Binary.size
    rw [mul_div_cancel_right₀ _ (zpow_ne_zero _ two_ne_zero)]
    exact b.covers_self
  · rw [hvalue]
    exact Rounding.keeps_exact _
  · rw [totalExponent_shiftLeft hm, htarget]
    omega

/-- **Rounding leaves what is a double as it is.** -/
theorem holds_round (s : Sign) {m : ℕ} {e : ℤ} (hm : 0 < m) (h : Representable (m * 2 ^ e)) :
    Holds (UnpackedFloat.round .binary64 s m e) (signed s (m * 2 ^ e)) := by
  have hpos : (0 : ℚ) < m * 2 ^ e := mul_pos (by exact_mod_cast hm) (zpow_pos two_pos e)
  obtain ⟨b, hb, hsize⟩ := h.resolve_left hpos.ne'
  rw [abs_of_pos hpos] at hsize
  rw [round_eq hb s hm hsize.symm, ← hsize]
  exact .regular s hb

/-- A whole number of places that is a value of a double is rounded to it. -/
theorem holds_normalize {k : ℤ} {e : ℤ} (h : Representable (k * 2 ^ e)) (s : Sign) :
    Holds (UnpackedFloat.normalize .binary64 k e s) (k * 2 ^ e) := by
  unfold UnpackedFloat.normalize
  rcases lt_trichotomy k 0 with hk | rfl | hk
  · obtain ⟨m, rfl⟩ : ∃ m : ℕ, k = -(m : ℤ) := ⟨k.natAbs, by omega⟩
    have hvalue : ((-(m : ℤ) : ℤ) : ℚ) * 2 ^ e = signed .negative (m * 2 ^ e) := by
      rw [Int.cast_neg, Int.cast_natCast, neg_mul]
      rfl
    rw [hvalue] at h ⊢
    have hsize : Representable ((m : ℚ) * 2 ^ e) := by
      have hneg := h.neg
      rwa [signed, neg_neg] at hneg
    rw [compare_lt_iff_lt.2 hk]
    dsimp only
    rw [neg_neg, Int.toNat_natCast]
    exact holds_round .negative (by omega) hsize
  · rw [compare_eq_iff_eq.2 rfl, Int.cast_zero, zero_mul]
    exact .zero s
  · obtain ⟨m, rfl⟩ := Int.eq_ofNat_of_zero_le hk.le
    rw [Int.cast_natCast] at h ⊢
    rw [compare_gt_iff_gt.2 hk]
    exact holds_round .positive (by omega) h

/-! ## §3. Negation, sums and differences -/

/-- What is packed has the value of the double. -/
theorem exactly_pack (h : Holds u q) : Exactly (.ofModel (.pack u)) q := by
  rw [exactly_iff]
  cases h with
  | zero s =>
    have hunpack : (Float.Model.pack (.zero s)).unpack = .zero s := by
      cases s <;> rfl
    show Holds (Float.Model.pack (.zero s)).unpack 0
    rw [hunpack]
    exact .zero s
  | regular s hb =>
    show Holds (Float.Model.pack _).unpack _
    rw [Binary.unpack_pack hb s]
    exact .regular s hb

/-- Negation is exact. -/
theorem Holds.neg (h : Holds u q) : Holds u.neg (-q) := by
  cases h with
  | zero s =>
    rw [neg_zero]
    exact .zero _
  | regular s hb =>
    have hsigned (r : ℚ) : -signed s r = signed (-s) r := by
      cases s with
      | positive => rfl
      | negative => exact neg_neg r
    rw [hsigned]
    exact .regular (-s) hb

/-- The negation of a double is exact. -/
theorem exactly_neg (h : Exactly x q) : Exactly (-x) (-q) := exactly_pack (exactly_iff.1 h).neg

/-- A mantissa that is written in smaller places. -/
theorem signed_decreaseExponent (s : Sign) (m : ℕ) {e t : ℤ} (h : t ≤ e) :
    ((s.apply ((decreaseExponent m e t).1 : ℤ) : ℤ) : ℚ) * 2 ^ t = signed s (m * 2 ^ e) := by
  have hexp : ((e - t).toNat : ℤ) = e - t := Int.toNat_of_nonneg (by omega)
  have hvalue : (((decreaseExponent m e t).1 : ℕ) : ℚ) * 2 ^ t = m * 2 ^ e := by
    unfold decreaseExponent
    dsimp only
    rw [Nat.shiftLeft_eq, Nat.cast_mul, Nat.cast_pow, Nat.cast_ofNat, ← zpow_natCast, hexp, mul_assoc,
      ← zpow_add₀ two_ne_zero, sub_add_cancel]
  cases s with
  | positive => exact hvalue
  | negative =>
    show ((-((decreaseExponent m e t).1 : ℤ) : ℤ) : ℚ) * 2 ^ t = -(m * 2 ^ e)
    rw [Int.cast_neg, neg_mul, Int.cast_natCast, hvalue]

/-- A sum that is a double is exact. -/
theorem Holds.add (hu : Holds u p) (hv : Holds v q) (h : Representable (p + q)) :
    Holds (UnpackedFloat.add .binary64 u v) (p + q) := by
  cases hu with
  | zero s =>
    cases hv with
    | zero t =>
      rw [add_zero]
      unfold UnpackedFloat.add
      dsimp only
      split
      · exact .zero _
      · exact .zero _
    | regular t hc =>
      rw [zero_add]
      exact .regular t hc
  | regular s hb =>
    cases hv with
    | zero t =>
      rw [add_zero]
      exact .regular s hb
    | @regular t c hc =>
      rename_i b
      -- both mantissas are written in the places of the smaller exponent
      have hsum : ((s.apply ((decreaseExponent b.mantissa b.exponent (min b.exponent c.exponent)).1 : ℤ)
            + t.apply ((decreaseExponent c.mantissa c.exponent (min b.exponent c.exponent)).1 : ℤ) : ℤ) : ℚ)
            * 2 ^ min b.exponent c.exponent = signed s b.size + signed t c.size := by
        rw [Int.cast_add, add_mul, signed_decreaseExponent s _ (min_le_left _ _),
          signed_decreaseExponent t _ (min_le_right _ _)]
        rfl
      rw [← hsum] at h ⊢
      exact holds_normalize h .positive

/-- A difference is the sum with the negated double. -/
theorem sub_eq_add (u v : UnpackedFloat) :
    UnpackedFloat.sub .binary64 u v = UnpackedFloat.add .binary64 u v.neg := by
  cases u with
  | finite s m e hm =>
    cases v with
    | finite t n f hn =>
      have hsign (k : ℤ) (l : ℤ) : k - t.apply l = k + (-t).apply l := by
        cases t with
        | positive => exact Int.sub_eq_add_neg
        | negative => exact Int.sub_neg k l
      unfold UnpackedFloat.sub UnpackedFloat.add UnpackedFloat.neg
      dsimp only
      rw [hsign]
    | zero t => rfl
    | infinity t => rfl
    | notANumber => rfl
  | zero s => cases v <;> rfl
  | infinity s => cases v <;> rfl
  | notANumber => cases v <;> rfl

/-- **A sum that is the value of a double is exact.** -/
theorem exactly_add (hx : Exactly x p) (hy : Exactly y q) (h : Representable (p + q)) : Exactly (x + y) (p + q) :=
  exactly_pack ((exactly_iff.1 hx).add (exactly_iff.1 hy) h)

/-- **A difference that is the value of a double is exact.** -/
theorem exactly_sub (hx : Exactly x p) (hy : Exactly y q) (h : Representable (p - q)) : Exactly (x - y) (p - q) := by
  rw [sub_eq_add_neg] at h ⊢
  refine exactly_pack ?_
  rw [sub_eq_add]
  exact (exactly_iff.1 hx).add (exactly_iff.1 hy).neg h

/-! ## §4. Whole numbers and halves -/

/-- **Below 53 bits the double of a count is exact.** -/
theorem exactly_ofNat {n : ℕ} (h : n < 2 ^ 53) : Exactly (Float.ofNat n) n := by
  by_cases hn : 0 < n
  · have hregular := Rounding.regular_wholeParts hn h
    have hsize := Rounding.size_wholeParts n
    have hcovers : (Rounding.wholeParts n).Covers
        (n * 10 ^ Rounding.scale false 0 / 2 ^ (Rounding.wholeParts n).exponent) := by
      have hvalue : (n : ℚ) * 10 ^ Rounding.scale false 0 = (Rounding.wholeParts n).size := by
        show (n : ℚ) * 10 ^ ((0 : ℕ) : ℤ) = _
        rw [Nat.cast_zero, zpow_zero, mul_one, hsize]
      rw [hvalue]
      unfold Binary.size
      rw [mul_div_cancel_right₀ _ (zpow_ne_zero _ two_ne_zero)]
      exact (Rounding.wholeParts n).covers_self
    have hfloat : Float.ofNat n = hregular.toFloat .positive := Rounding.ofScientific_eq hn false 0 hregular hcovers
    rw [exactly_iff, hfloat, hregular.unpack_toFloat, ← hsize]
    exact .regular .positive hregular
  · obtain rfl : n = 0 := Nat.eq_zero_of_not_pos hn
    refine ⟨by decide +kernel, ?_⟩
    have hparts : Binary.ofFloat (Float.ofNat 0) = ⟨false, 0, -1074⟩ := by decide +kernel
    rw [hparts]
    simp [Binary.value, Binary.size]

/-- Zero is exact, and so are one and a half. -/
theorem exactly_zero : Exactly 0.0 0 := by
  refine ⟨by decide +kernel, ?_⟩
  have hparts : Binary.ofFloat 0.0 = ⟨false, 0, -1074⟩ := by decide +kernel
  rw [hparts]
  simp [Binary.value, Binary.size]

theorem exactly_one : Exactly 1.0 1 := by
  refine ⟨by decide +kernel, ?_⟩
  have hparts : Binary.ofFloat 1.0 = ⟨false, 2 ^ 52, -52⟩ := by decide +kernel
  rw [hparts]
  norm_num [Binary.value, Binary.size]

theorem exactly_half : Exactly 0.5 (1 / 2) := by
  refine ⟨by decide +kernel, ?_⟩
  have hparts : Binary.ofFloat 0.5 = ⟨false, 2 ^ 52, -53⟩ := by decide +kernel
  rw [hparts]
  norm_num [Binary.value, Binary.size]

end HomeWidget.Double
