import HomeWidget.Proofs.Number.Rounding

/-!
# Doubles taken apart and put together

A finite double is the parts that are read off its bits, and no two doubles have the same parts. The parts of a double
other than zero are those that rounding aims at.

Main results: `unpack_eq`, `regular_ofFloat`, `unpack_pack`.
-/
namespace HomeWidget.Binary

open Float.Model UnpackedFloat

/-! ## §1. The fields of a double -/

/-- The sign of a double. -/
def sign (b : Binary) : Sign := if b.negative then .negative else .positive

/-- The parts as the arithmetic of doubles has them. -/
def unpacked (b : Binary) : UnpackedFloat :=
  if h : 0 < b.mantissa then .finite b.sign b.mantissa b.exponent h else .zero b.sign

/-- A double with a mantissa is taken apart as a finite one. -/
theorem unpacked_of_pos {b : Binary} (h : 0 < b.mantissa) : b.unpacked = .finite b.sign b.mantissa b.exponent h :=
  dif_pos h

/-- A double without a mantissa is taken apart as a zero. -/
theorem unpacked_zero {b : Binary} (h : b.mantissa = 0) : b.unpacked = .zero b.sign := by
  apply dif_neg
  rw [h]
  exact lt_irrefl 0

variable (bits : BitVec Format.binary64.numBits)

/-- The mantissa is in the lowest 52 bits. -/
theorem toNat_unpackMantissa : (unpackMantissa bits).toNat = bits.toNat % 2 ^ 52 := by
  rw [unpackMantissa_def, BitVec.extractLsb'_toNat]
  rfl

/-- The exponent is in the eleven bits above the mantissa. -/
theorem toNat_unpackExponent : (unpackExponent bits).toNat = bits.toNat / 2 ^ 52 % 2 ^ 11 := by
  rw [unpackExponent_def, BitVec.extractLsb'_toNat, Nat.shiftRight_eq_div_pow]

/-- The sign is in the highest bit. -/
theorem ofBitVec_unpackSign :
    Sign.ofBitVec (unpackSign bits) = if bits.toNat / 2 ^ 63 = 1 then .negative else .positive := by
  have hlt : bits.toNat / 2 ^ 63 < 2 := by
    have := bits.isLt
    rw [Nat.div_lt_iff_lt_mul (Nat.two_pow_pos 63)]
    exact this
  have hsign : (unpackSign bits).toNat = bits.toNat / 2 ^ 63 := by
    rw [unpackSign_def, BitVec.extractLsb'_toNat, Nat.shiftRight_eq_div_pow]
    exact Nat.mod_eq_of_lt hlt
  -- the sign is the one bit above all others
  unfold Sign.ofBitVec
  rcases (show bits.toNat / 2 ^ 63 = 0 ∨ bits.toNat / 2 ^ 63 = 1 by omega) with h | h
  · have hzero : unpackSign bits = 0#1 := BitVec.eq_of_toNat_eq (hsign.trans h)
    rw [if_pos hzero, h]
    rfl
  · have hone : unpackSign bits ≠ 0#1 := by
      intro hzero
      rw [hzero, h] at hsign
      exact absurd hsign (by decide)
    rw [if_neg hone, if_pos h]

/-- The bits of a mantissa with the hidden one before them. -/
theorem toNat_hidden : (1#1 ++ unpackMantissa bits).toNat = bits.toNat % 2 ^ 52 + 2 ^ 52 := by
  have hlt : bits.toNat % 2 ^ 52 < 2 ^ 52 := Nat.mod_lt _ (Nat.two_pow_pos 52)
  rw [BitVec.toNat_append, toNat_unpackMantissa]
  -- the hidden bit and the others have no place in common, so that they may be added
  show (1 <<< 52 ||| bits.toNat % 2 ^ 52) = _
  rw [← Nat.shiftLeft_add_eq_or_of_lt hlt, Nat.one_shiftLeft, Nat.add_comm]

/-! ## §2. Doubles taken apart -/

/-- The sign of bits, as their parts have it. -/
def signOf (n : ℕ) : Sign := if n / 2 ^ 63 = 1 then .negative else .positive

/-- A double with a normal exponent has a mantissa with the hidden bit. -/
theorem unpack_normal (hexp : bits.toNat / 2 ^ 52 % 2 ^ 11 ≠ 2047) (hzero : bits.toNat / 2 ^ 52 % 2 ^ 11 ≠ 0) :
    unpack .binary64 bits = .finite (signOf bits.toNat) (bits.toNat % 2 ^ 52 + 2 ^ 52)
      ((bits.toNat / 2 ^ 52 % 2 ^ 11 : ℕ) - 1075) (by omega) := by
  rw [← toNat_unpackExponent] at hexp hzero
  have hexp' : unpackExponent bits ≠ -1#11 := by
    intro h
    rw [h] at hexp
    exact hexp rfl
  have hzero' : unpackExponent bits ≠ 0#11 := by
    intro h
    rw [h] at hzero
    exact hzero rfl
  unfold UnpackedFloat.unpack signOf
  dsimp only
  rw [if_neg hexp', if_neg hzero']
  congr 1
  · exact ofBitVec_unpackSign bits
  · exact toNat_hidden bits
  · rw [toNat_unpackExponent]
    rfl

/-- Without an exponent there is no hidden bit. -/
theorem unpack_subnormal (hexp : bits.toNat / 2 ^ 52 % 2 ^ 11 = 0) (hpos : 0 < bits.toNat % 2 ^ 52) :
    unpack .binary64 bits = .finite (signOf bits.toNat) (bits.toNat % 2 ^ 52) (-1074) hpos := by
  rw [← toNat_unpackExponent] at hexp
  have hexp' : unpackExponent bits = 0#11 := BitVec.eq_of_toNat_eq hexp
  have hpos' : unpackMantissa bits ≠ 0#52 := by
    intro h
    rw [← toNat_unpackMantissa, h] at hpos
    exact absurd hpos (by decide)
  unfold UnpackedFloat.unpack signOf
  dsimp only
  rw [if_neg (by rw [hexp']; decide), if_pos hexp', dif_neg hpos']
  congr 1
  · exact ofBitVec_unpackSign bits
  · rw [hexp']
    rfl

/-- Without an exponent and without a mantissa a double is a zero. -/
theorem unpack_zero (hexp : bits.toNat / 2 ^ 52 % 2 ^ 11 = 0) (hzero : bits.toNat % 2 ^ 52 = 0) :
    unpack .binary64 bits = .zero (signOf bits.toNat) := by
  rw [← toNat_unpackExponent] at hexp
  rw [← toNat_unpackMantissa] at hzero
  have hexp' : unpackExponent bits = 0#11 := BitVec.eq_of_toNat_eq hexp
  have hzero' : unpackMantissa bits = 0#52 := BitVec.eq_of_toNat_eq hzero
  unfold UnpackedFloat.unpack signOf
  dsimp only
  rw [if_neg (by rw [hexp']; decide), if_pos hexp', dif_pos hzero', ofBitVec_unpackSign]

/-- The greatest exponent field is that of the doubles that are not finite. -/
theorem isFinite_unpack (h : bits.toNat / 2 ^ 52 % 2 ^ 11 = 2047) : (unpack .binary64 bits).isFinite = false := by
  rw [← toNat_unpackExponent] at h
  have hexp : unpackExponent bits = -1#11 := BitVec.eq_of_toNat_eq h
  unfold UnpackedFloat.unpack
  dsimp only
  rw [if_pos hexp]
  split <;> rfl

variable {x : Float}

/-- A finite double does not have the exponent of the infinities. -/
theorem exponent_ne (hx : x.isFinite = true) : x.toBits.toNat / 2 ^ 52 % 2 ^ 11 ≠ 2047 := by
  intro h
  have hfalse : x.isFinite = false := isFinite_unpack x.toBits.toBitVec h
  rw [hx] at hfalse
  cases hfalse

theorem sign_ofFloat (x : Float) : (ofFloat x).sign = signOf x.toBits.toNat := by
  have hnegative : (ofFloat x).negative = decide (x.toBits.toNat / 2 ^ 63 = 1) := by
    unfold ofFloat
    dsimp only
    split <;> rfl
  unfold sign signOf
  rw [hnegative]
  by_cases h : x.toBits.toNat / 2 ^ 63 = 1
  · rw [if_pos h, if_pos (decide_eq_true h)]
  · rw [if_neg h, decide_eq_false h]
    rfl

/-- **A finite double unpacks to its parts.** -/
theorem unpack_eq (hx : x.isFinite = true) : x.toModel.unpack = (ofFloat x).unpacked := by
  have hexp := exponent_ne hx
  -- the least exponent field is that of the subnormal doubles and of zero, the others have a hidden bit
  by_cases hzero : x.toBits.toNat / 2 ^ 52 % 2 ^ 11 = 0
  · have hparts : ofFloat x = ⟨x.toBits.toNat / 2 ^ 63 = 1, x.toBits.toNat % 2 ^ 52, -1074⟩ := if_pos hzero
    by_cases hm : 0 < x.toBits.toNat % 2 ^ 52
    · have hm' : 0 < (ofFloat x).mantissa := by
        rw [hparts]
        exact hm
      rw [unpacked_of_pos hm', sign_ofFloat]
      refine (unpack_subnormal x.toBits.toBitVec hzero hm).trans ?_
      congr 1
      · rw [hparts]
        rfl
      · rw [hparts]
    · have hm' : (ofFloat x).mantissa = 0 := by
        rw [hparts]
        exact Nat.eq_zero_of_not_pos hm
      rw [unpacked_zero hm', sign_ofFloat]
      exact unpack_zero x.toBits.toBitVec hzero (Nat.eq_zero_of_not_pos hm)
  · have hparts : ofFloat x = ⟨x.toBits.toNat / 2 ^ 63 = 1, x.toBits.toNat % 2 ^ 52 + 2 ^ 52,
        Int.ofNat (x.toBits.toNat / 2 ^ 52 % 2 ^ 11) - 1075⟩ := if_neg hzero
    have hm' : 0 < (ofFloat x).mantissa := by
      rw [hparts]
      exact Nat.add_pos_right _ (Nat.two_pow_pos 52)
    rw [unpacked_of_pos hm', sign_ofFloat]
    refine (unpack_normal x.toBits.toBitVec hexp hzero).trans ?_
    congr 1
    · rw [hparts]
      rfl
    · rw [hparts]
      rfl

/-- **The parts of a double that is not zero are regular.** -/
theorem regular_ofFloat (hx : x.isFinite = true) (hm : (ofFloat x).mantissa ≠ 0) : (ofFloat x).Regular := by
  have hexp := exponent_ne hx
  have hlt : x.toBits.toNat / 2 ^ 52 % 2 ^ 11 < 2 ^ 11 := Nat.mod_lt _ (Nat.two_pow_pos 11)
  have hfraction : x.toBits.toNat % 2 ^ 52 < 2 ^ 52 := Nat.mod_lt _ (Nat.two_pow_pos 52)
  have hpos := Nat.pos_of_ne_zero hm
  unfold ofFloat at hpos ⊢
  dsimp only at hpos ⊢
  split at hpos
  case isTrue h =>
    rw [if_pos h]
    exact ⟨hpos, by dsimp only; omega, le_refl _, by dsimp only; omega, Or.inl rfl⟩
  case isFalse h =>
    rw [if_neg h]
    refine ⟨hpos, ?_, ?_, ?_, Or.inr ?_⟩ <;> dsimp only [Int.ofNat_eq_natCast] <;> omega

/-- Packing undoes unpacking. -/
theorem ofModel_pack_unpack (x : Float) : Float.ofModel (.pack x.toModel.unpack) = x :=
  Float.toBits_inj.1 (UInt64.toBitVec_inj.1 (pack_unpack_of_valid x.toModel.valid))

/-! ## §3. Doubles put together -/

/-- A mantissa with its hidden bit has 53 bits. -/
theorem log2_eq {m : ℕ} (hlow : 2 ^ 52 ≤ m) (hlt : m < 2 ^ 53) : m.log2 = 52 :=
  (Nat.log2_eq_iff (Nat.two_pow_pos 52 |>.trans_le hlow).ne').2 ⟨hlow, hlt⟩

/-- The bits of a mantissa whose hidden bit is set. -/
theorem hidden_ofNat {m : ℕ} (hlow : 2 ^ 52 ≤ m) (hlt : m < 2 ^ 53) : (1#1 ++ BitVec.ofNat 52 m).toNat = m := by
  have hmod : m % 2 ^ 52 < 2 ^ 52 := Nat.mod_lt _ (Nat.two_pow_pos 52)
  rw [BitVec.toNat_append, BitVec.toNat_ofNat]
  show (1 <<< 52 ||| m % 2 ^ 52) = m
  rw [← Nat.shiftLeft_add_eq_or_of_lt hmod, Nat.one_shiftLeft]
  omega

/-- Parts with a normal exponent that are packed are taken apart again. -/
theorem unpack_components (s : Sign) {exponent : BitVec 11} (mantissa : BitVec 52) (hne : exponent ≠ -1#11)
    (hzero : exponent ≠ 0#11) (hpos : 0 < (1#1 ++ mantissa).toNat) :
    UnpackedFloat.unpack .binary64 (packComponents .binary64 s exponent mantissa)
      = .finite s (1#1 ++ mantissa).toNat (exponent.toNat - 1075) hpos := by
  unfold UnpackedFloat.unpack
  simp only [unpackExponent_packComponents, unpackMantissa_packComponents, unpackSign_packComponents,
    Sign.ofBitVec_toBitVec]
  rw [if_neg hne, if_neg hzero]
  rfl

/-- Parts without an exponent that are packed are taken apart again. -/
theorem unpack_components_zero (s : Sign) {mantissa : BitVec 52} (hne : mantissa ≠ 0#52) (hpos : 0 < mantissa.toNat) :
    UnpackedFloat.unpack .binary64 (packComponents .binary64 s 0#11 mantissa)
      = .finite s mantissa.toNat (-1074) hpos := by
  unfold UnpackedFloat.unpack
  simp only [unpackExponent_packComponents, unpackMantissa_packComponents, unpackSign_packComponents,
    Sign.ofBitVec_toBitVec]
  rw [if_neg (by decide), if_pos True.intro, dif_neg hne]
  rfl

/-- What packing looks at: whether the exponent is too large, and whether the mantissa is full. -/
theorem pack_finite (s : Sign) (m : ℕ) (e : ℤ) (hpos : 0 < m) :
    UnpackedFloat.pack .binary64 (.finite s m e hpos)
      = if 2 ^ 11 ≤ (e + 1023 + 52).toNat + 1 then packedInfinity .binary64 s
        else if m.log2 + 1 = 53 then
          packComponents .binary64 s (BitVec.ofNat 11 (e + 1023 + 52).toNat) (BitVec.ofNat 52 m)
        else packComponents .binary64 s 0#11 (BitVec.ofNat 52 m) := rfl

/-- A full mantissa is packed without its hidden bit. -/
theorem pack_normal (s : Sign) {m : ℕ} {e : ℤ} (hlow : 2 ^ 52 ≤ m) (hlt : m < 2 ^ 53) (hmax : e ≤ 971)
    (hpos : 0 < m) : UnpackedFloat.pack .binary64 (.finite s m e hpos)
      = packComponents .binary64 s (BitVec.ofNat 11 (e + 1023 + 52).toNat) (BitVec.ofNat 52 m) := by
  have hexp : ¬2 ^ 11 ≤ (e + 1023 + 52).toNat + 1 := by omega
  rw [pack_finite, if_neg hexp, log2_eq hlow hlt, if_pos rfl]

/-- A mantissa that is not full is packed with the exponent zero. -/
theorem pack_subnormal (s : Sign) {m : ℕ} (hlt : m < 2 ^ 52) (hpos : 0 < m) :
    UnpackedFloat.pack .binary64 (.finite s m (-1074) hpos) = packComponents .binary64 s 0#11 (BitVec.ofNat 52 m) := by
  have hexp : ¬2 ^ 11 ≤ ((-1074 : ℤ) + 1023 + 52).toNat + 1 := by decide
  have hlog : m.log2 + 1 ≠ 53 := by
    have := (Nat.log2_lt hpos.ne').2 hlt
    omega
  rw [pack_finite, if_neg hexp, if_neg hlog]

/-- **Unpacking undoes packing** of the parts of a double. -/
theorem unpack_pack {b : Binary} (hb : b.Regular) (s : Sign) :
    (Float.Model.pack (.finite s b.mantissa b.exponent hb.pos)).unpack = .finite s b.mantissa b.exponent hb.pos := by
  obtain ⟨negative, m, e⟩ := b
  obtain ⟨hpos, hlt, hlow, hhigh, hfull⟩ := hb
  dsimp only at hpos hlt hlow hhigh hfull
  by_cases hm : 2 ^ 52 ≤ m
  · -- the exponent field lies between the two that are reserved
    have hexp : (BitVec.ofNat 11 (e + 1023 + 52).toNat).toNat = (e + 1023 + 52).toNat := by
      rw [BitVec.toNat_ofNat, Nat.mod_eq_of_lt (by omega)]
    have hne : BitVec.ofNat 11 (e + 1023 + 52).toNat ≠ -1#11 := by
      intro h
      rw [h] at hexp
      have : (2047 : ℕ) = (e + 1023 + 52).toNat := hexp
      omega
    have hzero : BitVec.ofNat 11 (e + 1023 + 52).toNat ≠ 0#11 := by
      intro h
      rw [h] at hexp
      have : (0 : ℕ) = (e + 1023 + 52).toNat := hexp
      omega
    have hhidden := hidden_ofNat hm hlt
    show UnpackedFloat.unpack .binary64 (UnpackedFloat.pack .binary64 (.finite s m e hpos)) = _
    rw [pack_normal s hm hlt hhigh, unpack_components s _ hne hzero (by rw [hhidden]; exact hpos)]
    congr 1
    show ((BitVec.ofNat 11 (e + 1023 + 52).toNat).toNat : ℤ) - 1075 = e
    rw [hexp]
    omega
  · -- without the hidden bit the exponent is the least one
    obtain rfl : e = -1074 := hfull.resolve_right hm
    have hmantissa : (BitVec.ofNat 52 m).toNat = m := by
      rw [BitVec.toNat_ofNat, Nat.mod_eq_of_lt (not_le.1 hm)]
    have hne : BitVec.ofNat 52 m ≠ 0#52 := by
      intro h
      rw [h] at hmantissa
      exact hpos.ne hmantissa
    show UnpackedFloat.unpack .binary64 (UnpackedFloat.pack .binary64 (.finite s m (-1074) hpos)) = _
    rw [pack_subnormal s (not_le.1 hm), unpack_components_zero s hne (by rw [hmantissa]; exact hpos)]
    congr 1

end HomeWidget.Binary
