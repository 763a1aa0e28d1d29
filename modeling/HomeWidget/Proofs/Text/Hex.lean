import HomeWidget.Text.Hex

/-!
# Hexadecimal digits

A digit has a value below sixteen and is written in one of two cases. What the reader of digits accepts is just what could
have been written: the sixteen characters of either case, and no other character of any alphabet.

Main results: `value?_eq_some_iff`, `Spells.plain`, `number?_two_eq_some_iff`.
-/
namespace HomeWidget.Hex

/-! ## §1. One digit -/

/-- The character is the hexadecimal digit of this value, in either case. -/
def Spells (c : Char) (v : Nat) : Prop := v < 16 ∧ (c = lower v ∨ c = upper v)

instance (c : Char) (v : Nat) : Decidable (Spells c v) := inferInstanceAs (Decidable (_ ∧ _))

/-- The character is a hexadecimal digit. -/
def IsDigit (c : Char) : Prop := ∃ v, Spells c v

/-- A digit of either case is read as its value. -/
theorem value?_of_spells {c : Char} {v : Nat} (h : Spells c v) : value? c = some v := by
  have known : ∀ v < 16, value? (lower v) = some v ∧ value? (upper v) = some v := by decide
  obtain ⟨hv, rfl | rfl⟩ := h
  · exact (known v hv).1
  · exact (known v hv).2

/-- The codes of the characters between two characters. -/
theorem toNat_between {low high c : Char} (h : low ≤ c ∧ c ≤ high) : low.toNat ≤ c.toNat ∧ c.toNat ≤ high.toNat := h

/-- Only a digit is read as a value. -/
theorem spells_of_value? {c : Char} {v : Nat} (h : value? c = some v) : Spells c v := by
  have hc : c = Char.ofNat c.toNat := (Char.ofNat_toNat c).symm
  unfold value? at h
  split at h
  next hrange =>
    obtain ⟨hlow, hhigh⟩ : 48 ≤ c.toNat ∧ c.toNat ≤ 57 := toNat_between hrange
    have hv : c.toNat - 48 = v := Option.some.inj h
    refine ⟨by omega, Or.inl ?_⟩
    unfold lower
    rw [if_pos (by omega), show 48 + v = c.toNat by omega, ← hc]
  next =>
  split at h
  next hrange =>
    obtain ⟨hlow, hhigh⟩ : 97 ≤ c.toNat ∧ c.toNat ≤ 102 := toNat_between hrange
    have hv : c.toNat - 97 + 10 = v := Option.some.inj h
    refine ⟨by omega, Or.inl ?_⟩
    unfold lower
    rw [if_neg (by omega), show 87 + v = c.toNat by omega, ← hc]
  next =>
  split at h
  next hrange =>
    obtain ⟨hlow, hhigh⟩ : 65 ≤ c.toNat ∧ c.toNat ≤ 70 := toNat_between hrange
    have hv : c.toNat - 65 + 10 = v := Option.some.inj h
    refine ⟨by omega, Or.inr ?_⟩
    unfold upper
    rw [if_neg (by omega), show 55 + v = c.toNat by omega, ← hc]
  next => cases h

theorem value?_eq_some_iff {c : Char} {v : Nat} : value? c = some v ↔ Spells c v := ⟨spells_of_value?, value?_of_spells⟩

/-- A digit is ASCII, and none of the marks that stand in front of digits. -/
theorem Spells.plain {c : Char} {v : Nat} (h : Spells c v) : c.utf8Size = 1 ∧ c ≠ '+' ∧ c ≠ '#' := by
  have known : ∀ v < 16, (lower v).utf8Size = 1 ∧ lower v ≠ '+' ∧ lower v ≠ '#'
      ∧ (upper v).utf8Size = 1 ∧ upper v ≠ '+' ∧ upper v ≠ '#' := by decide
  obtain ⟨hv, rfl | rfl⟩ := h
  · exact ⟨(known v hv).1, (known v hv).2.1, (known v hv).2.2.1⟩
  · exact (known v hv).2.2.2

/-- The code of a digit is below `0x80`. -/
theorem Spells.toNat_lt {c : Char} {v : Nat} (h : Spells c v) : c.toNat < 0x80 := by
  have hle : c.val.toNat ≤ 127 := Char.utf8Size_eq_one_iff.1 h.plain.1
  exact Nat.lt_succ_of_le hle

/-- A character that is not ASCII is no digit. -/
theorem value?_of_ge {c : Char} (hc : 0x80 ≤ c.toNat) : value? c = none :=
  Option.eq_none_iff_forall_ne_some.2 fun _ hv => Nat.not_lt_of_le hc (spells_of_value? hv).toNat_lt

/-- A character is a digit just when it has a value. -/
theorem isDigit_iff {c : Char} : IsDigit c ↔ (value? c).isSome = true := by
  unfold IsDigit
  simp only [← value?_eq_some_iff, Option.isSome_iff_exists]

/-! ## §2. Two digits -/

/-- Two characters are the digits of this byte. -/
def PairOf (high low : Char) (n : Nat) : Prop := ∃ h l, Spells high h ∧ Spells low l ∧ n = h * 16 + l

theorem number?_one (c : Char) : number? [c] = value? c := by
  unfold number?
  cases h : value? c <;> simp [h]

/-- Two characters are read as a number just when they are a pair of digits. -/
theorem number?_two_eq_some_iff {high low : Char} {n : Nat} : number? [high, low] = some n ↔ PairOf high low n := by
  unfold number? PairOf
  simp only [List.foldlM_cons, List.foldlM_nil, ← value?_eq_some_iff]
  cases value? high <;> cases value? low <;> simp [eq_comm]

end HomeWidget.Hex
