import HomeWidget.Text.Fingerprint
import Mathlib.Data.Nat.Basic

/-!
# Fingerprints in digits

Sixteen digits tell fingerprints apart.

Main result: `toHex_inj`.
-/
namespace HomeWidget

namespace Hex

/-- Sixteen digits are sixteen characters. -/
theorem lower_inj : ∀ m n : Fin 16, lower m = lower n → m = n := by decide

/-- The digits up to a place are those of the rest on division by its power. -/
theorem mod_pow_eq {m n width : ℕ} (h : ∀ place < width, m / 16 ^ place % 16 = n / 16 ^ place % 16) :
    m % 16 ^ width = n % 16 ^ width := by
  induction width with
  | zero => rw [Nat.pow_zero, Nat.mod_one, Nat.mod_one]
  | succ width ih =>
    have hrest := ih fun place hplace => h place (by omega)
    rw [Nat.mod_pow_succ, Nat.mod_pow_succ, hrest, h width (by omega)]

/-- **Numbers with the same digits are the same**, if there are digits enough. -/
theorem padded_inj {m n width : ℕ} (hm : m < 16 ^ width) (hn : n < 16 ^ width)
    (h : padded lower width m = padded lower width n) : m = n := by
  have hdigits : ∀ place < width, m / 16 ^ place % 16 = n / 16 ^ place % 16 := by
    intro place hplace
    unfold padded at h
    have hdigit := List.map_inj_left.1 h place (List.mem_reverse.2 (List.mem_range.2 hplace))
    have hfin := lower_inj ⟨m / 16 ^ place % 16, Nat.mod_lt _ (by decide)⟩ ⟨n / 16 ^ place % 16, Nat.mod_lt _ (by decide)⟩
      hdigit
    exact congrArg Fin.val hfin
  rw [← Nat.mod_eq_of_lt hm, ← Nat.mod_eq_of_lt hn]
  exact mod_pow_eq hdigits

theorem length_padded (digit : ℕ → Char) (width n : ℕ) : (padded digit width n).length = width := by
  unfold padded
  rw [List.length_map, List.length_reverse, List.length_range]

end Hex

namespace Fingerprint

/-- **Two fingerprints with the same name are the same.** -/
theorem toHex_inj {g h : UInt64} : toHex g = toHex h ↔ g = h := by
  constructor
  · intro heq
    have hdigits : Hex.padded Hex.lower 16 g.toNat = Hex.padded Hex.lower 16 h.toNat := String.ofList_injective heq
    exact UInt64.toNat_inj.1 (Hex.padded_inj g.toNat_lt h.toNat_lt hdigits)
  · rintro rfl
    rfl

/-- A fingerprint is written with sixteen digits. -/
theorem length_toHex (h : UInt64) : (toHex h).length = 16 := by
  unfold toHex
  rw [String.length_ofList, Hex.length_padded]

end Fingerprint
end HomeWidget
