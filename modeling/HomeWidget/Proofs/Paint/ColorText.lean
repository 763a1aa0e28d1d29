import HomeWidget.Paint.Color
import HomeWidget.Proofs.Text.Cut
import HomeWidget.Proofs.Text.Hex

/-!
# Texts of colours

A colour text is three or four pairs of hexadecimal digits, with white space around it and a `#` in front of it, or
neither. It is read by bytes: a text of six or eight bytes is divided after every second one, and the parts are left to a
reader of numerals that does not ask how long a numeral is. So it has to be shown that what is taken for a colour is
written in pairs of ASCII characters, and which pairs these are. They are the pairs of digits, and a plus in front of a
single digit: numerals may have a sign, and nothing keeps it out of a colour.

Main results: `Hex.byte?_eq_some_iff`, `Rgba.pairs_iff`, `Rgba.levelsOf?_eq_some_iff`, `Rgba.ofText_spells`.
-/
namespace HomeWidget

/-! ## §1. Numerals of a byte -/

namespace Hex

/-- Two characters are a numeral of this byte: two digits, or a digit with a plus in front of it. -/
def NumeralOf (high low : Char) (n : Nat) : Prop := PairOf high low n ∨ high = '+' ∧ Spells low n

/-- The two characters of a numeral are ASCII, and its number is a byte. -/
theorem NumeralOf.plain {high low : Char} {n : Nat} (h : NumeralOf high low n) :
    high.utf8Size = 1 ∧ low.utf8Size = 1 ∧ n < 256 := by
  rcases h with ⟨h, l, hhigh, hlow, rfl⟩ | ⟨rfl, hlow⟩
  · have hh := hhigh.1
    have hl := hlow.1
    exact ⟨hhigh.plain.1, hlow.plain.1, by omega⟩
  · have hn := hlow.1
    exact ⟨rfl, hlow.plain.1, by omega⟩

/-- The bound on a byte does not matter to what is below it anyway. -/
theorem bind_bound {o : Option Nat} (h : ∀ n, o = some n → n < 256) :
    (o.bind fun n => if n < 256 then some n else none) = o := by
  cases o with
  | none => rfl
  | some n => exact if_pos (h n rfl)

/-- Without a sign a byte is a number that is small enough. -/
theorem byte?_of_ne {c : Char} (hc : c ≠ '+') (rest : List Char) :
    byte? (c :: rest) = (number? (c :: rest)).bind fun n => if n < 256 then some n else none := by
  unfold byte?
  split
  next digits heq => exact absurd (List.cons.inj heq).1 hc
  next => rfl

/-- Behind a plus sign there is room for one digit. -/
theorem byte?_signed (c : Char) : byte? ['+', c] = value? c := by
  rw [← bind_bound (o := value? c) fun n hn => (spells_of_value? hn).1.trans (by decide), ← number?_one]
  rfl

/-- Without a plus sign there is room for two digits. -/
theorem byte?_pair {high : Char} (hhigh : high ≠ '+') (low : Char) : byte? [high, low] = number? [high, low] := by
  rw [byte?_of_ne hhigh]
  refine bind_bound fun n hn => ?_
  exact (NumeralOf.plain (Or.inl (number?_two_eq_some_iff.1 hn))).2.2

/-- **What a numeral of two bytes is**: it has two characters, and one in front of the last digit is a plus if it is
no digit. -/
theorem byte?_eq_some_iff {numeral : List Char} (hbytes : Text.byteLength numeral = 2) {n : Nat} :
    byte? numeral = some n ↔ ∃ high low, numeral = [high, low] ∧ NumeralOf high low n := by
  match numeral, hbytes with
  | [c], hbytes =>
    -- one character of two bytes is neither a sign nor a digit
    have hsize : c.utf8Size = 2 := hbytes
    have hc : c ≠ '+' := by
      rintro rfl
      cases hsize
    have hvalue : value? c = none := by
      rw [Option.eq_none_iff_forall_ne_some]
      intro v hv
      have hone := (spells_of_value? hv).plain.1
      omega
    rw [byte?_of_ne hc, number?_one, hvalue]
    exact ⟨nofun, by rintro ⟨high, low, hpair, -⟩; cases hpair⟩
  | [high, low], _ =>
    have hpair : (∃ high' low', [high, low] = [high', low'] ∧ NumeralOf high' low' n) ↔ NumeralOf high low n := by
      constructor
      · rintro ⟨high', low', heq, h⟩
        obtain ⟨rfl, rfl⟩ : high = high' ∧ low = low' := by simpa using heq
        exact h
      · exact fun h => ⟨high, low, rfl, h⟩
    rw [hpair]
    unfold NumeralOf
    by_cases hsign : high = '+'
    · subst hsign
      have hpair : ¬PairOf '+' low n := fun ⟨_, _, hplus, _, _⟩ => hplus.plain.2.1 rfl
      rw [byte?_signed, value?_eq_some_iff, or_iff_right hpair, and_iff_right rfl]
    · rw [byte?_pair hsign, number?_two_eq_some_iff, or_iff_left fun h => hsign h.1]
  | a :: b :: c :: rest, hbytes =>
    have ha := a.utf8Size_pos
    have hb := b.utf8Size_pos
    have hc := c.utf8Size_pos
    simp only [Text.byteLength_cons] at hbytes
    omega

end Hex

namespace Rgba

open Hex Scalar

/-! ## §2. Texts in pairs -/

/-- The levels that a text spells pair by pair, by what a pair spells. -/
inductive Pairs (Reads : Char → Char → Nat → Prop) : List Char → List Nat → Prop
  | nil : Pairs Reads [] []
  | cons {high low : Char} {n : Nat} {text : List Char} {levels : List Nat} (head : Reads high low n)
      (tail : Pairs Reads text levels) : Pairs Reads (high :: low :: text) (n :: levels)

variable {text : List Char} {levels : List Nat}

/-- Every level takes two characters. -/
theorem Pairs.length {Reads : Char → Char → Nat → Prop} (h : Pairs Reads text levels) :
    text.length = 2 * levels.length := by
  induction h with
  | nil => rfl
  | cons head tail ih =>
    simp only [List.length_cons, ih]
    omega

/-- Pairs that are read in one way are read in any that reads more. -/
theorem Pairs.mono {Reads Others : Char → Char → Nat → Prop} (hsub : ∀ high low n, Reads high low n → Others high low n)
    (h : Pairs Reads text levels) : Pairs Others text levels := by
  induction h with
  | nil => exact .nil
  | cons head tail ih => exact .cons (hsub _ _ _ head) ih

/-- The levels of pairs are bytes. -/
theorem Pairs.lt (h : Pairs NumeralOf text levels) : ∀ n ∈ levels, n < 256 := by
  induction h with
  | nil => exact nofun
  | cons head tail ih =>
    intro n hn
    rcases List.mem_cons.1 hn with rfl | hn
    · exact head.plain.2.2
    · exact ih n hn

/-- Nothing but a plus is taken for a digit. -/
theorem Pairs.isDigit (h : Pairs NumeralOf text levels) (hplus : '+' ∉ text) : ∀ c ∈ text, IsDigit c := by
  induction h with
  | nil => exact nofun
  | @cons high low n text levels head tail ih =>
    have hsign : high ≠ '+' := fun e => hplus (e ▸ List.mem_cons_self)
    obtain ⟨h, l, hhigh, hlow, -⟩ := head.resolve_right fun h => hsign h.1
    intro c hc
    rcases List.mem_cons.1 hc with rfl | hc
    · exact ⟨h, hhigh⟩
    rcases List.mem_cons.1 hc with rfl | hc
    · exact ⟨l, hlow⟩
    · exact ih (fun hmem => hplus (List.mem_cons_of_mem _ (List.mem_cons_of_mem _ hmem))) c hc

/-- Digits of an even number are pairs of digits. -/
theorem exists_pairs {k : Nat} (hlength : text.length = 2 * k) (hdigits : ∀ c ∈ text, IsDigit c) :
    ∃ levels, Pairs PairOf text levels := by
  induction k generalizing text with
  | zero =>
    rw [List.length_eq_zero_iff.1 hlength]
    exact ⟨[], .nil⟩
  | succ k ih =>
    match text, hlength with
    | high :: low :: rest, hlength =>
      obtain ⟨h, hhigh⟩ := hdigits high List.mem_cons_self
      obtain ⟨l, hlow⟩ := hdigits low (List.mem_cons_of_mem _ List.mem_cons_self)
      obtain ⟨levels, hrest⟩ := @ih rest (by simp only [List.length_cons] at hlength; omega)
        fun c hc => hdigits c (List.mem_cons_of_mem _ (List.mem_cons_of_mem _ hc))
      exact ⟨(h * 16 + l) :: levels, .cons ⟨h, l, hhigh, hlow, rfl⟩ hrest⟩

/-- At the start of a text a level is the numeral of its first two characters. -/
theorem levelAt?_zero {n : Nat} :
    levelAt? text 0 = some n ↔ ∃ high low rest, text = high :: low :: rest ∧ NumeralOf high low n := by
  unfold levelAt?
  rw [Option.bind_eq_some_iff]
  constructor
  · rintro ⟨piece, hslice, hbyte⟩
    obtain ⟨before, after, rfl, hstart, hcount⟩ := Text.slice?_eq_some_iff.1 hslice
    obtain rfl := Text.byteLength_eq_zero_iff.1 hstart
    obtain ⟨high, low, rfl, hnumeral⟩ := (byte?_eq_some_iff hcount).1 hbyte
    exact ⟨high, low, after, rfl, hnumeral⟩
  · rintro ⟨high, low, rest, rfl, hnumeral⟩
    have hcount : Text.byteLength [high, low] = 2 := by
      obtain ⟨hhigh, hlow, -⟩ := hnumeral.plain
      rw [Text.byteLength_cons, Text.byteLength_cons, hhigh, hlow]
      rfl
    exact ⟨[high, low], Text.slice?_eq_some_iff.2 ⟨[], rest, rfl, rfl, hcount⟩,
      (byte?_eq_some_iff hcount).2 ⟨high, low, rfl, hnumeral⟩⟩

/-- Behind two characters of one byte each the offsets are two more. -/
theorem levelAt?_cons {high low : Char} (hhigh : high.utf8Size = 1) (hlow : low.utf8Size = 1) (rest : List Char)
    (offset : Nat) : levelAt? (high :: low :: rest) (offset + 2) = levelAt? rest offset := by
  unfold levelAt? Text.slice?
  rw [Text.splitBytes?_ascii hhigh, Text.splitBytes?_ascii hlow]
  cases Text.splitBytes? offset rest <;> rfl

/-- The levels that stand at the first `count` offsets of a text. -/
def levelsAt (text : List Char) (count : Nat) : List (Option Nat) :=
  (List.range count).map fun i => levelAt? text (2 * i)

/-- The first level is that of the first pair. -/
theorem levelsAt_cons {high low : Char} {n : Nat} (h : NumeralOf high low n) (rest : List Char) (count : Nat) :
    levelsAt (high :: low :: rest) (count + 1) = some n :: levelsAt rest count := by
  obtain ⟨hhigh, hlow, -⟩ := h.plain
  unfold levelsAt
  rw [List.range_succ_eq_map, List.map_cons, List.map_map, levelAt?_zero.2 ⟨high, low, rest, rfl, h⟩]
  refine congrArg _ (List.map_congr_left fun i _ => ?_)
  exact levelAt?_cons hhigh hlow rest (2 * i)

/-- **A text is written in pairs just when a level stands at each offset**, and nothing is left. -/
theorem pairs_iff : Pairs NumeralOf text levels
    ↔ Text.byteLength text = 2 * levels.length ∧ levelsAt text levels.length = levels.map some := by
  induction levels generalizing text with
  | nil =>
    constructor
    · intro h
      cases h
      exact ⟨rfl, rfl⟩
    · rintro ⟨hbytes, -⟩
      rw [Text.byteLength_eq_zero_iff.1 hbytes]
      exact .nil
  | cons n levels ih =>
    constructor
    · intro h
      cases h with
      | @cons high low _ rest _ head tail =>
        obtain ⟨hhigh, hlow, -⟩ := head.plain
        obtain ⟨hbytes, hlevels⟩ := ih.1 tail
        rw [List.length_cons, levelsAt_cons head, hlevels, List.map_cons, Text.byteLength_cons, Text.byteLength_cons,
          hhigh, hlow, hbytes]
        exact ⟨by omega, rfl⟩
    · rintro ⟨hbytes, hlevels⟩
      -- the first level takes two characters off the text, which are two bytes
      have hfirst : levelAt? text 0 = some n := by
        rw [List.length_cons, levelsAt, List.range_succ_eq_map, List.map_cons, List.map_cons] at hlevels
        exact (List.cons.inj hlevels).1
      obtain ⟨high, low, rest, rfl, head⟩ := levelAt?_zero.1 hfirst
      obtain ⟨hhigh, hlow, -⟩ := head.plain
      rw [List.length_cons, levelsAt_cons head, List.map_cons] at hlevels
      rw [List.length_cons, Text.byteLength_cons, Text.byteLength_cons, hhigh, hlow] at hbytes
      exact .cons head (ih.2 ⟨by omega, (List.cons.inj hlevels).2⟩)

/-- **The levels of a text are those of its pairs**, of which there are three or four. -/
theorem levelsOf?_eq_some_iff {r g b a : Nat} :
    levelsOf? text = some (r, g, b, a)
      ↔ Pairs NumeralOf text [r, g, b] ∧ a = 255 ∨ Pairs NumeralOf text [r, g, b, a] := by
  have hthree : Pairs NumeralOf text [r, g, b] ↔ Text.byteLength text = 6
      ∧ levelAt? text 0 = some r ∧ levelAt? text 2 = some g ∧ levelAt? text 4 = some b := by
    simp [pairs_iff, levelsAt, List.range_succ]
  have hfour : Pairs NumeralOf text [r, g, b, a] ↔ Text.byteLength text = 8
      ∧ levelAt? text 0 = some r ∧ levelAt? text 2 = some g ∧ levelAt? text 4 = some b ∧ levelAt? text 6 = some a := by
    simp [pairs_iff, levelsAt, List.range_succ]
  rw [hthree, hfour]
  unfold levelsOf?
  split
  next hbytes =>
    simp [hbytes, Option.bind_eq_some_iff, and_assoc, eq_comm (b := a)]
  next hbytes =>
    simp [hbytes, Option.bind_eq_some_iff]
  next h6 h8 => exact ⟨nofun, fun h => (h.elim (fun h => h6 h.1.1) fun h => h8 h.1).elim⟩

/-! ## §3. Colours -/

/-- **A channel is back at its level after rounding.** There are few enough levels to look at each of them. -/
theorem toLevel_ofLevel : ∀ n < 256, toLevel (ofLevel n : Float) = UInt8.ofNat n := by
  decide +kernel

/-- The four levels that three or four levels stand for. -/
def withOpacity (levels : List Nat) : List Nat := (levels ++ [255]).take 4

/-- Levels that are made a colour are its levels again. -/
theorem levels_ofLevels {r g b a : Nat} (hr : r < 256) (hg : g < 256) (hb : b < 256) (ha : a < 256) :
    (ofLevels r g b a : Rgba Float).levels.map UInt8.toNat = [r, g, b, a] := by
  have hlevel {n : Nat} (hn : n < 256) : (toLevel (ofLevel n : Float)).toNat = n := by
    rw [toLevel_ofLevel n hn]
    exact Nat.mod_eq_of_lt hn
  show [(toLevel (ofLevel r : Float)).toNat, (toLevel (ofLevel g : Float)).toNat, (toLevel (ofLevel b : Float)).toNat,
    (toLevel (ofLevel a : Float)).toNat] = _
  rw [hlevel hr, hlevel hg, hlevel hb, hlevel ha]

/-- A text in three or four pairs has the levels that they spell. -/
theorem levels_of_pairs (hcount : levels.length = 3 ∨ levels.length = 4)
    (h : Pairs NumeralOf (dropHash (Text.trim text)) levels) :
    (ofText text : Rgba Float).levels.map UInt8.toNat = withOpacity levels := by
  have hlt := h.lt
  unfold ofText
  match levels, hcount with
  | [r, g, b], _ =>
    rw [levelsOf?_eq_some_iff.2 (Or.inl ⟨h, rfl⟩)]
    exact levels_ofLevels (hlt r (by simp)) (hlt g (by simp)) (hlt b (by simp)) (by decide)
  | [r, g, b, a], _ =>
    rw [levelsOf?_eq_some_iff.2 (Or.inr h)]
    exact levels_ofLevels (hlt r (by simp)) (hlt g (by simp)) (hlt b (by simp)) (hlt a (by simp))

/-- Any other text is black. -/
theorem ofText_eq_black {α : Type} [Scalar α] (h : ∀ levels, levels.length = 3 ∨ levels.length = 4 →
    ¬Pairs NumeralOf (dropHash (Text.trim text)) levels) : (ofText text : Rgba α) = black := by
  unfold ofText
  split
  next r g b a hlevels =>
    rcases levelsOf?_eq_some_iff.1 hlevels with ⟨hpairs, -⟩ | hpairs
    · exact absurd hpairs (h [r, g, b] (Or.inl rfl))
    · exact absurd hpairs (h [r, g, b, a] (Or.inr rfl))
  next => rfl

/-- What there is to read in a text: all of it but the white space around it and one `#` in front of it. -/
def codeOf (text : List Char) : List Char := dropHash (Text.trim text)

/-- The text is a code: six or eight hexadecimal digits. -/
def IsCode (text : List Char) : Prop := (text.length = 6 ∨ text.length = 8) ∧ ∀ c ∈ text, IsDigit c

/--
**What colour a text is.** Of what there is to read in it:
* six or eight hexadecimal digits have the levels that their pairs denote, and the opacity is full if there are six;
* whatever else holds no plus is opaque black;
* a plus is taken for a zero in front of a digit, by the first of each two characters: pairs of digits, some of which
  have a plus for their first digit, are a colour as well;
* and nothing besides is: all other texts with a plus are opaque black.
-/
theorem ofText_spells (text : List Char) :
    (IsCode (codeOf text) → ∃ levels, Pairs PairOf (codeOf text) levels
        ∧ (ofText text : Rgba Float).levels.map UInt8.toNat = withOpacity levels)
      ∧ (¬IsCode (codeOf text) → '+' ∉ codeOf text → (ofText text : Rgba Float) = black)
      ∧ (∀ levels, levels.length = 3 ∨ levels.length = 4 → Pairs NumeralOf (codeOf text) levels →
          (ofText text : Rgba Float).levels.map UInt8.toNat = withOpacity levels)
      ∧ ((∀ levels, levels.length = 3 ∨ levels.length = 4 → ¬Pairs NumeralOf (codeOf text) levels) →
          (ofText text : Rgba Float) = black) := by
  refine ⟨?_, ?_, fun levels hcount h => levels_of_pairs hcount h, ofText_eq_black⟩
  · rintro ⟨hlength, hdigits⟩
    obtain ⟨levels, hpairs⟩ := exists_pairs (k := (codeOf text).length / 2) (by omega) hdigits
    have hcount := hpairs.length
    exact ⟨levels, hpairs, levels_of_pairs (by omega) (hpairs.mono fun _ _ _ => Or.inl)⟩
  · intro hcode hplus
    refine ofText_eq_black fun levels hcount hpairs => hcode ⟨?_, hpairs.isDigit hplus⟩
    have hlength : (codeOf text).length = 2 * levels.length := hpairs.length
    omega

/-- Half of the opacity, in a text with white space. -/
theorem ofText_spells_translucent :
    (ofText " #626dFF80\n".toList : Rgba Float).levels.map UInt8.toNat = [0x62, 0x6D, 0xFF, 0x80] := by
  have hcode : codeOf " #626dFF80\n".toList = ['6', '2', '6', 'd', 'F', 'F', '8', '0'] := by decide +kernel
  have hpairs : Pairs NumeralOf (codeOf " #626dFF80\n".toList) [0x62, 0x6D, 0xFF, 0x80] := by
    rw [hcode]
    refine .cons (Or.inl ⟨6, 2, ?_⟩) (.cons (Or.inl ⟨6, 13, ?_⟩) (.cons (Or.inl ⟨15, 15, ?_⟩)
      (.cons (Or.inl ⟨8, 0, ?_⟩) .nil))) <;> decide
  exact (ofText_spells " #626dFF80\n".toList).2.2.1 _ (Or.inr rfl) hpairs

/-- A plus is no hexadecimal digit, and still it makes a colour that is not black. -/
theorem plus_is_colored :
    ¬IsCode (codeOf "#+f0000".toList) ∧ (ofText "#+f0000".toList : Rgba Float).levels = [15, 0, 0, 255]
      ∧ (ofText "#+f0000".toList : Rgba Float) ≠ black := by
  have hlevels : (ofText "#+f0000".toList : Rgba Float).levels = [15, 0, 0, 255] := by decide +kernel
  refine ⟨fun hcode => ?_, hlevels, fun hblack => ?_⟩
  · obtain ⟨v, hv⟩ := hcode.2 '+' (by decide +kernel)
    exact hv.plain.2.1 rfl
  · have hzero : (black : Rgba Float).levels = [0, 0, 0, 255] := by decide +kernel
    rw [hblack, hzero] at hlevels
    exact absurd hlevels (by decide)

end Rgba
end HomeWidget
