import HomeWidget.Proofs.Text.Percent
import Mathlib.Data.List.Count

/-!
# What escapes do to a text

The reader of escapes goes over bytes, and what these bytes are not as UTF-8 is repaired when all of them are known. A text
is a list of characters, however, and this is how it is read: every character stands for itself, a percent sign with two
digits behind it for a byte. The two readings agree, since the bytes of a character are digits or signs only where the
character is one.

So a text without escapes is read as itself. A text with escapes never is: each of them makes one byte of three characters,
and no repair makes more characters than there are characters and bytes to repair. What is read is shorter than the text.

Main results: `decodeBytes_encode`, `length_decode_le`, `decode_eq_self_iff`, `decodes_once`.
-/
namespace HomeWidget.Percent

/-! ## §1. A text, place by place -/

/-- What stands at one place of a text: a character for itself, or an escaped byte. -/
inductive Item where
  | char (c : Char)
  | byte (b : UInt8)
  deriving Repr, DecidableEq

/-- The bytes of an item. -/
def Item.bytes : Item → Bytes
  | char c => String.utf8EncodeChar c
  | byte b => [b]

def Item.isByte : Item → Bool
  | char _ => false
  | byte _ => true

/-- The byte that a percent sign stands for in front of these characters. -/
def byteOf? (high low : Char) : Option UInt8 := do
  let h ← Hex.value? high
  let l ← Hex.value? low
  pure (UInt8.ofNat (h * 16 + l))

/-- Two characters behind a percent sign make a byte just when both are digits. -/
theorem isSome_byteOf? {high low : Char} :
    (byteOf? high low).isSome = true ↔ Hex.IsDigit high ∧ Hex.IsDigit low := by
  rw [Hex.isDigit_iff, Hex.isDigit_iff]
  unfold byteOf?
  cases Hex.value? high <;> cases Hex.value? low <;> simp

/-- The items of a text, from the left, no escape inside another. -/
def items : List Char → List Item
  | '%' :: high :: low :: rest =>
    match byteOf? high low with
    | some b => .byte b :: items rest
    | none => .char '%' :: items (high :: low :: rest)
  | c :: rest => .char c :: items rest
  | [] => []

/-- How many escapes are read in a text. -/
def escapes (text : List Char) : Nat := (items text).countP Item.isByte

@[simp]
theorem countP_isByte_char (c : Char) (rest : List Item) :
    (.char c :: rest).countP Item.isByte = rest.countP Item.isByte := List.countP_cons_of_neg Bool.false_ne_true

@[simp]
theorem countP_isByte_byte (b : UInt8) (rest : List Item) :
    (.byte b :: rest).countP Item.isByte = rest.countP Item.isByte + 1 := List.countP_cons_of_pos rfl

/-- Of an escape three characters are one item. -/
theorem length_items (text : List Char) : (items text).length + 2 * escapes text = text.length := by
  unfold escapes
  fun_induction items text with
  | case1 high low rest b _ ih =>
    simp only [List.length_cons, countP_isByte_byte]
    omega
  | case2 high low rest _ ih =>
    simp only [List.length_cons, countP_isByte_char] at ih ⊢
    omega
  | case3 c rest _ ih =>
    simp only [List.length_cons, countP_isByte_char]
    omega
  | case4 => rfl

/-- Where nothing is escaped, every character is an item. -/
theorem items_of_escapes_eq_zero {text : List Char} (h : escapes text = 0) : items text = text.map .char := by
  unfold escapes at h
  fun_induction items text with
  | case1 high low rest b _ ih => cases (countP_isByte_byte b (items rest)).symm.trans h
  | case2 high low rest _ ih =>
    rw [countP_isByte_char] at h
    rw [ih h]
    rfl
  | case3 c rest _ ih =>
    rw [countP_isByte_char] at h
    rw [ih h]
    rfl
  | case4 => rfl

/-! ## §2. Where escapes stand -/

/-- Somewhere in the text two digits follow a percent sign. -/
def HasEscape (text : List Char) : Prop :=
  ∃ high low, Hex.IsDigit high ∧ Hex.IsDigit low ∧ ['%', high, low] <:+: text

/-- A text has an escape at its start or further on. -/
theorem hasEscape_cons {c : Char} {rest : List Char} :
    HasEscape (c :: rest)
      ↔ (∃ high low tail, c :: rest = '%' :: high :: low :: tail ∧ (byteOf? high low).isSome = true)
        ∨ HasEscape rest := by
  unfold HasEscape
  simp only [List.infix_cons_iff, isSome_byteOf?]
  constructor
  · rintro ⟨high, low, hhigh, hlow, ⟨tail, htail⟩ | hrest⟩
    · exact Or.inl ⟨high, low, tail, htail.symm, hhigh, hlow⟩
    · exact Or.inr ⟨high, low, hhigh, hlow, hrest⟩
  · rintro (⟨high, low, tail, htail, hhigh, hlow⟩ | ⟨high, low, hhigh, hlow, hrest⟩)
    · exact ⟨high, low, hhigh, hlow, Or.inl ⟨tail, htail.symm⟩⟩
    · exact ⟨high, low, hhigh, hlow, Or.inr hrest⟩

/-- **An escape is read if there is one to read**: no other escape can be in its way. -/
theorem escapes_pos_iff (text : List Char) : 0 < escapes text ↔ HasEscape text := by
  unfold escapes
  fun_induction items text with
  | case1 high low rest b hbyte ih =>
    have hfirst : HasEscape ('%' :: high :: low :: rest) :=
      hasEscape_cons.2 (Or.inl ⟨high, low, rest, rfl, by rw [hbyte]; rfl⟩)
    simp [hfirst]
  | case2 high low rest hbyte ih =>
    rw [countP_isByte_char, ih, hasEscape_cons (c := '%')]
    simp [hbyte]
  | case3 c rest hfirst ih =>
    rw [countP_isByte_char, ih, hasEscape_cons]
    refine (or_iff_right ?_).symm
    rintro ⟨high, low, tail, htext, -⟩
    obtain ⟨hc, hrest⟩ := List.cons.inj htext
    exact hfirst high low tail hc hrest
  | case4 => simp [HasEscape]

example : items "%%41%4".toList = [.char '%', .byte 0x41, .char '%', .char '4'] := by decide

/-! ## §3. Bytes and characters -/

/-- A byte that is not ASCII is no digit. -/
theorem digit?_of_ge {b : UInt8} (hb : 0x80 ≤ b.toNat) : digit? b = none := by
  unfold digit?
  exact Hex.value?_of_ge (by rwa [toNat_ofNat_byte b.toNat_lt])

/-- A digit is a byte of its own, and the first byte of any other character is no digit. -/
theorem exists_encode_cons (c : Char) (cs : List Char) :
    ∃ first rest, Utf8.encode (c :: cs) = first :: (rest ++ Utf8.encode cs) ∧ digit? first = Hex.value? c
      ∧ (Hex.value? c = none ∨ rest = []) := by
  by_cases hc : c.toNat < 0x80
  · exact ⟨_, [], encode_ascii hc cs, digit?_ascii hc, Or.inr rfl⟩
  · have hvalue := Hex.value?_of_ge (Nat.le_of_not_lt hc)
    obtain ⟨first, rest, hbytes, hfirst, -⟩ := Utf8.utf8EncodeChar_of_ge (Nat.le_of_not_lt hc)
    refine ⟨first, rest, ?_, by rw [hvalue, digit?_of_ge (by omega)], Or.inl hvalue⟩
    show String.utf8EncodeChar c ++ Utf8.encode cs = _
    rw [hbytes, List.cons_append]

/-- An escape is one in bytes if it is one in characters. -/
theorem escaped?_eq_byteOf? {b₁ b₂ : UInt8} {high low : Char} (hhigh : digit? b₁ = Hex.value? high)
    (hlow : digit? b₂ = Hex.value? low) : escaped? b₁ b₂ = byteOf? high low := by
  unfold escaped? byteOf?
  rw [hhigh, hlow]

/-- Bytes other than the sign stand for themselves. -/
theorem decodeBytes_append_of_ne {bs : Bytes} (h : ∀ b ∈ bs, b ≠ 0x25) (rest : Bytes) :
    decodeBytes (bs ++ rest) = bs ++ decodeBytes rest := by
  induction bs with
  | nil => rfl
  | cons b bs ih =>
    rw [List.forall_mem_cons] at h
    rw [List.cons_append, decodeBytes_cons_of_ne h.1, ih h.2]
    rfl

/-- No other character has the sign among its bytes. -/
theorem ne_sign_of_mem {c : Char} (hc : c ≠ '%') {b : UInt8} (hb : b ∈ String.utf8EncodeChar c) : b ≠ 0x25 := by
  rintro rfl
  by_cases hascii : c.toNat < 0x80
  · rw [Utf8.utf8EncodeChar_of_lt hascii, List.mem_singleton] at hb
    have hcode : '%'.toNat = c.toNat := by
      rw [← UInt8.toNat_ofNat_of_lt' (by omega : c.toNat < 256), ← hb]
      rfl
    exact hc (Char.toNat_inj.1 hcode).symm
  · obtain ⟨first, rest, hbytes, hfirst, hrest⟩ := Utf8.utf8EncodeChar_of_ge (Nat.le_of_not_lt hascii)
    have hlow : (0x25 : UInt8).toNat < 0x80 := by decide
    rw [hbytes, List.mem_cons] at hb
    rcases hb with rfl | hb
    · omega
    · have hhigh := hrest _ hb
      omega

/-- Two bytes are no escape where no two characters are. -/
theorem escaped?_eq_none {text : List Char}
    (h : ∀ high low tail, text = high :: low :: tail → byteOf? high low = none) {b₁ b₂ : UInt8} {more : Bytes}
    (hbytes : Utf8.encode text = b₁ :: b₂ :: more) : escaped? b₁ b₂ = none := by
  cases text with
  | nil => cases hbytes
  | cons high tail =>
    obtain ⟨first, rest, hhigh, hvalue, hone⟩ := exists_encode_cons high tail
    rw [hhigh, List.cons.injEq] at hbytes
    obtain ⟨rfl, hbytes⟩ := hbytes
    rcases hone with hnodigit | rfl
    · unfold escaped?
      rw [hvalue, hnodigit]
      rfl
    · -- the first character is one byte, so that the second byte belongs to the next one
      cases tail with
      | nil => cases hbytes
      | cons low tail =>
        obtain ⟨second, rest, hlow, hvalue', -⟩ := exists_encode_cons low tail
        rw [List.nil_append, hlow, List.cons.injEq] at hbytes
        obtain ⟨rfl, -⟩ := hbytes
        rw [escaped?_eq_byteOf? hvalue hvalue', h high low tail rfl]

/-- A sign that no two digits follow stands for itself. -/
theorem decodeBytes_sign {text : List Char}
    (h : ∀ high low tail, text = high :: low :: tail → byteOf? high low = none) :
    decodeBytes (0x25 :: Utf8.encode text) = 0x25 :: decodeBytes (Utf8.encode text) := by
  match hbytes : Utf8.encode text with
  | [] => rfl
  | [_] => rfl
  | b₁ :: b₂ :: more => rw [decodeBytes, escaped?_eq_none h hbytes]

/-- **The bytes are read as the text is**, item by item. -/
theorem decodeBytes_encode (text : List Char) : decodeBytes (Utf8.encode text) = (items text).flatMap Item.bytes := by
  fun_induction items text with
  | case1 high low rest b hbyte ih =>
    obtain ⟨⟨h, hhigh⟩, ⟨l, hlow⟩⟩ := isSome_byteOf?.1 (by rw [hbyte]; rfl : (byteOf? high low).isSome = true)
    have hescaped := escaped?_eq_byteOf? (digit?_ascii hhigh.toNat_lt) (digit?_ascii hlow.toNat_lt)
    rw [encode_ascii (by decide), encode_ascii hhigh.toNat_lt, encode_ascii hlow.toNat_lt, List.flatMap_cons, ← ih]
    show decodeBytes (0x25 :: _ :: _ :: _) = _
    rw [decodeBytes, hescaped, hbyte]
    rfl
  | case2 high low rest hbyte ih =>
    rw [encode_ascii (by decide), List.flatMap_cons, ← ih]
    refine decodeBytes_sign fun high' low' tail heq => ?_
    cases heq
    exact hbyte
  | case3 c rest hfirst ih =>
    by_cases hc : c = '%'
    · subst hc
      rw [encode_ascii (by decide), List.flatMap_cons, ← ih]
      exact decodeBytes_sign fun high low tail heq => absurd heq (hfirst high low tail rfl)
    · show decodeBytes (String.utf8EncodeChar c ++ Utf8.encode rest) = _
      rw [decodeBytes_append_of_ne fun b hb => ne_sign_of_mem hc hb, ih]
      rfl
  | case4 => rfl

/-! ## §4. What is read -/

/-- The pieces of mixed characters and bytes: no item is more than one. -/
theorem length_scan_le {o : Option Utf8.Open} (ho : ∀ o' ∈ o, o'.Inner) (is : List Item) :
    (Utf8.scan o (is.flatMap Item.bytes)).length ≤ Utf8.due o + is.length := by
  induction is generalizing o with
  | nil => cases o <;> simp [Utf8.scan, Utf8.due]
  | cons item rest ih =>
    rw [List.flatMap_cons, List.length_cons]
    cases item with
    | char c =>
      have hrest := ih Utf8.inner_none
      have hchar := Utf8.length_scan_utf8EncodeChar ho c (rest.flatMap Item.bytes)
      simp only [Item.bytes, hchar]
      simp only [Utf8.due] at hrest
      omega
    | byte b =>
      obtain ⟨pieces, next, hscan, hdue, hnext⟩ := Utf8.exists_scan_cons o b
      have hrest := ih hnext
      show (Utf8.scan o (b :: rest.flatMap Item.bytes)).length ≤ _
      rw [hscan, List.length_append]
      omega

/-- **Every escape makes a text shorter by two characters at least.** -/
theorem length_decode_le (text : List Char) : (decode text).length + 2 * escapes text ≤ text.length := by
  have hpieces := length_scan_le Utf8.inner_none (items text)
  have hitems := length_items text
  have hlength : (decode text).length = (Utf8.scan none ((items text).flatMap Item.bytes)).length := by
    unfold decode Utf8.decodeLossy
    rw [decodeBytes_encode, List.length_map]
  simp only [Utf8.due] at hpieces
  omega

/-- **A text is read as itself just if it has no escape.** -/
theorem decode_eq_self_iff (text : List Char) : decode text = text ↔ ¬HasEscape text := by
  rw [← escapes_pos_iff]
  constructor
  · intro h
    have hle := length_decode_le text
    rw [h] at hle
    omega
  · intro h
    unfold decode
    rw [decodeBytes_encode, items_of_escapes_eq_zero (Nat.eq_zero_of_not_pos h), List.flatMap_map]
    have hself := Utf8.decodeLossy_encode_append text []
    rw [List.append_nil] at hself
    exact hself.trans (List.append_nil text)

/--
**Escapes are undone once.** What is written, as a component or as a path, is read as it was, escapes that it has itself
included, and what stands behind it is read as if it stood alone. The reading of a text is the text just if nowhere in it
two digits follow a percent sign.
-/
theorem decodes_once :
    (∀ a b, decode (encode a ++ b) = a ++ decode b) ∧ (∀ a b, decode (encodePath a ++ b) = a ++ decode b)
      ∧ (∀ a, decode (encode a) = a) ∧ (∀ a, decode (encodePath a) = a)
      ∧ ∀ text, decode text = text ↔ ¬HasEscape text :=
  ⟨decode_encodeWith_append plain_isUnreserved, decode_encodeWith_append plain_isPathByte, decode_encode,
    decode_encodePath, decode_eq_self_iff⟩

end HomeWidget.Percent
