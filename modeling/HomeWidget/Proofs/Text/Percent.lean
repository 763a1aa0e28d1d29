import HomeWidget.Proofs.Text.Hex
import HomeWidget.Proofs.Text.Utf8
import HomeWidget.Text.Percent

/-!
# Percent escapes undo themselves

What is written is ASCII: a byte that is kept stands for itself, any other is `%` and two digits. Decoding therefore
meets an escape exactly where a byte was escaped, and what follows an escaped text is decoded as if it stood alone. The
two encoders differ in the bytes that they keep, so the theory is over any set of kept bytes that are ASCII and not `%`.

Main results: `decode_encodeWith_append`, `mem_encode`, `decode_encodePath`, `mem_encodePath`.
-/
namespace HomeWidget.Percent

/-! ## §1. Hexadecimal digits as bytes -/

/-- An upper-case digit is ASCII and read back as its value. -/
theorem value?_upper {n : Nat} (hn : n < 16) :
    Hex.value? (Hex.upper n) = some n ∧ (Hex.upper n).toNat < 0x80 := by
  have h : Hex.Spells (Hex.upper n) n := ⟨hn, Or.inr rfl⟩
  exact ⟨Hex.value?_of_spells h, h.toNat_lt⟩

theorem padded_two (digit : Nat → Char) (n : Nat) : Hex.padded digit 2 n = [digit (n / 16 % 16), digit (n % 16)] := by
  simp [Hex.padded, List.range_succ]

/-- A character below `0x80` is its own byte. -/
theorem encode_ascii {c : Char} (hc : c.toNat < 0x80) (cs : List Char) :
    Utf8.encode (c :: cs) = UInt8.ofNat c.toNat :: Utf8.encode cs := by
  show String.utf8EncodeChar c ++ Utf8.encode cs = _
  rw [Utf8.utf8EncodeChar_of_lt hc]
  rfl

/-- The first characters are numbered like the bytes. -/
theorem toNat_ofNat_byte {n : Nat} (hn : n < 0x100) : (Char.ofNat n).toNat = n := by
  unfold Char.ofNat
  rw [dif_pos (Or.inl (by omega))]
  rfl

/-- The value of an ASCII character is that of its byte. -/
theorem digit?_ascii {c : Char} (hc : c.toNat < 0x80) : digit? (UInt8.ofNat c.toNat) = Hex.value? c := by
  unfold digit?
  rw [UInt8.toNat_ofNat_of_lt' (show _ < 256 by omega), Char.ofNat_toNat]

/-- The digits that are written are read. -/
theorem digit?_upper {n : Nat} (hn : n < 16) : digit? (UInt8.ofNat (Hex.upper n).toNat) = some n := by
  obtain ⟨hv, hlt⟩ := value?_upper hn
  rw [digit?_ascii hlt, hv]

/-! ## §2. One byte -/

/-- What may be kept: ASCII other than `%`. -/
def Plain (keep : UInt8 → Bool) : Prop := ∀ b, keep b = true → b.toNat < 0x80 ∧ b ≠ 0x25

/-- The bytes that are left as they are in a value are no signs of an escape. -/
theorem plain_isUnreserved : Plain isUnreserved := by
  -- the bytes are few enough to be looked at one by one
  have key : ∀ n < 256, isUnreserved (UInt8.ofNat n) = true → n < 0x80 ∧ UInt8.ofNat n ≠ 0x25 := by
    decide +kernel
  intro b hb
  have h := key b.toNat b.toNat_lt
  rw [UInt8.ofNat_toNat] at h
  exact h hb

/-- The two digits of an escape are read as the byte that they were written for. -/
theorem escaped?_upper (b : UInt8) :
    escaped? (UInt8.ofNat (Hex.upper (b.toNat / 16 % 16)).toNat) (UInt8.ofNat (Hex.upper (b.toNat % 16)).toNat)
      = some b := by
  have hb : b.toNat < 256 := b.toNat_lt
  unfold escaped?
  rw [digit?_upper (by omega), digit?_upper (by omega)]
  show some (UInt8.ofNat (b.toNat / 16 % 16 * 16 + b.toNat % 16)) = some b
  rw [show b.toNat / 16 % 16 * 16 + b.toNat % 16 = b.toNat by omega, UInt8.ofNat_toNat]

/-- A byte that is no percent sign stands for itself. -/
theorem decodeBytes_cons_of_ne {b : UInt8} (hb : b ≠ 0x25) (rest : Bytes) :
    decodeBytes (b :: rest) = b :: decodeBytes rest := by
  rw [decodeBytes]
  -- what is left is that the bytes do not start like an escape
  rintro high low tail rfl
  exact absurd rfl hb

/-- **A written byte is read as that byte**, and reading goes on behind it. -/
theorem decodeBytes_encodeByte {keep : UInt8 → Bool} (hk : Plain keep) (b : UInt8) (rest : Bytes) :
    decodeBytes (Utf8.encode (encodeByte keep b) ++ rest) = b :: decodeBytes rest := by
  unfold encodeByte
  by_cases hb : keep b = true
  · obtain ⟨hlt, hne⟩ := hk b hb
    have hcode := toNat_ofNat_byte b.toNat_lt
    rw [if_pos hb, encode_ascii (by rw [hcode]; exact hlt), hcode, UInt8.ofNat_toNat]
    exact decodeBytes_cons_of_ne hne rest
  · have h1 := (value?_upper (n := b.toNat / 16 % 16) (by omega)).2
    have h2 := (value?_upper (n := b.toNat % 16) (by omega)).2
    rw [if_neg hb, padded_two, encode_ascii (by decide), encode_ascii h1, encode_ascii h2]
    show decodeBytes (0x25 :: _ :: _ :: rest) = _
    rw [decodeBytes, escaped?_upper]

/-! ## §3. Texts -/

theorem encode_append (a b : List Char) : Utf8.encode (a ++ b) = Utf8.encode a ++ Utf8.encode b :=
  List.flatMap_append

/-- What was encoded is decoded byte by byte, whatever comes behind it. -/
theorem decodeBytes_flatMap_encodeByte {keep : UInt8 → Bool} (hk : Plain keep) (bs rest : Bytes) :
    decodeBytes (Utf8.encode (bs.flatMap (encodeByte keep)) ++ rest) = bs ++ decodeBytes rest := by
  induction bs with
  | nil => rfl
  | cons b bs ih =>
    rw [List.flatMap_cons, encode_append, List.append_assoc, decodeBytes_encodeByte hk, ih]
    rfl

/-- **Reading undoes writing**, and what follows is read as if it stood alone. -/
theorem decode_encodeWith_append {keep : UInt8 → Bool} (hk : Plain keep) (a b : List Char) :
    decode (encodeWith keep a ++ b) = a ++ decode b := by
  unfold decode encodeWith
  rw [encode_append, decodeBytes_flatMap_encodeByte hk, Utf8.decodeLossy_encode_append]

/-- **An encoded text is decoded again**, whichever plain bytes were left as they are. -/
theorem decode_encodeWith {keep : UInt8 → Bool} (hk : Plain keep) (text : List Char) :
    decode (encodeWith keep text) = text := by
  have h := decode_encodeWith_append hk text []
  rwa [List.append_nil, show decode [] = [] from rfl, List.append_nil] at h

theorem decode_encode (text : List Char) : decode (encode text) = text := decode_encodeWith plain_isUnreserved text

/-! ## §4. The characters of an escaped text -/

/-- What an escaped component is made of: unreserved characters, percent signs and upper-case digits. -/
def isEscapedChar (c : Char) : Bool := c.isAlphanum || c == '-' || c == '.' || c == '_' || c == '~' || c == '%'

theorem isEscapedChar_upper {n : Nat} (hn : n < 16) : isEscapedChar (Hex.upper n) = true := by
  have key : ∀ n < 16, isEscapedChar (Hex.upper n) = true := by decide
  exact key n hn

/-- A byte that is left as it is is one of the characters of an encoded text. -/
theorem isEscapedChar_of_isUnreserved {b : UInt8} (h : isUnreserved b = true) :
    isEscapedChar (Char.ofNat b.toNat) = true := by
  unfold isUnreserved at h
  unfold isEscapedChar
  rw [h]
  rfl

/-- A byte is written as its own character if it is kept, else with a percent sign and digits. -/
theorem mem_encodeByte {keep : UInt8 → Bool} {b : UInt8} {c : Char} (h : c ∈ encodeByte keep b) :
    keep b = true ∧ c = Char.ofNat b.toNat ∨ isEscapedChar c = true := by
  unfold encodeByte at h
  split at h
  next hb => exact Or.inl ⟨hb, List.mem_singleton.1 h⟩
  next =>
    rw [padded_two] at h
    simp only [List.mem_cons, List.not_mem_nil, or_false] at h
    rcases h with rfl | rfl | rfl
    · exact Or.inr (by decide)
    · exact Or.inr (isEscapedChar_upper (by omega))
    · exact Or.inr (isEscapedChar_upper (by omega))

/-- **No mark of an address survives in an escaped component.** -/
theorem mem_encode {text : List Char} {c : Char} (h : c ∈ encode text) : isEscapedChar c = true := by
  unfold encode encodeWith at h
  obtain ⟨b, _, hc⟩ := List.mem_flatMap.1 h
  rcases mem_encodeByte hc with ⟨hb, rfl⟩ | hc
  · exact isEscapedChar_of_isUnreserved hb
  · exact hc

/-! ## §5. Paths -/

/-- In a path some more bytes are left as they are, none of them a percent sign. -/
theorem plain_isPathByte : Plain isPathByte := by
  intro b hb
  unfold isPathByte at hb
  rw [Bool.or_eq_true, beq_iff_eq] at hb
  rcases hb with hb | rfl
  · exact plain_isUnreserved b hb
  · decide

/-- **A written path is read as itself**, marks and look-alikes of escapes included. -/
theorem decode_encodePath (text : List Char) : decode (encodePath text) = text :=
  decode_encodeWith plain_isPathByte text

/-- Of the marks of an address only the separator of paths survives in a written path. -/
theorem mem_encodePath {text : List Char} {c : Char} (h : c ∈ encodePath text) : isEscapedChar c = true ∨ c = '/' := by
  unfold encodePath encodeWith at h
  obtain ⟨b, _, hc⟩ := List.mem_flatMap.1 h
  rcases mem_encodeByte hc with ⟨hb, rfl⟩ | hc
  · unfold isPathByte at hb
    rw [Bool.or_eq_true, beq_iff_eq] at hb
    rcases hb with hb | rfl
    · exact Or.inl (isEscapedChar_of_isUnreserved hb)
    · exact Or.inr (by decide)
  · exact Or.inl hc

/-- The separator stands for itself in a path. -/
theorem encodePath_separator (text : List Char) : encodePath ('/' :: text) = '/' :: encodePath text := by
  unfold encodePath encodeWith
  rw [encode_ascii (by decide), List.flatMap_cons]
  rfl

end HomeWidget.Percent
