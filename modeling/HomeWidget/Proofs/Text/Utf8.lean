import HomeWidget.Text.Utf8
import Mathlib.Tactic.SplitIfs

/-!
# UTF-8 reads back what it writes

The machine of `Text/Utf8` is run over the bytes of one character: whatever follows them, it stops between characters
again and has reported exactly that character. Both readings therefore undo the writing, the strict one without ever
refusing and the lossy one without a replacement character.

Of bytes that are no text the machine reports at most as many pieces as there are bytes, and a whole character among them
is one piece, whatever is broken off before it.

Main results: `decode?_encode`, `decodeLossy_encode_append`, `length_scan_utf8EncodeChar`.
-/
namespace HomeWidget.Utf8

/-! ## §1. One byte -/

/-- A byte that is owed and in range, others being owed after it. -/
theorem continueWith_more {o : Open} {b n m : Nat} (hb : o.low ≤ b ∧ b ≤ o.high)
    (hn : o.value * 64 + (b - 0x80) = n) (hm : o.owed = m + 2) :
    continueWith o b = ([], some { value := n, owed := m + 1 }) := by
  unfold continueWith
  rw [if_pos hb]
  simp only
  rw [if_neg (by omega), hn, hm]
  rfl

/-- The last byte that is owed, in range: the character is complete. -/
theorem continueWith_last {o : Open} {b n : Nat} (hb : o.low ≤ b ∧ b ≤ o.high)
    (hn : o.value * 64 + (b - 0x80) = n) (ho : o.owed = 1) :
    continueWith o b = ([.char (Char.ofNat n)], none) := by
  unfold continueWith
  rw [if_pos hb]
  simp only
  rw [if_pos (by omega), hn]

/-- The byte before two owed ones: the range of the next byte excludes long forms and surrogates. -/
theorem start_three {n : Nat} (hn : n < 16) :
    ∃ low high, start (n + 0xE0) = ([], some { value := n, owed := 2, low := low, high := high })
      ∧ low ≤ (if n = 0 then 0xA0 else 0x80) ∧ (if n = 13 then 0x9F else 0xBF) ≤ high := by
  unfold start
  rw [if_neg (by omega), if_neg (by omega), if_neg (by omega)]
  -- after `0xE0` a long form would be possible, after `0xED` a surrogate
  rcases (show n = 0 ∨ n = 13 ∨ (n ≠ 0 ∧ n ≠ 13) by omega) with rfl | rfl | ⟨h0, h13⟩
  · exact ⟨0xA0, 0xBF, by simp⟩
  · exact ⟨0x80, 0x9F, by simp⟩
  · rw [if_neg (by omega), if_neg (by omega), if_pos (by omega)]
    exact ⟨0x80, 0xBF, by simp [h0, h13]⟩

/-- The byte before three owed ones: the range of the next byte keeps the code point within Unicode. -/
theorem start_four {n : Nat} (hn : n < 5) :
    ∃ low high, start (n + 0xF0) = ([], some { value := n, owed := 3, low := low, high := high })
      ∧ low ≤ (if n = 0 then 0x90 else 0x80) ∧ (if n = 4 then 0x8F else 0xBF) ≤ high := by
  unfold start
  rw [if_neg (by omega), if_neg (by omega), if_neg (by omega), if_neg (by omega), if_neg (by omega),
    if_neg (by omega)]
  -- after `0xF0` a long form would be possible, after `0xF4` a number beyond Unicode
  rcases (show n = 0 ∨ n = 4 ∨ (n ≠ 0 ∧ n < 4) by omega) with rfl | rfl | ⟨h0, h4⟩
  · exact ⟨0x90, 0xBF, by simp⟩
  · exact ⟨0x80, 0x8F, by simp⟩
  · rw [if_neg (by omega), if_pos (by omega)]
    exact ⟨0x80, 0xBF, by simp [h0, show n ≠ 4 by omega]⟩

/-- The reader steps over a byte between characters. -/
theorem scan_none_cons {n : Nat} {pieces : List Piece} {next : Option Open} (hn : n < 256)
    (h : start n = (pieces, next)) (rest : Bytes) :
    scan none (UInt8.ofNat n :: rest) = pieces ++ scan next rest := by
  show (start (UInt8.ofNat n).toNat).1 ++ scan (start (UInt8.ofNat n).toNat).2 rest = _
  rw [UInt8.toNat_ofNat_of_lt' hn, h]

/-- The reader steps over a byte within a character. -/
theorem scan_some_cons {o : Open} {n : Nat} {pieces : List Piece} {next : Option Open} (hn : n < 256)
    (h : continueWith o n = (pieces, next)) (rest : Bytes) :
    scan (some o) (UInt8.ofNat n :: rest) = pieces ++ scan next rest := by
  show (continueWith o (UInt8.ofNat n).toNat).1 ++ scan (continueWith o (UInt8.ofNat n).toNat).2 rest = _
  rw [UInt8.toNat_ofNat_of_lt' hn, h]

/-! ## §2. One character -/

/-- The code points that are characters. -/
theorem charRange (c : Char) : c.toNat < 0xD800 ∨ (0xDFFF < c.toNat ∧ c.toNat < 0x110000) := c.valid

/-- **The bytes of a character are read as that character**, and the reader stands between characters after them. -/
theorem scan_utf8EncodeChar (c : Char) (rest : Bytes) :
    scan none (String.utf8EncodeChar c ++ rest) = .char c :: scan none rest := by
  have hc : Char.ofNat c.toNat = c := Char.ofNat_toNat c
  have hv := charRange c
  unfold String.utf8EncodeChar
  simp only [show c.val.toNat = c.toNat from rfl]
  -- from here on only the number of the character counts, and which of the four lengths it takes
  generalize c.toNat = v at hc hv ⊢
  split
  · -- one byte
    have h0 : start v = ([.char c], none) := by
      unfold start
      rw [if_pos (by omega), hc]
    exact scan_none_cons (by omega) h0 rest
  · split
    · -- two bytes
      have h0 : start (v / 64 % 0x20 + 0xC0) = ([], some { value := v / 64, owed := 1 }) := by
        unfold start
        rw [if_neg (by omega), if_neg (by omega), if_pos (by omega),
          show v / 64 % 0x20 + 0xC0 - 0xC0 = v / 64 by omega]
      have h1 : continueWith { value := v / 64, owed := 1 } (v % 0x40 + 0x80) = ([.char c], none) := by
        rw [continueWith_last (n := v) (by simp only; omega) (by simp only; omega) rfl, hc]
      rw [List.cons_append, scan_none_cons (by omega) h0, List.nil_append, List.cons_append,
        scan_some_cons (by omega) h1, List.nil_append]
      rfl
    · split
      · -- three bytes
        obtain ⟨low, high, h0, hlow, hhigh⟩ := start_three (n := v / 4096 % 0x10) (by omega)
        have h1 : continueWith { value := v / 4096 % 0x10, owed := 2, low := low, high := high }
            (v / 64 % 0x40 + 0x80) = ([], some { value := v / 64, owed := 1 }) :=
          continueWith_more (by simp only; split_ifs at hlow hhigh <;> omega) (by simp only; omega) rfl
        have h2 : continueWith { value := v / 64, owed := 1 } (v % 0x40 + 0x80) = ([.char c], none) := by
          rw [continueWith_last (n := v) (by simp only; omega) (by simp only; omega) rfl, hc]
        rw [List.cons_append, scan_none_cons (by omega) h0, List.nil_append, List.cons_append,
          scan_some_cons (by omega) h1, List.nil_append, List.cons_append, scan_some_cons (by omega) h2,
          List.nil_append]
        rfl
      · -- four bytes
        obtain ⟨low, high, h0, hlow, hhigh⟩ := start_four (n := v / 262144 % 0x08) (by omega)
        have h1 : continueWith { value := v / 262144 % 0x08, owed := 3, low := low, high := high }
            (v / 4096 % 0x40 + 0x80) = ([], some { value := v / 4096, owed := 2 }) :=
          continueWith_more (by simp only; split_ifs at hlow hhigh <;> omega) (by simp only; omega) rfl
        have h2 : continueWith { value := v / 4096, owed := 2 } (v / 64 % 0x40 + 0x80)
            = ([], some { value := v / 64, owed := 1 }) :=
          continueWith_more (by simp only; omega) (by simp only; omega) rfl
        have h3 : continueWith { value := v / 64, owed := 1 } (v % 0x40 + 0x80) = ([.char c], none) := by
          rw [continueWith_last (n := v) (by simp only; omega) (by simp only; omega) rfl, hc]
        rw [List.cons_append, scan_none_cons (by omega) h0, List.nil_append, List.cons_append,
          scan_some_cons (by omega) h1, List.nil_append, List.cons_append, scan_some_cons (by omega) h2,
          List.nil_append, List.cons_append, scan_some_cons (by omega) h3, List.nil_append]
        rfl

/-! ## §3. Texts -/

/-- Bytes of characters are read as these characters, whatever comes behind them. -/
theorem scan_encode_append (cs : List Char) (rest : Bytes) :
    scan none (encode cs ++ rest) = cs.map .char ++ scan none rest := by
  induction cs with
  | nil => rfl
  | cons c cs ih =>
    show scan none ((String.utf8EncodeChar c ++ encode cs) ++ rest) = _
    rw [List.append_assoc, scan_utf8EncodeChar, ih]
    rfl

/-- Characters without a byte among them make a text. -/
theorem mapM_char (cs : List Char) : (cs.map Piece.char).mapM Piece.char? = some cs := by
  induction cs with
  | nil => rfl
  | cons c cs ih =>
    rw [List.map_cons, List.mapM_cons, ih]
    rfl

/-- **The strict reading accepts what is written**, and gives it back. -/
theorem decode?_encode (cs : List Char) : decode? (encode cs) = some cs := by
  have h := scan_encode_append cs []
  rw [List.append_nil] at h
  unfold decode?
  rw [h, show scan none [] = [] from rfl, List.append_nil]
  exact mapM_char cs

/-- **The lossy reading keeps every whole character**, whatever bytes follow it. -/
theorem decodeLossy_encode_append (cs : List Char) (rest : Bytes) :
    decodeLossy (encode cs ++ rest) = cs ++ decodeLossy rest := by
  unfold decodeLossy
  rw [scan_encode_append, List.map_append, List.map_map]
  congr 1
  exact List.map_id cs

/-! ## §4. How many pieces there are -/

/-- An ASCII character is its own byte. -/
theorem utf8EncodeChar_of_lt {c : Char} (hc : c.toNat < 0x80) : String.utf8EncodeChar c = [UInt8.ofNat c.toNat] :=
  String.utf8EncodeChar_eq_singleton (Char.utf8Size_eq_one_iff.2 (Nat.le_of_lt_succ hc))

/-- The bytes of a character that is not ASCII: none of them is ASCII, and the first continues no character. -/
theorem utf8EncodeChar_of_ge {c : Char} (hc : 0x80 ≤ c.toNat) :
    ∃ first rest, String.utf8EncodeChar c = first :: rest ∧ 0xC0 ≤ first.toNat ∧ ∀ b ∈ rest, 0x80 ≤ b.toNat := by
  have hcontinuation (n : Nat) : 0x80 ≤ (n % 0x40 + 0x80) % 256 := by omega
  unfold String.utf8EncodeChar
  simp only [show c.val.toNat = c.toNat from rfl]
  rw [if_neg (by omega)]
  split_ifs
  all_goals
    refine ⟨_, _, rfl, ?_, by simp [hcontinuation]⟩
    rw [UInt8.toNat_ofNat_of_lt' (show _ < 256 by omega)]
    omega

/-- The pieces that are due: an open character will be one, whole or broken. -/
def due : Option Open → Nat
  | none => 0
  | some _ => 1

/-- Only continuations are in the range of the next byte. -/
def Open.Inner (o : Open) : Prop := 0x80 ≤ o.low ∧ o.high ≤ 0xBF

/-- Between characters there is no range. -/
theorem inner_none : ∀ o ∈ (none : Option Open), o.Inner := by
  intro o h
  cases h

/-- A byte between characters is one piece, now or later. -/
theorem start_due (b : Nat) :
    ∃ pieces next, start b = (pieces, next) ∧ pieces.length + due next = 1 ∧ ∀ o ∈ next, o.Inner := by
  fun_cases start b
  all_goals exact ⟨_, _, rfl, rfl, by simp [Open.Inner]⟩

/-- A byte within a character is at most one piece more than what is due. -/
theorem continueWith_due (o : Open) (b : Nat) :
    ∃ pieces next, continueWith o b = (pieces, next) ∧ pieces.length + due next ≤ 2 ∧ ∀ o' ∈ next, o'.Inner := by
  obtain ⟨pieces, next, hstart, hcount, hinner⟩ := start_due b
  unfold continueWith
  split_ifs
  · exact ⟨_, _, rfl, Nat.le_succ 1, inner_none⟩
  · exact ⟨_, _, rfl, Nat.le_succ 1, by simp [Open.Inner]⟩
  · rw [hstart]
    refine ⟨_, _, rfl, ?_, hinner⟩
    rw [List.length_cons]
    omega

/-- **A byte is at most one piece**, and the range of the next byte is right again. -/
theorem exists_scan_cons (o : Option Open) (b : UInt8) :
    ∃ pieces next, (∀ rest, scan o (b :: rest) = pieces ++ scan next rest)
      ∧ pieces.length + due next ≤ due o + 1 ∧ ∀ o' ∈ next, o'.Inner := by
  have hb : b = UInt8.ofNat b.toNat := UInt8.ofNat_toNat.symm
  cases o with
  | none =>
    obtain ⟨pieces, next, hstart, hcount, hinner⟩ := start_due b.toNat
    exact ⟨pieces, next, hb ▸ scan_none_cons b.toNat_lt hstart, Nat.le_of_eq hcount, hinner⟩
  | some o =>
    obtain ⟨pieces, next, hcontinue, hcount, hinner⟩ := continueWith_due o b.toNat
    exact ⟨pieces, next, hb ▸ scan_some_cons b.toNat_lt hcontinue, hcount, hinner⟩

/-- What continues no character breaks off the one that is open, and is looked at again. -/
theorem scan_some_of_outer {o : Open} (ho : o.Inner) {b : UInt8} (hb : b.toNat < 0x80 ∨ 0xC0 ≤ b.toNat) (rest : Bytes) :
    scan (some o) (b :: rest) = .broken :: scan none (b :: rest) := by
  obtain ⟨hlow, hhigh⟩ := ho
  show (continueWith o b.toNat).1 ++ scan (continueWith o b.toNat).2 rest = _
  unfold continueWith
  rw [if_neg (by omega)]
  rfl

/-- The first byte of a character is never a continuation. -/
theorem exists_first (c : Char) :
    ∃ first rest, String.utf8EncodeChar c = first :: rest ∧ (first.toNat < 0x80 ∨ 0xC0 ≤ first.toNat) := by
  by_cases hc : c.toNat < 0x80
  · exact ⟨_, _, utf8EncodeChar_of_lt hc, Or.inl (by rwa [UInt8.toNat_ofNat_of_lt' (show _ < 256 by omega)])⟩
  · obtain ⟨first, rest, hbytes, hfirst, -⟩ := utf8EncodeChar_of_ge (Nat.le_of_not_lt hc)
    exact ⟨first, rest, hbytes, Or.inr hfirst⟩

/-- **A character is one piece behind what is due**, and nothing is due after it. -/
theorem length_scan_utf8EncodeChar {o : Option Open} (ho : ∀ o' ∈ o, o'.Inner) (c : Char) (rest : Bytes) :
    (scan o (String.utf8EncodeChar c ++ rest)).length = due o + 1 + (scan none rest).length := by
  have hwhole : (scan none (String.utf8EncodeChar c ++ rest)).length = 1 + (scan none rest).length := by
    rw [scan_utf8EncodeChar, List.length_cons, Nat.add_comm]
  cases o with
  | none => rw [hwhole, due, Nat.zero_add]
  | some o =>
    obtain ⟨first, more, hbytes, hfirst⟩ := exists_first c
    rw [hbytes] at hwhole ⊢
    rw [List.cons_append, scan_some_of_outer (ho o rfl) hfirst, List.length_cons, ← List.cons_append, hwhole, due]
    omega

end HomeWidget.Utf8
