import HomeWidget.Json.Token
import HomeWidget.Json.Writer

/-!
# The lexer over written values

The lexer reads from the left, and what it has read so far does not change what it makes of the rest: `lex` says the
same as `tokens?` by recursion on the text. Over it each written scalar is one lemma. A string ends itself; a word or
a numeral ends where a mark follows it, or where the text ends, so that what follows is part of the statement.

Main results: `tokens?_eq_lex`, `lex_quote`, `lex_word`, `lex_numeral`.
-/
namespace HomeWidget.Json

/-! ## §1. The lexer by recursion -/

/-- The tokens that a lexer finds in a text. -/
def lex : Lexer → List Char → Option (List Token)
  | lexer, [] => lexer.close?
  | lexer, c :: cs => (lexer.step? c).bind fun (tokens, next) => (lex next cs).map (tokens ++ ·)

theorem lex_cons (lexer : Lexer) (c : Char) (cs : List Char) :
    lex lexer (c :: cs) = (lexer.step? c).bind fun (tokens, next) => (lex next cs).map (tokens ++ ·) := rfl

/-- A step that finds no token. -/
theorem lex_cons_of_step {lexer next : Lexer} {c : Char} (h : lexer.step? c = some ([], next)) (cs : List Char) :
    lex lexer (c :: cs) = lex next cs := by
  rw [lex_cons, h]
  show (lex next cs).map (fun tokens => tokens) = _
  rw [Option.map_id']

/-- What was found before does not matter for the rest. -/
theorem collect_lex (text : List Char) (found : List Token) (lexer : Lexer) :
    ((text.foldlM collect? (found, lexer)).bind fun (reversed, last) =>
        last.close?.map fun ended => reversed.reverse ++ ended)
      = (lex lexer text).map (found.reverse ++ ·) := by
  -- the loop keeps its tokens in reverse, so that the statement is about any of them
  induction text generalizing found lexer with
  | nil => rfl
  | cons c cs ih =>
    rw [List.foldlM_cons, lex_cons]
    unfold collect?
    cases hstep : lexer.step? c with
    | none => rfl
    | some p =>
      obtain ⟨tokens, next⟩ := p
      show ((cs.foldlM collect? (tokens.reverse ++ found, next)).bind _) = ((lex next cs).map (tokens ++ ·)).map _
      rw [ih, Option.map_map]
      congr 1
      funext rest
      simp

/-- Tokens are found one character after another. -/
theorem tokens?_eq_lex (text : List Char) : tokens? text = lex .between text := by
  have h := collect_lex text [] .between
  rw [List.reverse_nil] at h
  unfold tokens?
  -- what stands between the two sides is that `none` and `some` are handed on
  rw [show (lex .between text) = (lex .between text).map (([] : List Token) ++ ·) by simp, ← h]
  cases text.foldlM collect? ([], .between) with
  | none => rfl
  | some p =>
    obtain ⟨reversed, last⟩ := p
    show (last.close?.bind fun ended => some (reversed.reverse ++ ended)) = last.close?.map _
    cases last.close? <;> rfl

/-! ## §2. Marks, words and numerals -/

/-- What may stand after a word or a numeral: nothing, or a character that continues neither. -/
def Ends (rest : List Char) : Prop := ∀ c ∈ rest.head?, c.isAlpha = false ∧ Lexer.isNumeralChar c = false

theorem ends_nil : Ends [] := fun c hc => by cases hc

/-- A value ends before a character that no word and no numeral goes on with. -/
theorem ends_cons {c : Char} (h : c.isAlpha = false ∧ Lexer.isNumeralChar c = false) (rest : List Char) :
    Ends (c :: rest) := by
  intro d hd
  rw [List.head?_cons, Option.mem_some] at hd
  rw [← hd]
  exact h

/-- A character that continues neither a word nor a numeral ends it, and is then read by itself. -/
theorem lex_of_close {lexer : Lexer} {tokens : List Token} {rest : List Char} (hclose : lexer.close? = some tokens)
    (hstep : ∀ c ∈ rest.head?, lexer.step? c
      = (lexer.close?.bind fun ended => (Lexer.open? c).map fun (found, next) => (ended ++ found, next))) :
    lex lexer rest = (lex .between rest).map (tokens ++ ·) := by
  cases rest with
  | nil =>
    show lexer.close? = ((Lexer.between).close?).map _
    rw [hclose]
    simp [Lexer.close?]
  | cons c cs =>
    rw [lex_cons, lex_cons, hstep c rfl, hclose]
    show (((Lexer.open? c).map _).bind _) = (((Lexer.open? c).bind _).map _)
    cases Lexer.open? c with
    | none => rfl
    | some p =>
      show (lex p.2 cs).map _ = ((lex p.2 cs).map _).map _
      rw [Option.map_map]
      congr 1
      funext found
      simp

/-- Letters are kept until the word ends. -/
theorem lex_wordChars {word : List Char} (hword : ∀ c ∈ word, c.isAlpha = true) (reversed rest : List Char) :
    lex (.word reversed) (word ++ rest) = lex (.word (word.reverse ++ reversed)) rest := by
  induction word generalizing reversed with
  | nil => rfl
  | cons c cs ih =>
    have hstep : (Lexer.word reversed).step? c = some ([], .word (c :: reversed)) :=
      if_pos (hword c List.mem_cons_self)
    rw [List.cons_append, lex_cons_of_step hstep, ih fun d hd => hword d (List.mem_cons_of_mem _ hd)]
    simp

/-- Characters of a numeral are kept until the numeral ends. -/
theorem lex_numeralChars {text : List Char} (htext : ∀ c ∈ text, Lexer.isNumeralChar c = true)
    (reversed rest : List Char) :
    lex (.numeral reversed) (text ++ rest) = lex (.numeral (text.reverse ++ reversed)) rest := by
  induction text generalizing reversed with
  | nil => rfl
  | cons c cs ih =>
    have hstep : (Lexer.numeral reversed).step? c = some ([], .numeral (c :: reversed)) :=
      if_pos (htext c List.mem_cons_self)
    rw [List.cons_append, lex_cons_of_step hstep, ih fun d hd => htext d (List.mem_cons_of_mem _ hd)]
    simp

/-- **A word that names a value is one token**, if it ends where it should. -/
theorem lex_word {c : Char} {word rest : List Char} {value : Json} (hc : Lexer.open? c = some ([], .word [c]))
    (hword : ∀ c ∈ word, c.isAlpha = true) (hvalue : ofWord? (c :: word) = some value) (hrest : Ends rest) :
    lex .between (c :: word ++ rest) = (lex .between rest).map (.scalar value :: ·) := by
  have hclose : (Lexer.word (word.reverse ++ [c])).close? = some [.scalar value] := by
    simp [Lexer.close?, hvalue]
  have hopen : Lexer.between.step? c = some ([], .word [c]) := hc
  rw [List.cons_append, lex_cons_of_step hopen, lex_wordChars hword]
  apply lex_of_close hclose
  -- the character after the word is no letter, so that the step closes the word first
  intro d hd
  have hend : ¬d.isAlpha = true := by rw [(hrest d hd).1]; exact Bool.noConfusion
  simp only [Lexer.step?]
  rw [if_neg hend]
  cases (Lexer.word (word.reverse ++ [c])).close? <;> cases Lexer.open? d <;> rfl

/-- **A numeral is one token**, if it ends where it should. -/
theorem lex_numeral {c : Char} {text rest : List Char} {n : Number} (hc : Lexer.open? c = some ([], .numeral [c]))
    (htext : ∀ c ∈ text, Lexer.isNumeralChar c = true) (hnumber : Number.ofText? (c :: text) = some n)
    (hrest : Ends rest) :
    lex .between (c :: text ++ rest) = (lex .between rest).map (.scalar (number n) :: ·) := by
  have hclose : (Lexer.numeral (text.reverse ++ [c])).close? = some [.scalar (number n)] := by
    simp [Lexer.close?, hnumber]
  have hopen : Lexer.between.step? c = some ([], .numeral [c]) := hc
  rw [List.cons_append, lex_cons_of_step hopen, lex_numeralChars htext]
  apply lex_of_close hclose
  -- as after a word
  intro d hd
  have hend : ¬Lexer.isNumeralChar d = true := by rw [(hrest d hd).2]; exact Bool.noConfusion
  simp only [Lexer.step?]
  rw [if_neg hend]
  cases (Lexer.numeral (text.reverse ++ [c])).close? <;> cases Lexer.open? d <;> rfl

/-! ## §3. Strings -/

/-- A step inside a string. -/
theorem lex_quoted_cons {reversed r : List Char} {q q' : Quoted} {c : Char} (hplain : q = .plain → c ≠ '"')
    (h : Quoted.step? reversed c q = some (r, q')) (cs : List Char) :
    lex (.quoted reversed q) (c :: cs) = lex (.quoted r q') cs := by
  apply lex_cons_of_step
  cases q with
  | plain =>
    have hc : ¬c = '"' := hplain rfl
    simp only [Lexer.step?]
    rw [if_neg hc, h]
    rfl
  | _ =>
    simp only [Lexer.step?]
    rw [h]
    rfl

/-- The four digits of a control character. -/
theorem unit_control : ∀ n < 0x20,
    Hex.padded Hex.lower 4 n = ['0', '0', Hex.lower (n / 16), Hex.lower (n % 16)]
      ∧ addDigit? ['0', '0'] (Hex.lower (n / 16)) = some (.inl ['0', '0', Hex.lower (n / 16)])
      ∧ addDigit? ['0', '0', Hex.lower (n / 16)] (Hex.lower (n % 16)) = some (.inr n) := by
  decide

/-- A control character is read from its code unit. -/
theorem lex_control {c : Char} (hc : c.toNat < 0x20) (reversed rest : List Char) :
    lex (.quoted reversed .plain) ('\\' :: 'u' :: Hex.padded Hex.lower 4 c.toNat ++ rest)
      = lex (.quoted (c :: reversed) .plain) rest := by
  obtain ⟨hdigits, hthird, hfourth⟩ := unit_control c.toNat hc
  have hlast : Quoted.step? reversed (Hex.lower (c.toNat % 16)) (.unit ['0', '0', Hex.lower (c.toNat / 16)])
      = some (c :: reversed, .plain) := by
    -- the code unit of a control character is no half of a pair
    have hhalf : isFirstHalf c.toNat = false := by
      unfold isFirstHalf
      rw [Bool.and_eq_false_iff, decide_eq_false_iff_not]
      omega
    have hhalf' : isSecondHalf c.toNat = false := by
      unfold isSecondHalf
      rw [Bool.and_eq_false_iff, decide_eq_false_iff_not]
      omega
    simp [Quoted.step?, hfourth, hhalf, hhalf', Char.ofNat_toNat]
  have hthree : Quoted.step? reversed (Hex.lower (c.toNat / 16)) (.unit ['0', '0'])
      = some (reversed, .unit ['0', '0', Hex.lower (c.toNat / 16)]) := by
    simp [Quoted.step?, hthird]
  -- six characters: the backslash, the letter and four digits
  rw [hdigits]
  show lex _ ('\\' :: 'u' :: '0' :: '0' :: Hex.lower (c.toNat / 16) :: Hex.lower (c.toNat % 16) :: rest) = _
  rw [lex_quoted_cons (fun _ => by decide) (show Quoted.step? reversed '\\' .plain = some (reversed, .escape) from rfl),
    lex_quoted_cons Quoted.noConfusion (show Quoted.step? reversed 'u' .escape = some (reversed, .unit []) from rfl),
    lex_quoted_cons Quoted.noConfusion (show Quoted.step? reversed '0' (.unit []) = some (reversed, .unit ['0']) from rfl),
    lex_quoted_cons Quoted.noConfusion
      (show Quoted.step? reversed '0' (.unit ['0']) = some (reversed, .unit ['0', '0']) from rfl),
    lex_quoted_cons Quoted.noConfusion hthree, lex_quoted_cons Quoted.noConfusion hlast]

/-- A character with an escape of one letter is read from it. -/
theorem lex_letter {c e : Char} (he : e ≠ 'u') (hc : ofEscape? e = some c) (reversed rest : List Char) :
    lex (.quoted reversed .plain) ('\\' :: e :: rest) = lex (.quoted (c :: reversed) .plain) rest := by
  have hletter : Quoted.step? reversed e .escape = some (c :: reversed, .plain) := by
    simp only [Quoted.step?]
    rw [if_neg he, hc]
    rfl
  rw [lex_quoted_cons (fun _ => by decide) (show Quoted.step? reversed '\\' .plain = some (reversed, .escape) from rfl),
    lex_quoted_cons Quoted.noConfusion hletter]

/-- **An escaped character is read as itself.** -/
theorem lex_escape (c : Char) (reversed rest : List Char) :
    lex (.quoted reversed .plain) (escape c ++ rest) = lex (.quoted (c :: reversed) .plain) rest := by
  unfold escape
  -- seven letters, then the control characters without one, then all others
  split
  · exact lex_letter (by decide) rfl reversed rest
  · exact lex_letter (by decide) rfl reversed rest
  · exact lex_letter (by decide) rfl reversed rest
  · exact lex_letter (by decide) rfl reversed rest
  · exact lex_letter (by decide) rfl reversed rest
  · exact lex_letter (by decide) rfl reversed rest
  · exact lex_letter (by decide) rfl reversed rest
  next hquote hbackslash _ _ _ _ _ =>
    by_cases hcontrol : c.toNat < 0x20
    · rw [if_pos hcontrol]
      exact lex_control hcontrol reversed rest
    · rw [if_neg hcontrol]
      -- the character stands for itself
      have hstep : Quoted.step? reversed c .plain = some (c :: reversed, .plain) := by
        simp only [Quoted.step?]
        rw [if_neg hbackslash, if_neg hcontrol]
      exact lex_quoted_cons (fun _ => hquote) hstep rest

/-- **The escapes of a string are read back as its characters**, by induction on these. -/
theorem lex_escapes (cs reversed rest : List Char) :
    lex (.quoted reversed .plain) (cs.flatMap escape ++ rest) = lex (.quoted (cs.reverse ++ reversed) .plain) rest := by
  induction cs generalizing reversed with
  | nil => rfl
  | cons c cs ih =>
    rw [List.flatMap_cons, List.append_assoc, lex_escape, ih]
    simp

/-- **A written string is one token.** -/
theorem lex_quote (s : String) (rest : List Char) :
    lex .between (quote s ++ rest) = (lex .between rest).map (.scalar (string s) :: ·) := by
  have hopen : Lexer.between.step? '"' = some ([], .quoted [] .plain) := rfl
  have hclose : (Lexer.quoted s.toList.reverse .plain).step? '"' = some ([.scalar (string s)], .between) := by
    simp [Lexer.step?]
  unfold quote
  rw [List.append_assoc, List.cons_append, lex_cons_of_step hopen, lex_escapes, List.append_nil, List.singleton_append,
    lex_cons, hclose]
  rfl

/-! ## §4. Marks -/

/-- A mark of punctuation is one token. -/
theorem lex_mark {c : Char} {token : Token} (h : Lexer.open? c = some ([token], .between)) (rest : List Char) :
    lex .between (c :: rest) = (lex .between rest).map (token :: ·) := by
  have hstep : Lexer.between.step? c = some ([token], .between) := h
  rw [lex_cons, hstep]
  rfl

end HomeWidget.Json
