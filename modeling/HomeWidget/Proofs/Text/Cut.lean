import HomeWidget.Text.Blank
import HomeWidget.Text.Cut
import Mathlib.Data.List.DropRight

/-!
# Trimming and cutting

What the operations on texts do to a text that is put together from its pieces: trimming takes off just the blanks that
were put around a text, and none from a text that is trimmed; a mark comes off where it was put on, and a text is cut at
a mark that its first piece does not hold. A slice between two offsets is a piece of the text with that many bytes
before it.

Main results: `trim_trim`, `ends_trim`, `exists_trim`, `trim_append`, `cutOrAll_append`, `cutOrAll_eq`, `splitOn_eq_iff`,
`slice?_eq_some_iff`.
-/
namespace HomeWidget.Text

/-! ## §1. Trimming -/

/-- The ASCII characters that leave a mark are no white space. -/
theorem isBlank_of_visible {c : Char} (h : 0x21 ≤ c.toNat ∧ c.toNat ≤ 0x7E) : isBlank c = false := by
  -- the ranges of blanks lie below the exclamation mark and above the tilde
  unfold isBlank blankRanges
  simp only [List.any_cons, List.any_nil, Bool.or_false, Bool.or_eq_false_iff, Bool.and_eq_false_iff,
    decide_eq_false_iff_not]
  omega

/-- A digit is no blank. -/
theorem isBlank_of_isDigit {c : Char} (h : c.isDigit = true) : isBlank c = false := by
  have hc : 0x30 ≤ c.toNat ∧ c.toNat ≤ 0x39 := by
    unfold Char.isDigit at h
    rw [Bool.and_eq_true, decide_eq_true_eq, decide_eq_true_eq] at h
    exact h
  exact isBlank_of_visible (by omega)

/-- A text that starts with something visible keeps its start. -/
theorem trimStart_cons {c : Char} (h : isBlank c = false) (rest : List Char) : trimStart (c :: rest) = c :: rest := by
  unfold trimStart
  rw [List.dropWhile_cons, h]
  rfl

theorem trimStart_eq_self {cs : List Char} (h : ∀ c ∈ cs, isBlank c = false) : trimStart cs = cs := by
  cases cs with
  | nil => rfl
  | cons c rest => exact trimStart_cons (h c List.mem_cons_self) rest

theorem trimEnd_eq_self {cs : List Char} (h : ∀ c ∈ cs, isBlank c = false) : trimEnd cs = cs := by
  unfold trimEnd
  rw [trimStart_eq_self fun c hc => h c (List.mem_reverse.1 hc), List.reverse_reverse]

/-- A text without blanks is not changed. -/
theorem trim_eq_self {cs : List Char} (h : ∀ c ∈ cs, isBlank c = false) : trim cs = cs := by
  unfold trim
  rw [trimStart_eq_self h, trimEnd_eq_self h]

/-- A text that is trimmed has no blank at its start. -/
theorem trimStart_trim (cs : List Char) : trimStart (trim cs) = trim cs := by
  -- what is left at the end of trimming starts as it did before its end was trimmed, if anything is left
  obtain ⟨rest, hrest⟩ : trim cs <+: trimStart cs := List.rdropWhile_prefix isBlank (trimStart cs)
  cases htrim : trim cs with
  | nil => rfl
  | cons c kept =>
    rw [htrim, List.cons_append] at hrest
    have hblank : isBlank c = false := by
      have hhead := List.head?_dropWhile_not isBlank cs
      rw [show cs.dropWhile isBlank = c :: (kept ++ rest) from hrest.symm] at hhead
      exact hhead
    exact trimStart_cons hblank kept

/-- A text that is trimmed has no blank at its end. -/
theorem trimEnd_trim (cs : List Char) : trimEnd (trim cs) = trim cs := List.rdropWhile_idempotent isBlank (trimStart cs)

/-- **Trimming a second time changes nothing.** -/
theorem trim_trim (cs : List Char) : trim (trim cs) = trim cs := by
  show trimEnd (trimStart (trim cs)) = trim cs
  rw [trimStart_trim, trimEnd_trim]

/-- A text that keeps its start does not begin with a blank. -/
theorem head?_of_trimStart {cs : List Char} (h : trimStart cs = cs) : ∀ c ∈ cs.head?, isBlank c = false := by
  intro c hc
  have hhead := List.head?_dropWhile_not isBlank cs
  rw [show cs.dropWhile isBlank = cs from h, Option.mem_def.1 hc] at hhead
  exact hhead

/-- **No white space is left at either end** of a text that is trimmed. -/
theorem ends_trim (cs : List Char) :
    (∀ c ∈ (trim cs).head?, isBlank c = false) ∧ ∀ c ∈ (trim cs).getLast?, isBlank c = false := by
  refine ⟨head?_of_trimStart (trimStart_trim cs), ?_⟩
  have hreverse : trimStart (trim cs).reverse = (trim cs).reverse := by
    rw [← List.reverse_inj, List.reverse_reverse]
    exact trimEnd_trim cs
  rw [← List.head?_reverse]
  exact head?_of_trimStart hreverse

/-- The text is white space, or empty. -/
def Blank (cs : List Char) : Prop := ∀ c ∈ cs, isBlank c = true

instance (cs : List Char) : Decidable (Blank cs) := List.decidableBAll _ cs

/-- Blanks in front make no difference. -/
theorem trimStart_append {lead : List Char} (h : Blank lead) (cs : List Char) : trimStart (lead ++ cs) = trimStart cs :=
  List.dropWhile_append_of_pos h

/-- Blanks behind make no difference. -/
theorem trimEnd_append {trail : List Char} (h : Blank trail) (cs : List Char) : trimEnd (cs ++ trail) = trimEnd cs := by
  unfold trimEnd
  rw [List.reverse_append, trimStart_append fun c hc => h c (List.mem_reverse.1 hc)]

/-- A text that ends in something visible keeps its end. -/
theorem trimEnd_concat {c : Char} (h : isBlank c = false) (cs : List Char) : trimEnd (cs ++ [c]) = cs ++ [c] := by
  unfold trimEnd
  rw [List.reverse_append, List.reverse_singleton, List.singleton_append, trimStart_cons h, List.reverse_cons,
    List.reverse_reverse]

/-- What is taken off the start is blank. -/
theorem exists_trimStart (cs : List Char) : ∃ lead, Blank lead ∧ cs = lead ++ trimStart cs :=
  ⟨cs.takeWhile isBlank, fun _ hc => List.mem_takeWhile_imp hc, List.takeWhile_append_dropWhile.symm⟩

/-- What is taken off the end is blank. -/
theorem exists_trimEnd (cs : List Char) : ∃ trail, Blank trail ∧ cs = trimEnd cs ++ trail := by
  obtain ⟨lead, hlead, hreverse⟩ := exists_trimStart cs.reverse
  refine ⟨lead.reverse, fun c hc => hlead c (List.mem_reverse.1 hc), ?_⟩
  unfold trimEnd
  rw [← List.reverse_append, ← hreverse, List.reverse_reverse]

/-- What trimming takes off is white space. -/
theorem exists_trim (cs : List Char) : ∃ lead trail, Blank lead ∧ Blank trail ∧ cs = lead ++ trim cs ++ trail := by
  obtain ⟨lead, hlead, hstart⟩ := exists_trimStart cs
  obtain ⟨trail, htrail, hend⟩ := exists_trimEnd (trimStart cs)
  refine ⟨lead, trail, hlead, htrail, ?_⟩
  rw [List.append_assoc]
  unfold trim
  rw [← hend, ← hstart]

/-- White space around a text comes off with what the text has of its own. -/
theorem trim_append {lead trail : List Char} (hlead : Blank lead) (htrail : Blank trail) (cs : List Char) :
    trim (lead ++ cs ++ trail) = trim cs := by
  have hstart : trimStart (cs ++ trail) = if (trimStart cs).isEmpty then trimStart trail else trimStart cs ++ trail :=
    List.dropWhile_append
  unfold trim
  rw [List.append_assoc, trimStart_append hlead, hstart]
  split
  next hempty =>
    -- nothing but white space: nothing is left of it
    rw [List.isEmpty_iff.1 hempty, show trimStart trail = [] from List.dropWhile_eq_nil_iff.2 htrail]
  next => exact trimEnd_append htrail (trimStart cs)

/-- **White space around a text that starts and ends with another character comes off**, and nothing else. -/
theorem trim_surrounded {lead trail : List Char} (hlead : Blank lead) (htrail : Blank trail) {first last : Char}
    (hfirst : isBlank first = false) (hlast : isBlank last = false) (middle : List Char) :
    trim (lead ++ (first :: (middle ++ [last])) ++ trail) = first :: (middle ++ [last]) := by
  rw [trim_append hlead htrail]
  unfold trim
  rw [trimStart_cons hfirst, ← List.cons_append, trimEnd_concat hlast]

/-- A string is trimmed once and for all. -/
theorem trimmed_trimmed (s : String) : trimmed (trimmed s) = trimmed s := by
  unfold trimmed
  rw [String.toList_ofList, trim_trim]

/-! ## §2. Cutting -/

/-- A mark is taken off a text that starts with it. -/
theorem stripStart?_eq_some_iff {mark text rest : List Char} :
    stripStart? mark text = some rest ↔ text = mark ++ rest := by
  unfold stripStart?
  rw [List.isPrefixOf?_eq_some_iff_append_eq, eq_comm]

/-- A mark is taken off a text that ends with it. -/
theorem stripEnd?_eq_some_iff {mark text rest : List Char} : stripEnd? mark text = some rest ↔ text = rest ++ mark := by
  unfold stripEnd?
  rw [Option.map_eq_some_iff]
  constructor
  · rintro ⟨reversed, hstrip, rfl⟩
    rw [← List.reverse_inj, stripStart?_eq_some_iff.1 hstrip, List.reverse_append, List.reverse_reverse]
  · rintro rfl
    exact ⟨rest.reverse, stripStart?_eq_some_iff.2 List.reverse_append, List.reverse_reverse rest⟩

theorem stripStart?_append (mark rest : List Char) : stripStart? mark (mark ++ rest) = some rest := by
  unfold stripStart?
  induction mark with
  | nil => rfl
  | cons c mark ih =>
    show (if c == c then List.isPrefixOf? mark (mark ++ rest) else none) = some rest
    rw [beq_self_eq_true, if_pos rfl, ih]

/-- A text that starts with another character does not start with the mark. -/
theorem stripStart?_singleton_of_ne {mark c : Char} (h : c ≠ mark) (rest : List Char) :
    stripStart? [mark] (c :: rest) = none := by
  show (if mark == c then _ else none) = none
  rw [if_neg]
  rw [beq_iff_eq]
  exact fun e => h e.symm

/-- A text is cut at the first mark. -/
theorem cut?_append {mark : Char} {before : List Char} (h : mark ∉ before) (after : List Char) :
    cut? [mark] (before ++ mark :: after) = some (before, after) := by
  induction before with
  | nil =>
    have hmark : stripStart? [mark] (mark :: after) = some after := stripStart?_append [mark] after
    rw [List.nil_append, cut?, hmark]
  | cons c before ih =>
    have hc : c ≠ mark := fun e => h (e ▸ List.mem_cons_self)
    rw [List.cons_append, cut?, stripStart?_singleton_of_ne hc, ih fun hm => h (List.mem_cons_of_mem c hm)]
    rfl

/-- **A text is cut where its first piece ends**, if that piece does not hold the mark. -/
theorem cutOrAll_append {mark : Char} {before : List Char} (h : mark ∉ before) (after : List Char) :
    cutOrAll [mark] (before ++ mark :: after) = (before, after) := by
  unfold cutOrAll
  rw [cut?_append h after]
  rfl

/-- **A text is cut at its first mark**: what comes before it holds none, and the mark itself goes. -/
theorem cutOrAll_eq (mark : Char) (text : List Char) :
    cutOrAll [mark] text = (text.takeWhile (· ≠ mark), (text.dropWhile (· ≠ mark)).drop 1) := by
  induction text with
  | nil => rfl
  | cons c rest ih =>
    by_cases hc : c = mark
    · have hnil : mark ∉ ([] : List Char) := List.not_mem_nil
      have hcut : cutOrAll [mark] (c :: rest) = ([], rest) := by
        rw [hc]
        exact cutOrAll_append hnil rest
      rw [hcut, List.takeWhile_cons_of_neg (by simpa using hc), List.dropWhile_cons_of_neg (by simpa using hc)]
      rfl
    · have hcut : cutOrAll [mark] (c :: rest) = (c :: (cutOrAll [mark] rest).1, (cutOrAll [mark] rest).2) := by
        unfold cutOrAll
        rw [cut?, stripStart?_singleton_of_ne hc]
        cases cut? [mark] rest <;> rfl
      rw [hcut, ih, List.takeWhile_cons_of_pos (by simpa using hc), List.dropWhile_cons_of_pos (by simpa using hc)]

/-- The characters of a joined text are the mark and those of its parts. -/
theorem mem_intercalate {mark c : Char} {parts : List (List Char)} (h : c ∈ [mark].intercalate parts) :
    c = mark ∨ ∃ part ∈ parts, c ∈ part := by
  induction parts with
  | nil => exact absurd h List.not_mem_nil
  | cons part parts ih =>
    cases parts with
    | nil => exact Or.inr ⟨part, List.mem_cons_self, by simpa using h⟩
    | cons next parts =>
      rw [List.intercalate_cons_cons, List.append_assoc] at h
      rcases List.mem_append.1 h with h | h
      · exact Or.inr ⟨part, List.mem_cons_self, h⟩
      · rcases List.mem_cons.1 h with rfl | h
        · exact Or.inl rfl
        · obtain hmark | ⟨found, hfound, hc⟩ := ih h
          · exact Or.inl hmark
          · exact Or.inr ⟨found, List.mem_cons_of_mem _ hfound, hc⟩

/-- No part of a text that is split at a mark holds the mark. -/
theorem not_mem_of_mem_splitOn {mark : Char} {text part : List Char} (h : part ∈ text.splitOn mark) : mark ∉ part := by
  induction text generalizing part with
  | nil =>
    rw [List.splitOn_nil, List.mem_singleton] at h
    rw [h]
    exact List.not_mem_nil
  | cons c text ih =>
    rw [List.splitOn_eq_splitOnP, List.splitOnP_cons_eq_if_modifyHead, ← List.splitOn_eq_splitOnP] at h
    by_cases hc : c = mark
    · rw [if_pos (beq_iff_eq.2 hc)] at h
      rcases List.mem_cons.1 h with rfl | h
      · exact List.not_mem_nil
      · exact ih h
    · -- the character joins the first of the parts behind it
      rw [if_neg (by rwa [beq_iff_eq])] at h
      cases hparts : text.splitOn mark with
      | nil => exact absurd hparts (List.splitOn_ne_nil mark text)
      | cons first others =>
        rw [hparts, List.modifyHead_cons] at h
        rw [hparts] at ih
        rcases List.mem_cons.1 h with rfl | h
        · exact fun hmem => (List.mem_cons.1 hmem).elim (fun e => hc e.symm) (ih List.mem_cons_self)
        · exact ih (List.mem_cons_of_mem _ h)

/-- **Splitting undoes joining**: the parts are the only texts without the mark that it joins to the text. -/
theorem splitOn_eq_iff {mark : Char} {text : List Char} {parts : List (List Char)} :
    text.splitOn mark = parts ↔ text = [mark].intercalate parts ∧ parts ≠ [] ∧ ∀ part ∈ parts, mark ∉ part := by
  constructor
  · rintro rfl
    exact ⟨(List.intercalate_splitOn mark).symm, List.splitOn_ne_nil mark text, fun _ => not_mem_of_mem_splitOn⟩
  · rintro ⟨rfl, hne, hmark⟩
    exact List.splitOn_intercalate mark hmark hne

/-! ## §3. Offsets -/

theorem byteLength_cons (c : Char) (text : List Char) : byteLength (c :: text) = c.utf8Size + byteLength text := rfl

/-- Only the empty text has no bytes. -/
theorem byteLength_eq_zero_iff {text : List Char} : byteLength text = 0 ↔ text = [] := by
  cases text with
  | nil => exact ⟨fun _ => rfl, fun _ => rfl⟩
  | cons c text =>
    have hpos := c.utf8Size_pos
    rw [byteLength_cons]
    exact ⟨fun h => by omega, fun h => by cases h⟩

/-- **A text is divided only between two characters**, where the bytes before are as many as was asked for. -/
theorem splitBytes?_eq_some_iff {n : Nat} {text before after : List Char} :
    splitBytes? n text = some (before, after) ↔ text = before ++ after ∧ byteLength before = n := by
  fun_induction splitBytes? n text generalizing before with
  | case1 text =>
    rw [Option.some.injEq, Prod.mk.injEq, byteLength_eq_zero_iff]
    constructor
    · rintro ⟨rfl, rfl⟩
      exact ⟨rfl, rfl⟩
    · rintro ⟨rfl, rfl⟩
      exact ⟨rfl, rfl⟩
  | case2 n hn =>
    refine ⟨nofun, ?_⟩
    rintro ⟨hnil, rfl⟩
    obtain ⟨rfl, -⟩ := List.nil_eq_append_iff.1 hnil
    exact absurd rfl hn
  | case3 n c rest hn hle ih =>
    rw [Option.map_eq_some_iff]
    constructor
    · rintro ⟨⟨inner, after'⟩, hsplit, hpair⟩
      obtain ⟨rfl, rfl⟩ := Prod.mk.inj hpair
      obtain ⟨rfl, hbytes⟩ := ih.1 hsplit
      refine ⟨rfl, ?_⟩
      rw [byteLength_cons, hbytes]
      omega
    · rintro ⟨htext, rfl⟩
      cases before with
      | nil => exact absurd rfl hn
      | cons d inner =>
        obtain ⟨rfl, rfl⟩ := List.cons.inj htext
        exact ⟨(inner, after), ih.2 ⟨rfl, by rw [byteLength_cons]; omega⟩, rfl⟩
  | case4 n c rest hn hlt =>
    refine ⟨nofun, ?_⟩
    rintro ⟨htext, rfl⟩
    cases before with
    | nil => exact absurd rfl hn
    | cons d inner =>
      obtain ⟨rfl, rfl⟩ := List.cons.inj htext
      rw [byteLength_cons] at hlt
      omega

/-- A character of one byte is one of the bytes before the offset. -/
theorem splitBytes?_ascii {c : Char} (hc : c.utf8Size = 1) (n : Nat) (rest : List Char) :
    splitBytes? (n + 1) (c :: rest) = (splitBytes? n rest).map fun (before, after) => (c :: before, after) := by
  rw [splitBytes?, if_pos (by omega), show n + 1 - c.utf8Size = n by omega]
  exact nofun

/-- **A slice is a piece of the text** with just so many bytes before it and in it. -/
theorem slice?_eq_some_iff {start count : Nat} {text piece : List Char} :
    slice? start count text = some piece
      ↔ ∃ before after, text = before ++ piece ++ after ∧ byteLength before = start ∧ byteLength piece = count := by
  unfold slice?
  simp only [Option.bind_eq_bind, Option.bind_eq_some_iff, Option.pure_def, Option.some.injEq, Prod.exists,
    splitBytes?_eq_some_iff]
  constructor
  · rintro ⟨before, rest, ⟨rfl, hstart⟩, piece, after, ⟨rfl, hcount⟩, rfl⟩
    exact ⟨before, after, (List.append_assoc _ _ _).symm, hstart, hcount⟩
  · rintro ⟨before, after, rfl, hstart, hcount⟩
    exact ⟨before, piece ++ after, ⟨List.append_assoc _ _ _, hstart⟩, piece, after, ⟨rfl, hcount⟩, rfl⟩

end HomeWidget.Text
