import HomeWidget.Paint.Basic
import HomeWidget.Proofs.Paint.ColorText
import Mathlib.Data.List.TakeDrop

/-!
# Texts of gradients

A gradient text is `linear-gradient(angle,first,second)`, the angle a numeral with `deg` behind it. White space may
stand around the whole, before the parenthesis, and around the numeral and its unit; the texts of the two colours may be
any without a comma. Reading takes such a text apart from both ends and at its commas, and so it is shown to be of this
form if it is a gradient at all. A style text is first asked whether it starts like a gradient, and it is read as a colour
where it is none: a text that starts so is black then, since no colour starts with a letter beyond `f`.

Main results: `inner?_eq_some_iff`, `splitOn_eq_three_iff`, `ofText?_eq_some_iff`, `Paint.ofText_classifies`.
-/
namespace HomeWidget

open Text

/-! ## §1. Characters of numerals -/

/-- The character is neither white space nor a comma. -/
def Solid (c : Char) : Prop := isBlank c = false ∧ c ≠ ','

instance (c : Char) : Decidable (Solid c) := inferInstanceAs (Decidable (_ ∧ _))

theorem solid_of_isDigit {c : Char} (h : c.isDigit = true) : Solid c := by
  refine ⟨isBlank_of_isDigit h, ?_⟩
  rintro rfl
  cases h

namespace Decimal

/-- A text is solid if what is behind its sign is. -/
theorem solid_takeSign {text : List Char} (h : ∀ c ∈ (takeSign text).2, Solid c) : ∀ c ∈ text, Solid c := by
  unfold takeSign at h
  split at h
  next rest => exact List.forall_mem_cons.2 ⟨by decide, h⟩
  next rest => exact List.forall_mem_cons.2 ⟨by decide, h⟩
  next => exact h

/-- A text is solid if what is behind its digits is. -/
theorem solid_spanDigits {text : List Char} (h : ∀ c ∈ (spanDigits text).2, Solid c) : ∀ c ∈ text, Solid c := by
  unfold spanDigits at h
  rw [List.span_eq_takeWhile_dropWhile] at h
  intro c hc
  rw [← List.takeWhile_append_dropWhile (p := Char.isDigit) (l := text)] at hc
  rcases List.mem_append.1 hc with hc | hc
  · exact solid_of_isDigit (List.mem_takeWhile_imp hc)
  · exact h c hc

/-- A text is solid if what is behind its point is. -/
theorem solid_takePoint {text : List Char} (h : ∀ c ∈ (takePoint text).2.2, Solid c) : ∀ c ∈ text, Solid c := by
  refine solid_spanDigits ?_
  unfold takePoint at h
  dsimp only at h
  split at h
  next rest heq =>
    rw [heq]
    exact List.forall_mem_cons.2 ⟨by decide, solid_spanDigits h⟩
  next => exact h

/-- An exponent is solid. -/
theorem solid_exponentPart {text : List Char} {e : Int} (h : exponentPart? text = some e) : ∀ c ∈ text, Solid c := by
  cases text with
  | nil => exact nofun
  | cons c rest =>
    rw [exponentPart?] at h
    split at h
    next hmark =>
      generalize hsign : takeSign rest = signed at h
      obtain ⟨negative, digits⟩ := signed
      dsimp only at h
      split at h
      next => cases h
      next hdigits =>
        -- behind the mark there is a sign at most, and digits
        rw [not_or, Bool.not_eq_true', Bool.not_eq_false, List.all_eq_true] at hdigits
        have hrest : ∀ c ∈ (takeSign rest).2, Solid c := by
          rw [hsign]
          exact fun c hc => solid_of_isDigit (hdigits.2 c hc)
        refine List.forall_mem_cons.2 ⟨?_, solid_takeSign hrest⟩
        rcases hmark with rfl | rfl <;> decide
    next => cases h

/-- A plain numeral is solid. -/
theorem solid_ofPlain? {text : List Char} {d : Decimal} (h : ofPlain? text = some d) : ∀ c ∈ text, Solid c := by
  unfold ofPlain? at h
  dsimp only at h
  split at h
  next => cases h
  next =>
    obtain ⟨e, he, -⟩ := Option.map_eq_some_iff.1 h
    exact solid_takeSign (solid_takePoint (solid_exponentPart he))

end Decimal

/-- A character that is a letter in lower case is no white space and no comma. -/
theorem solid_of_toLower {c : Char} (h : Solid c.toLower) : Solid c := by
  unfold Char.toLower at h
  split at h
  next hupper =>
    obtain ⟨hlow, hhigh⟩ : 65 ≤ c.toNat ∧ c.toNat ≤ 90 := hupper
    refine ⟨isBlank_of_visible (by omega), ?_⟩
    rintro rfl
    exact absurd hlow (by decide)
  next => exact h

/-- A word in any case, after a sign or not. -/
theorem solid_of_word {text : List Char} {word : String} (hword : ∀ c ∈ word.toList, Solid c)
    (h : String.ofList ((Decimal.takeSign text).2.map Char.toLower) = word) : ∀ c ∈ text, Solid c := by
  subst h
  rw [String.toList_ofList] at hword
  exact Decimal.solid_takeSign fun c hc => solid_of_toLower (hword _ (List.mem_map_of_mem hc))

/-- **A numeral of doubles has no white space and no comma in it.** -/
theorem solid_ofPlain? {text : List Char} {x : Float} (h : Float.ofPlain? text = some x) : ∀ c ∈ text, Solid c := by
  have hletters (word : String) (hword : word = "inf" ∨ word = "infinity" ∨ word = "nan") :
      ∀ c ∈ word.toList, Solid c := by
    have hall : (word.toList.all fun c => decide (Solid c)) = true := by
      rcases hword with rfl | rfl | rfl <;> decide +kernel
    exact fun c hc => of_decide_eq_true (List.all_eq_true.1 hall c hc)
  unfold Float.ofPlain? at h
  dsimp only at h
  split at h
  next hinfinite =>
    rcases hinfinite with hword | hword
    · exact solid_of_word (hletters _ (by simp)) hword
    · exact solid_of_word (hletters _ (by simp)) hword
  next =>
  split at h
  next hword => exact solid_of_word (hletters _ (by simp)) hword
  next =>
    obtain ⟨d, hd, -⟩ := Option.map_eq_some_iff.1 h
    exact Decimal.solid_ofPlain? hd

/-- No text at all is no numeral. -/
theorem ofPlain?_nil : Float.ofPlain? [] = none := by
  decide +kernel

/-- White space has no commas. -/
theorem Text.Blank.not_mem_comma {cs : List Char} (h : Blank cs) : ',' ∉ cs :=
  fun hmem => absurd (h ',' hmem) (by decide)

namespace Gradient

/-! ## §2. Taking a text apart -/

/-- The text is `linear-gradient(inner)`, with white space around it and before the parenthesis. -/
def Frames (text inner : List Char) : Prop :=
  ∃ lead gap trail, (Blank lead ∧ Blank gap ∧ Blank trail)
    ∧ text = lead ++ (keyword ++ (gap ++ '(' :: (inner ++ [')']))) ++ trail

/-- What starts with the keyword and ends with a parenthesis is not trimmed. -/
theorem trim_framed {lead trail : List Char} (hlead : Blank lead) (htrail : Blank trail) (rest : List Char) :
    trim (lead ++ (keyword ++ (rest ++ [')'])) ++ trail) = keyword ++ (rest ++ [')']) := by
  have hkeyword : keyword ++ (rest ++ [')']) = 'l' :: (("inear-gradient".toList ++ rest) ++ [')']) := by
    rw [List.append_assoc]
    rfl
  rw [hkeyword]
  exact trim_surrounded hlead htrail (by decide) (by decide) _

/-- **The frame of a gradient text comes off**, and off no other text. -/
theorem inner?_eq_some_iff {text inner : List Char} : inner? text = some inner ↔ Frames text inner := by
  unfold inner?
  simp only [Option.bind_eq_bind, Option.bind_eq_some_iff, stripStart?_eq_some_iff, stripEnd?_eq_some_iff]
  constructor
  · rintro ⟨rest, hkeyword, _, hopen, rfl⟩
    obtain ⟨lead, trail, hlead, htrail, htext⟩ := exists_trim text
    obtain ⟨gap, hgap, hrest⟩ := exists_trimStart rest
    refine ⟨lead, gap, trail, ⟨hlead, hgap, htrail⟩, ?_⟩
    rw [hopen] at hrest
    rw [hkeyword, hrest] at htext
    exact htext
  · rintro ⟨lead, gap, trail, ⟨hlead, hgap, htrail⟩, rfl⟩
    refine ⟨gap ++ '(' :: (inner ++ [')']), ?_, inner ++ [')'], ?_, rfl⟩
    · rw [← List.cons_append, ← List.append_assoc gap, trim_framed hlead htrail]
    · rw [trimStart_append hgap, trimStart_cons (by decide)]
      rfl

/-- **The three parts between two commas**, none of which has a comma in it. -/
theorem splitOn_eq_three_iff {text a b c : List Char} :
    text.splitOn ',' = [a, b, c] ↔ text = a ++ ',' :: (b ++ ',' :: c) ∧ ',' ∉ a ∧ ',' ∉ b ∧ ',' ∉ c := by
  have hjoin : [','].intercalate [a, b, c] = a ++ ',' :: (b ++ ',' :: c) := by
    simp [List.intercalate]
  rw [splitOn_eq_iff, hjoin]
  simp

/-! ## §3. Gradients -/

variable {α : Type} [Scalar α] {number? : List Char → Option α} {tangent : α → α} {text : List Char}

/-- **What an angle text is**: `deg` behind a numeral of a finite number, trimmed. -/
theorem angleOf?_eq_some_iff {d : α} : angleOf? number? text = some d
    ↔ ∃ numeral, trim text = numeral ++ "deg".toList ∧ number? (trimEnd numeral) = some d
        ∧ Scalar.isFinite d = true := by
  unfold angleOf?
  simp only [Option.bind_eq_bind, Option.bind_eq_some_iff, stripEnd?_eq_some_iff]
  constructor
  · rintro ⟨numeral, htext, degrees, hdegrees, hfinite⟩
    split at hfinite
    next h =>
      obtain rfl : degrees = d := Option.some.inj hfinite
      exact ⟨numeral, htext, hdegrees, h⟩
    next => cases hfinite
  · rintro ⟨numeral, htext, hdegrees, hfinite⟩
    exact ⟨numeral, htext, d, hdegrees, if_pos hfinite⟩

/-- What is wrong with an angle text that is no angle. -/
theorem angleOf?_eq_none (h : ¬"deg".toList <:+ trim text
      ∨ ∃ numeral, trim text = numeral ++ "deg".toList ∧ (number? (trimEnd numeral) = none
          ∨ ∃ d, number? (trimEnd numeral) = some d ∧ Scalar.isFinite d = false)) :
    angleOf? number? text = none := by
  refine Option.eq_none_iff_forall_ne_some.2 fun d hd => ?_
  obtain ⟨numeral, hunit, hnumber, hfinite⟩ := angleOf?_eq_some_iff.1 hd
  rcases h with hnone | ⟨numeral', hunit', hwrong⟩
  · exact hnone ⟨numeral, hunit.symm⟩
  · obtain rfl : numeral = numeral' := List.append_cancel_right (hunit.symm.trans hunit')
    rcases hwrong with hnone | ⟨d', hnumber', hinfinite⟩
    · rw [hnone] at hnumber
      cases hnumber
    · obtain rfl : d = d' := Option.some.inj (hnumber.symm.trans hnumber')
      exact absurd hfinite (ne_true_of_eq_false hinfinite)

/-- White space around a numeral and behind its unit does not matter. -/
theorem angleOf?_surrounded {before numeral behind trail : List Char} {d : α}
    (hblank : Blank before ∧ Blank behind ∧ Blank trail) (hne : numeral ≠ []) (hsolid : ∀ c ∈ numeral, Solid c)
    (hnumber : number? numeral = some d) (hfinite : Scalar.isFinite d = true) :
    angleOf? number? (before ++ (numeral ++ (behind ++ "deg".toList)) ++ trail) = some d := by
  obtain ⟨hbefore, hbehind, htrail⟩ := hblank
  refine angleOf?_eq_some_iff.2 ⟨numeral ++ behind, ?_, ?_, hfinite⟩
  · cases numeral with
    | nil => exact absurd rfl hne
    | cons c rest =>
      have hends : c :: rest ++ (behind ++ "deg".toList) = c :: ((rest ++ (behind ++ "de".toList)) ++ ['g']) := by
        simp
      rw [hends, trim_surrounded hbefore htrail (hsolid c List.mem_cons_self).1 (by decide)]
      simp
  · rw [trimEnd_append hbehind, trimEnd_eq_self fun c hc => (hsolid c hc).1, hnumber]

/-- **What a gradient text is**: in its frame an angle and the texts of two colours, with commas between them. -/
theorem ofText?_eq_some_iff {g : Gradient α} : ofText? number? tangent text = some g
    ↔ ∃ angle first second d, Frames text (angle ++ ',' :: (first ++ ',' :: second))
        ∧ (',' ∉ angle ∧ ',' ∉ first ∧ ',' ∉ second) ∧ angleOf? number? angle = some d
        ∧ ofAngle tangent d (Rgba.ofText first) (Rgba.ofText second) = g := by
  unfold ofText?
  rw [Option.bind_eq_bind, Option.bind_eq_some_iff]
  constructor
  · rintro ⟨inner, hinner, h⟩
    split at h
    next angle first second hparts =>
      obtain ⟨rfl, hcommas⟩ := splitOn_eq_three_iff.1 hparts
      obtain ⟨d, hangle, hg⟩ := Option.bind_eq_some_iff.1 h
      exact ⟨angle, first, second, d, inner?_eq_some_iff.1 hinner, hcommas, hangle, Option.some.inj hg⟩
    next => cases h
  · rintro ⟨angle, first, second, d, hframes, hcommas, hangle, rfl⟩
    refine ⟨_, inner?_eq_some_iff.2 hframes, ?_⟩
    rw [splitOn_eq_three_iff.2 ⟨rfl, hcommas⟩]
    exact Option.bind_eq_some_iff.2 ⟨d, hangle, rfl⟩

/-- A frame has no commas. -/
theorem Frames.count {inner : List Char} (h : Frames text inner) : text.count ',' = inner.count ',' := by
  obtain ⟨lead, gap, trail, ⟨hlead, hgap, htrail⟩, rfl⟩ := h
  have hkeyword : keyword.count ',' = 0 := by decide
  simp [List.count_append, List.count_eq_zero.2 hlead.not_mem_comma, List.count_eq_zero.2 hgap.not_mem_comma,
    List.count_eq_zero.2 htrail.not_mem_comma, hkeyword]

/-- A gradient is written with two commas. -/
theorem count_of_ofText? {g : Gradient α} (h : ofText? number? tangent text = some g) : text.count ',' = 2 := by
  obtain ⟨angle, first, second, d, hframes, ⟨hangle, hfirst, hsecond⟩, -, -⟩ := ofText?_eq_some_iff.1 h
  rw [hframes.count]
  simp [List.count_append, List.count_eq_zero.2 hangle, List.count_eq_zero.2 hfirst,
    List.count_eq_zero.2 hsecond]

/-- A frame holds one text. -/
theorem Frames.unique {inner other : List Char} (h : Frames text inner) (h' : Frames text other) : inner = other :=
  Option.some.inj ((inner?_eq_some_iff.2 h).symm.trans (inner?_eq_some_iff.2 h'))

/-- A gradient text starts with the keyword, once it is trimmed. -/
theorem keyword_of_ofText? {g : Gradient α} (h : ofText? number? tangent text = some g) :
    ∃ rest, trim text = keyword ++ rest := by
  obtain ⟨angle, first, second, d, ⟨lead, gap, trail, ⟨hlead, -, htrail⟩, rfl⟩, -⟩ := ofText?_eq_some_iff.1 h
  rw [← List.cons_append, ← List.append_assoc gap]
  exact ⟨_, trim_framed hlead htrail _⟩

/-- White space around the text of a gradient makes no difference. -/
theorem ofText?_trim : ofText? number? tangent (trim text) = ofText? number? tangent text := by
  unfold ofText? inner?
  rw [trim_trim]

/-- **Only the angle can be wrong** with three parts in a frame. -/
theorem ofText?_eq_none {angle first second : List Char}
    (hframes : Frames text (angle ++ ',' :: (first ++ ',' :: second)))
    (hangle : angleOf? number? angle = none) : ofText? number? tangent text = none := by
  rw [Option.eq_none_iff_forall_ne_some]
  intro g hg
  have hcount := count_of_ofText? hg
  obtain ⟨angle', first', second', d, hframes', hcommas, hangle', -⟩ := ofText?_eq_some_iff.1 hg
  -- there are no other commas than the two, and so the parts are the same
  rw [hframes.count, List.count_append, List.count_cons_self, List.count_append, List.count_cons_self] at hcount
  have hparts : (angle ++ ',' :: (first ++ ',' :: second)).splitOn ',' = [angle, first, second] :=
    splitOn_eq_three_iff.2 ⟨rfl, List.count_eq_zero.1 (by omega), List.count_eq_zero.1 (by omega),
      List.count_eq_zero.1 (by omega)⟩
  rw [hframes.unique hframes', splitOn_eq_three_iff.2 ⟨rfl, hcommas⟩] at hparts
  rw [(List.cons.inj hparts).1, hangle] at hangle'
  cases hangle'

end Gradient

/-! ## §4. Style texts -/

/-- The gradient that a text is, whatever it starts like. -/
def Reading.gradient? {α : Type} [Scalar α] (reading : Reading α) (text : List Char) : Option (Gradient α) :=
  Gradient.ofText? reading.number? reading.tangent text

namespace Paint

open HomeWidget.Gradient

variable {α : Type} [Scalar α]

/-- **Asking first how a text starts makes no difference.** -/
theorem gradientOf?_eq (reading : Reading α) (text : List Char) :
    gradientOf? reading text = reading.gradient? text := by
  unfold gradientOf? Reading.gradient?
  rw [ofText?_trim]
  split
  next => rfl
  next hstart =>
    -- without the keyword neither of the two finds a gradient
    refine (Option.eq_none_iff_forall_ne_some.2 fun g hg => hstart ?_).symm
    obtain ⟨rest, hrest⟩ := keyword_of_ofText? hg
    rw [stripStart?_eq_some_iff.2 hrest]
    rfl

/-- A text that starts like a gradient is no colour. -/
theorem ofText_keyword {text rest : List Char} (h : trim text = keyword ++ rest) :
    (Rgba.ofText text : Rgba α) = .black := by
  refine Rgba.ofText_eq_black fun levels _ hpairs => ?_
  have hcode : Rgba.dropHash (trim text) = 'l' :: ("inear-gradient".toList ++ rest) := by
    rw [h]
    rfl
  rw [hcode] at hpairs
  cases hpairs with
  | cons head tail =>
    rcases head with ⟨v, _, hv, -⟩ | ⟨hplus, -⟩
    · have hvalue := Hex.value?_of_spells hv
      rw [show Hex.value? 'l' = none by decide] at hvalue
      cases hvalue
    · exact absurd hplus (by decide)

/-- A text is painted as a gradient just when it can be read as one. -/
theorem ofText_eq_gradient_iff {reading : Reading α} {text : List Char} {g : Gradient α} :
    ofText reading text = .gradient g ↔ reading.gradient? text = some g := by
  unfold ofText
  rw [gradientOf?_eq]
  cases reading.gradient? text <;> simp

/-- A text that is no gradient is painted as the colour that it names. -/
theorem ofText_eq_solid {reading : Reading α} {text : List Char}
    (h : reading.gradient? text = none) : ofText reading text = .solid (Rgba.ofText text) := by
  unfold ofText Rgba.ofText
  rw [gradientOf?_eq, h, trim_trim]

/-- A numeral, the texts of two colours, and white space wherever there may be some. -/
theorem gradient?_surrounded {text before numeral behind unit first second : List Char} {d : Float}
    (hblank : Blank before ∧ Blank behind ∧ Blank unit) (hnumber : Float.ofPlain? numeral = some d)
    (hfinite : d.isFinite = true) (hcommas : ',' ∉ first ∧ ',' ∉ second)
    (hframes : Frames text
      (before ++ (numeral ++ (behind ++ "deg".toList)) ++ unit ++ ',' :: (first ++ ',' :: second))) :
    Reading.float.gradient? text
      = some (.ofAngle Float.tangentOfDegrees d (Rgba.ofText first) (Rgba.ofText second)) := by
  have hne : numeral ≠ [] := by
    rintro rfl
    rw [ofPlain?_nil] at hnumber
    cases hnumber
  have hsolid := solid_ofPlain? hnumber
  have hangle : ',' ∉ before ++ (numeral ++ (behind ++ "deg".toList)) ++ unit := by
    have hnumeral : ',' ∉ numeral := fun hmem => (hsolid ',' hmem).2 rfl
    simp [hblank.1.not_mem_comma, hblank.2.1.not_mem_comma, hblank.2.2.not_mem_comma, hnumeral]
  exact ofText?_eq_some_iff.2 ⟨_, first, second, d, hframes, ⟨hangle, hcommas⟩,
    angleOf?_surrounded hblank hne hsolid hnumber hfinite, rfl⟩

/--
**What filling a style text is**, with doubles for numbers:
* a gradient just when it is a gradient text, and then that gradient;
* otherwise its colour, which is opaque black for whatever starts like a gradient, once trimmed;
* with any white space around it, before the parenthesis, and around the numeral and the unit of its angle, a text
  of an angle and of two colours without commas is the gradient from the one to the other at that angle, provided that
  the number is finite;
* a text with more or fewer commas is no gradient, and neither is one whose angle lacks its unit, or has something
  before it that is no number, or one that is not finite.
-/
theorem ofText_classifies :
    (∀ text g, ofText .float text = .gradient g ↔ Reading.float.gradient? text = some g)
      ∧ (∀ text, Reading.float.gradient? text = none → ofText .float text = .solid (Rgba.ofText text))
      ∧ (∀ text rest, trim text = keyword ++ rest → (Rgba.ofText text : Rgba Float) = .black)
      ∧ (∀ text before numeral behind unit first second d, Blank before → Blank behind → Blank unit →
          Float.ofPlain? numeral = some d → d.isFinite = true → ',' ∉ first → ',' ∉ second →
          Frames text (before ++ (numeral ++ (behind ++ "deg".toList)) ++ unit ++ ',' :: (first ++ ',' :: second)) →
          Reading.float.gradient? text
            = some (.ofAngle Float.tangentOfDegrees d (Rgba.ofText first) (Rgba.ofText second)))
      ∧ (∀ text, text.count ',' ≠ 2 → Reading.float.gradient? text = none)
      ∧ ∀ text angle first second, Frames text (angle ++ ',' :: (first ++ ',' :: second)) →
          (¬"deg".toList <:+ trim angle
            ∨ ∃ numeral, trim angle = numeral ++ "deg".toList ∧ (Float.ofPlain? (trimEnd numeral) = none
                ∨ ∃ d, Float.ofPlain? (trimEnd numeral) = some d ∧ d.isFinite = false)) →
          Reading.float.gradient? text = none := by
  refine ⟨fun text g => ofText_eq_gradient_iff, fun text h => ofText_eq_solid h, fun text rest h => ofText_keyword h,
    fun text before numeral behind unit first second d hbefore hbehind hunit hnumber hfinite hfirst hsecond hframes =>
      gradient?_surrounded ⟨hbefore, hbehind, hunit⟩ hnumber hfinite ⟨hfirst, hsecond⟩ hframes,
    fun text hcount => ?_,
    fun text angle first second hframes hangle => ofText?_eq_none hframes (angleOf?_eq_none hangle)⟩
  exact Option.eq_none_iff_forall_ne_some.2 fun g hg => hcount (count_of_ofText? hg)

/-- White space at every place where there may be some, and a colour that is none. -/
theorem ofText_classifies_spaced :
    ofText .float " linear-gradient\t( +4.5e1 deg ,#FF0000, tomato)\n".toList
      = .gradient (.ofAngle Float.tangentOfDegrees (Float.ofNat 45) (Rgba.ofText "#FF0000".toList) .black) := by
  have hblack : (Rgba.ofText " tomato".toList : Rgba Float) = .black := by decide +kernel
  have hgradient := ofText_classifies.2.2.2.1 " linear-gradient\t( +4.5e1 deg ,#FF0000, tomato)\n".toList
    [' '] "+4.5e1".toList [' '] [' '] "#FF0000".toList " tomato".toList (Float.ofNat 45)
    (by decide) (by decide) (by decide) (by decide +kernel) (by decide +kernel) (by decide +kernel) (by decide +kernel)
    ⟨[' '], ['\t'], ['\n'], by decide, by decide +kernel⟩
  rw [hblack] at hgradient
  exact (ofText_classifies.1 _ _).2 hgradient

end Paint
end HomeWidget
