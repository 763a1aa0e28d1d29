import HomeWidget.Json.Reader
import HomeWidget.Proofs.Json.Lexer
import HomeWidget.Proofs.Table

/-!
# What a text can spell

Whatever is read from a text has numbers within their ranges, whole ones of 64 bits and finite doubles, and objects that
name no member twice. Numbers come from numerals alone, the reader only puts together what the lexer finds, and a name
that is repeated replaces the value that it had.

Main results: `ofText?_bounded`, `measured_lex`, `measured_parse?`, `measured_parseBytes?`.
-/
namespace HomeWidget.Json

/-! ## §1. Numerals -/

/-- A whole number of 64 bits, or a finite double. -/
def Number.Bounded : Number → Prop
  | .whole n => -2 ^ 63 ≤ n ∧ n < 2 ^ 64
  | .double x => x.isFinite = true

/-- A number that is read is within the bounds of its kind. -/
theorem ofText?_bounded {text : List Char} {n : Number} (h : Number.ofText? text = some n) : n.Bounded := by
  unfold Number.ofText? at h
  split at h
  next negative rest =>
    split at h
    next units fraction rest =>
      obtain ⟨exponent, -, h⟩ := Option.bind_eq_some_iff.1 h
      split at h
      · cases h
      -- a whole number without a sign, one with a sign, and a double: each is guarded by its range
      dsimp only at h
      split at h
      next hwhole =>
        rw [← Option.some.inj h]
        exact ⟨by omega, by omega⟩
      split at h
      next hwhole =>
        rw [← Option.some.inj h]
        exact ⟨by omega, by omega⟩
      split at h
      next hfinite =>
        rw [← Option.some.inj h]
        exact hfinite
      · cases h

/-! ## §2. Values and tokens -/

/-- Every number of the value is within its range, and no object of it names a member twice. -/
inductive Measured : Json → Prop where
  | null : Measured null
  | bool (b : Bool) : Measured (bool b)
  | number {n : Number} (h : n.Bounded) : Measured (number n)
  | string (s : String) : Measured (string s)
  | array {items : List Json} (h : ∀ v ∈ items, Measured v) : Measured (array items)
  | object {members : List (String × Json)} (hnames : (Members.names members).Nodup)
      (h : ∀ m ∈ members, Measured m.2) : Measured (object members)

/-- A token that is a value is a measured one. -/
def Token.Measured : Token → Prop
  | .scalar value => value.Measured
  | _ => True

/-- All of the tokens are measured. -/
def AllMeasured (tokens : List Token) : Prop := ∀ token ∈ tokens, token.Measured

theorem allMeasured_nil : AllMeasured [] := fun _ h => by cases h

/-- Tokens behind others are measured if both are. -/
theorem allMeasured_append {left right : List Token} (hleft : AllMeasured left) (hright : AllMeasured right) :
    AllMeasured (left ++ right) := by
  intro token h
  rcases List.mem_append.1 h with h | h
  · exact hleft token h
  · exact hright token h

theorem allMeasured_one {token : Token} (h : token.Measured) : AllMeasured [token] := by
  intro other hother
  rw [List.mem_singleton.1 hother]
  exact h

/-- A word stands for nothing that needs measuring. -/
theorem measured_ofWord? {word : List Char} {value : Json} (h : ofWord? word = some value) : value.Measured := by
  unfold ofWord? at h
  split at h
  · exact Option.some.inj h ▸ .null
  · exact Option.some.inj h ▸ .bool true
  · exact Option.some.inj h ▸ .bool false
  · cases h

namespace Lexer

/-- What a text ends in is measured. -/
theorem measured_close? {lexer : Lexer} {tokens : List Token} (h : lexer.close? = some tokens) :
    AllMeasured tokens := by
  cases lexer with
  | between => exact Option.some.inj h ▸ allMeasured_nil
  | word reversed =>
    obtain ⟨value, hvalue, rfl⟩ := Option.map_eq_some_iff.1 h
    exact allMeasured_one (measured_ofWord? hvalue)
  | numeral reversed =>
    obtain ⟨n, hn, rfl⟩ := Option.map_eq_some_iff.1 h
    exact allMeasured_one (.number (ofText?_bounded hn))
  | quoted reversed at_ => cases h

/-- Between tokens, a character is at most a mark. -/
theorem measured_open? {c : Char} {tokens : List Token} {next : Lexer} (h : open? c = some (tokens, next)) :
    AllMeasured tokens := by
  unfold open? at h
  split at h
  case h_12 =>
    split at h
    · exact (Prod.mk.inj (Option.some.inj h)).1 ▸ allMeasured_nil
    split at h
    · exact (Prod.mk.inj (Option.some.inj h)).1 ▸ allMeasured_nil
    · cases h
  -- the characters that stand for themselves: blanks, marks and the quotation mark
  all_goals
    rw [← (Prod.mk.inj (Option.some.inj h)).1]
    first
      | exact allMeasured_nil
      | exact allMeasured_one trivial

/-- A token that ends before a character, and what this character is. -/
theorem measured_ended {lexer : Lexer} {c : Char} {tokens : List Token} {next : Lexer}
    (h : (do let ended ← lexer.close?; let (tokens, next) ← open? c; pure (ended ++ tokens, next)) = some (tokens, next)) :
    AllMeasured tokens := by
  obtain ⟨ended, hended, h⟩ := Option.bind_eq_some_iff.1 h
  obtain ⟨⟨opened, after⟩, hopened, h⟩ := Option.bind_eq_some_iff.1 h
  rw [← (Prod.mk.inj (Option.some.inj h)).1]
  exact allMeasured_append (measured_close? hended) (measured_open? hopened)

/-- A string that is not closed yet gives no token. -/
theorem measured_quoted {reversed : List Char} {c : Char} {at_ : Quoted} {tokens : List Token} {next : Lexer}
    (h : (Quoted.step? reversed c at_).map (fun (r, q) => (([] : List Token), quoted r q)) = some (tokens, next)) :
    AllMeasured tokens := by
  obtain ⟨⟨r, q⟩, -, h⟩ := Option.map_eq_some_iff.1 h
  exact (Prod.mk.inj h).1 ▸ allMeasured_nil

/-- **One character leads to measured tokens only.** -/
theorem measured_step? {lexer next : Lexer} {c : Char} {tokens : List Token} (h : lexer.step? c = some (tokens, next)) :
    AllMeasured tokens := by
  unfold step? at h
  split at h
  · split at h
    · exact (Prod.mk.inj (Option.some.inj h)).1 ▸ allMeasured_one (.string _)
    · exact measured_quoted h
  · exact measured_quoted h
  · split at h
    · exact (Prod.mk.inj (Option.some.inj h)).1 ▸ allMeasured_nil
    · exact measured_ended h
  · split at h
    · exact (Prod.mk.inj (Option.some.inj h)).1 ▸ allMeasured_nil
    · exact measured_ended h
  · exact measured_open? h

end Lexer

/-- **The tokens of a text are measured.** -/
theorem measured_lex {text : List Char} {lexer : Lexer} {tokens : List Token} (h : lex lexer text = some tokens) :
    AllMeasured tokens := by
  induction text generalizing lexer tokens with
  | nil => exact Lexer.measured_close? h
  | cons c text ih =>
    rw [lex_cons] at h
    obtain ⟨⟨found, next⟩, hstep, h⟩ := Option.bind_eq_some_iff.1 h
    obtain ⟨rest, hrest, rfl⟩ := Option.map_eq_some_iff.1 h
    exact allMeasured_append (Lexer.measured_step? hstep) (ih hrest)

/-! ## §3. The reader -/

/-- What is read of a container is measured. -/
def Frame.Measured : Frame → Prop
  | .items reversed => ∀ v ∈ reversed, v.Measured
  | .members ms => (Members.names ms).Nodup ∧ ∀ m ∈ ms, m.2.Measured
  | .valueOf ms _ => (Members.names ms).Nodup ∧ ∀ m ∈ ms, m.2.Measured

/-- All that is read is measured. -/
structure Reader.Measured (reader : Reader) : Prop where
  stack : ∀ frame ∈ reader.stack, frame.Measured
  answer : ∀ value, reader.expect = .nothing value → value.Measured

namespace Reader

/-- A measured value can be put into a container of measured ones. -/
theorem measured_put? {value : Json} (hvalue : value.Measured) {stack : List Frame}
    (hstack : ∀ frame ∈ stack, frame.Measured) {next : Reader} (h : put? value stack = some next) : next.Measured := by
  cases stack with
  | nil =>
    rw [← Option.some.inj h]
    exact ⟨fun frame hframe => (by cases hframe), fun answer hanswer => (by cases hanswer; exact hvalue)⟩
  | cons frame outer =>
    have houter : ∀ frame ∈ outer, frame.Measured := fun f hf => hstack f (List.mem_cons_of_mem _ hf)
    have hframe := hstack frame List.mem_cons_self
    cases frame with
    | items reversed =>
      rw [← Option.some.inj h]
      refine ⟨?_, fun answer hanswer => (by cases hanswer)⟩
      intro f hf
      rcases List.mem_cons.1 hf with rfl | hf
      · show ∀ v ∈ value :: reversed, v.Measured
        intro v hv
        rcases List.mem_cons.1 hv with rfl | hv
        · exact hvalue
        · exact hframe v hv
      · exact houter f hf
    | members members => cases h
    | valueOf members name =>
      rw [← Option.some.inj h]
      refine ⟨?_, fun answer hanswer => (by cases hanswer)⟩
      intro f hf
      rcases List.mem_cons.1 hf with rfl | hf
      · -- the value may replace an earlier one of the same name
        show (Members.names (Members.put name value members)).Nodup ∧ ∀ m ∈ Members.put name value members, m.2.Measured
        refine ⟨Members.nodup_names_put name value hframe.1, fun m hm => ?_⟩
        rcases Members.mem_put hm with rfl | hm
        · exact hvalue
        · exact hframe.2 m hm
      · exact houter f hf

variable {reader next : Reader}

/-- A container that is opened has nothing in it yet. -/
theorem measured_push? (hreader : reader.Measured) {frame : Frame} (hframe : frame.Measured) {expect : Expect}
    (hexpect : ∀ value, expect ≠ .nothing value) (h : reader.push? frame expect = some next) : next.Measured := by
  unfold push? at h
  split at h
  · rw [← Option.some.inj h]
    refine ⟨?_, fun value hvalue => absurd hvalue (hexpect value)⟩
    intro f hf
    rcases List.mem_cons.1 hf with rfl | hf
    · exact hframe
    · exact hreader.stack f hf
  · cases h

/-- Every token leaves a measured reader measured: here the first one of a value. -/
theorem measured_begin? (hreader : reader.Measured) {token : Token} (htoken : token.Measured)
    (h : reader.begin? token = some next) : next.Measured := by
  cases token with
  | scalar value => exact measured_put? htoken hreader.stack h
  | openArray =>
    have hempty : (Frame.items []).Measured := fun v hv => (by cases hv)
    exact measured_push? hreader hempty (fun _ => Expect.noConfusion) h
  | openObject =>
    have hempty : (Frame.members []).Measured := ⟨List.nodup_nil, fun m hm => (by cases hm)⟩
    exact measured_push? hreader hempty (fun _ => Expect.noConfusion) h
  | _ => cases h

theorem measured_close? (hreader : reader.Measured) {token : Token} (h : reader.close? token = some next) :
    next.Measured := by
  unfold close? at h
  split at h
  next reversed outer hstack =>
    have hframes := hreader.stack
    rw [hstack] at hframes
    have hitems : ∀ v ∈ reversed, v.Measured := hframes _ List.mem_cons_self
    refine measured_put? (.array fun v hv => hitems v (List.mem_reverse.1 hv)) ?_ h
    exact fun f hf => hframes f (List.mem_cons_of_mem _ hf)
  next members outer hstack =>
    have hframes := hreader.stack
    rw [hstack] at hframes
    have hmembers : (Frame.members members).Measured := hframes _ List.mem_cons_self
    exact measured_put? (.object hmembers.1 hmembers.2) (fun f hf => hframes f (List.mem_cons_of_mem _ hf)) h
  next => cases h

theorem measured_name? (hreader : reader.Measured) {token : Token} (h : reader.name? token = some next) :
    next.Measured := by
  unfold name? at h
  split at h
  next name members outer hstack =>
    have hframes := hreader.stack
    rw [hstack] at hframes
    rw [← Option.some.inj h]
    refine ⟨?_, fun value hvalue => (by cases hvalue)⟩
    intro f hf
    rcases List.mem_cons.1 hf with rfl | hf
    · exact hframes (.members members) List.mem_cons_self
    · exact hframes f (List.mem_cons_of_mem _ hf)
  next => cases h

theorem measured_comma? (hreader : reader.Measured) (h : reader.comma? = some next) : next.Measured := by
  unfold comma? at h
  split at h
  · rw [← Option.some.inj h]
    exact ⟨hreader.stack, fun value hvalue => (by cases hvalue)⟩
  · rw [← Option.some.inj h]
    exact ⟨hreader.stack, fun value hvalue => (by cases hvalue)⟩
  · cases h

/-- **One more measured token leaves everything measured.** -/
theorem measured_step? (hreader : reader.Measured) {token : Token} (htoken : token.Measured)
    (h : reader.step? token = some next) : next.Measured := by
  unfold step? at h
  -- one case for each thing that may be expected
  split at h
  · exact measured_begin? hreader htoken h
  · exact measured_close? hreader h
  · exact measured_begin? hreader htoken h
  · exact measured_close? hreader h
  · exact measured_name? hreader h
  · exact measured_name? hreader h
  · rw [← Option.some.inj h]
    exact ⟨hreader.stack, fun value hvalue => (by cases hvalue)⟩
  · cases h
  · exact measured_comma? hreader h
  · exact measured_close? hreader h
  · cases h

/-- Measured tokens lead a measured reader to a measured one, by induction on them. -/
theorem measured_foldlM {tokens : List Token} (htokens : AllMeasured tokens) (hreader : reader.Measured)
    (h : tokens.foldlM step? reader = some next) : next.Measured := by
  induction tokens generalizing reader with
  | nil => exact Option.some.inj h ▸ hreader
  | cons token tokens ih =>
    rw [List.foldlM_cons] at h
    obtain ⟨middle, hmiddle, h⟩ := Option.bind_eq_some_iff.1 h
    have hmeasured := measured_step? hreader (htokens token List.mem_cons_self) hmiddle
    exact ih (fun t ht => htokens t (List.mem_cons_of_mem _ ht)) hmeasured h

end Reader

/-! ## §4. Whole texts -/

/-- **A value that is read from a text is measured.** -/
theorem measured_parse? {text : List Char} {value : Json} (h : parse? text = some value) : value.Measured := by
  obtain ⟨tokens, htokens, h⟩ := Option.bind_eq_some_iff.1 h
  obtain ⟨reader, hreader, h⟩ := Option.bind_eq_some_iff.1 h
  rw [tokens?_eq_lex] at htokens
  have hstart : Reader.start.Measured := ⟨fun f hf => (by cases hf), fun v hv => (by cases hv)⟩
  have hmeasured := Reader.measured_foldlM (measured_lex htokens) hstart hreader
  unfold Reader.answer? at h
  split at h
  next answer hexpect =>
    rw [← Option.some.inj h]
    exact hmeasured.answer answer hexpect
  next => cases h

/-- **A value that is read from bytes is measured.** -/
theorem measured_parseBytes? {bytes : Bytes} {value : Json} (h : parseBytes? bytes = some value) : value.Measured := by
  obtain ⟨text, -, h⟩ := Option.bind_eq_some_iff.1 h
  exact measured_parse? h

end HomeWidget.Json
