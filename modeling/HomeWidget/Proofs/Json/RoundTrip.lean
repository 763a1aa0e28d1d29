import HomeWidget.Json.Reader
import HomeWidget.Proofs.Json.Numeral
import HomeWidget.Proofs.Table
import HomeWidget.Proofs.Text.Utf8

/-!
# Values read back from their texts

A value is read back from its compact text if its objects name each member once, its numbers can be read from their
numerals, and its containers are not nested too deeply. The proof goes by the tokens of the value: in whatever text
the value stands, the lexer finds these tokens, and in whatever containers it stands, the reader makes the value of
them.

Main results: `spells`, `parse?_compact`, `parseBytes?_toText`.
-/
namespace HomeWidget.Json

/-! ## §1. Values that can be read back -/

/-- The number is read from its numeral. -/
def Number.Faithful (n : Number) : Prop := IsNumeral n.write ∧ Number.ofText? n.write = some n

/-- The value can be read back when `room` more containers may be open around its parts. -/
inductive Readable : Nat → Json → Prop where
  | null (room : Nat) : Readable room null
  | bool (room : Nat) (b : Bool) : Readable room (bool b)
  | number (room : Nat) {n : Number} (h : n.Faithful) : Readable room (number n)
  | string (room : Nat) (s : String) : Readable room (string s)
  | array {room : Nat} {items : List Json} (h : ∀ v ∈ items, Readable room v) : Readable (room + 1) (array items)
  | object {room : Nat} {members : List (String × Json)} (hnames : (Members.names members).Nodup)
      (h : ∀ m ∈ members, Readable room m.2) : Readable (room + 1) (object members)

/-! ## §2. The reader -/

/-- The reader after some tokens. -/
def run (reader : Reader) (tokens : List Token) : Option Reader := tokens.foldlM Reader.step? reader

/-- A reader takes one token after another. -/
theorem run_cons (reader : Reader) (token : Token) (tokens : List Token) :
    run reader (token :: tokens) = (reader.step? token).bind fun next => run next tokens := rfl

/-- Where an item or the end of an array may come, an item is read as anywhere. -/
theorem step?_itemOrClose {stack : List Frame} {token : Token} (h : token ≠ .closeArray) :
    Reader.step? ⟨stack, .itemOrClose⟩ token = Reader.step? ⟨stack, .value⟩ token := by
  cases token with
  | closeArray => exact absurd rfl h
  | _ => rfl

/-- Where the name of a member or the end of an object may come, a name is read as anywhere. -/
theorem step?_nameOrClose {stack : List Frame} {token : Token} (h : token ≠ .closeObject) :
    Reader.step? ⟨stack, .nameOrClose⟩ token = Reader.step? ⟨stack, .name⟩ token := by
  cases token with
  | closeObject => exact absurd rfl h
  | _ => rfl

/-! ## §3. The tokens of a value -/

/-- These are the tokens of a value: the lexer finds them in its compact text, whatever follows, and the reader makes
the value of them, whatever containers are open. -/
structure Spells (room : Nat) (value : Json) (tokens : List Token) : Prop where
  lexes : ∀ rest, Ends rest → lex .between (compact value ++ rest) = (lex .between rest).map (tokens ++ ·)
  reads : ∀ stack more, stack.length + room ≤ maxDepth →
    run ⟨stack, .value⟩ (tokens ++ more) = (Reader.put? value stack).bind fun next => run next more
  opens : ∃ token rest, tokens = token :: rest ∧ token ≠ .closeArray

/-- Within a container. -/
theorem Spells.reads_inner {room : Nat} {value : Json} {tokens : List Token} (h : Spells room value tokens)
    (frame : Frame) {outer : List Frame} (hroom : outer.length + 1 + room ≤ maxDepth) (more : List Token) :
    run ⟨frame :: outer, .value⟩ (tokens ++ more)
      = (Reader.put? value (frame :: outer)).bind fun next => run next more :=
  h.reads (frame :: outer) more hroom

/-- A value without parts is one token. -/
theorem spells_scalar {value : Json} (room : Nat)
    (h : ∀ rest, Ends rest → lex .between (compact value ++ rest) = (lex .between rest).map (.scalar value :: ·)) :
    Spells room value [.scalar value] where
  lexes := h
  reads _ _ _ := rfl
  opens := ⟨_, _, rfl, Token.noConfusion⟩

theorem spells_null (room : Nat) : Spells room null [.scalar null] := by
  apply spells_scalar
  intro rest hrest
  exact lex_word rfl (List.all_eq_true.1 rfl) rfl hrest

theorem spells_bool (room : Nat) (b : Bool) : Spells room (bool b) [.scalar (bool b)] := by
  apply spells_scalar
  intro rest hrest
  cases b with
  | true => exact lex_word rfl (List.all_eq_true.1 rfl) rfl hrest
  | false => exact lex_word rfl (List.all_eq_true.1 rfl) rfl hrest

/-- A number is one token, which is read back if the number is faithful. -/
theorem spells_number (room : Nat) {n : Number} (h : n.Faithful) : Spells room (number n) [.scalar (number n)] := by
  apply spells_scalar
  intro rest hrest
  exact lex_number h.1 h.2 hrest

theorem spells_string (room : Nat) (s : String) : Spells room (string s) [.scalar (string s)] := by
  apply spells_scalar
  intro rest _
  exact lex_quote s rest

/-! ## §4. Items -/

/-- These are the tokens of the items of an array, as `Spells` for a value. -/
structure SpellsItems (room : Nat) (items : List Json) (tokens : List Token) : Prop where
  lexes : ∀ rest, Ends rest → lex .between (compactItems items ++ rest) = (lex .between rest).map (tokens ++ ·)
  reads : ∀ reversed outer more, outer.length + 1 + room ≤ maxDepth →
    run ⟨.items reversed :: outer, .value⟩ (tokens ++ more)
      = run ⟨.items (items.reverse ++ reversed) :: outer, .commaOrClose⟩ more
  opens : ∃ token rest, tokens = token :: rest ∧ token ≠ .closeArray

/-- A single item is spelled as its value. -/
theorem spellsItems_one {room : Nat} {value : Json} {tokens : List Token} (h : Spells room value tokens) :
    SpellsItems room [value] tokens where
  lexes := h.lexes
  reads reversed outer more hroom := by
    rw [h.reads_inner _ hroom]
    rfl
  opens := h.opens

/-- An item before others is spelled with a comma behind it. -/
theorem spellsItems_cons {room : Nat} {value next : Json} {items : List Json} {tokens rest : List Token}
    (h : Spells room value tokens) (hrest : SpellsItems room (next :: items) rest) :
    SpellsItems room (value :: next :: items) (tokens ++ .comma :: rest) where
  lexes := by
    intro text htext
    show lex _ ((compact value ++ ',' :: compactItems (next :: items)) ++ text) = _
    rw [List.append_assoc, List.cons_append, h.lexes _ (ends_cons (by decide) _), lex_mark rfl, hrest.lexes _ htext,
      Option.map_map, Option.map_map]
    congr 1
    funext found
    simp
  reads := by
    intro reversed outer more hroom
    have hcomma : Reader.step? ⟨.items (value :: reversed) :: outer, .commaOrClose⟩ .comma
        = some ⟨.items (value :: reversed) :: outer, .value⟩ := rfl
    rw [List.append_assoc, List.cons_append, h.reads_inner _ hroom]
    show run ⟨.items (value :: reversed) :: outer, .commaOrClose⟩ (.comma :: (rest ++ more)) = _
    rw [run_cons, hcomma]
    show run ⟨.items (value :: reversed) :: outer, .value⟩ (rest ++ more) = _
    rw [hrest.reads _ _ _ hroom]
    simp
  opens := by
    obtain ⟨token, others, rfl, htoken⟩ := h.opens
    exact ⟨token, _, rfl, htoken⟩

/-- Items can be spelled if each of them can. -/
theorem exists_spellsItems {room : Nat} {items : List Json} (hne : items ≠ [])
    (h : ∀ v ∈ items, ∃ tokens, Spells room v tokens) : ∃ tokens, SpellsItems room items tokens := by
  induction items with
  | nil => exact absurd rfl hne
  | cons value items ih =>
    obtain ⟨tokens, htokens⟩ := h value List.mem_cons_self
    -- a comma stands only between two items
    cases items with
    | nil => exact ⟨tokens, spellsItems_one htokens⟩
    | cons next items =>
      obtain ⟨rest, hrest⟩ := ih (List.cons_ne_nil _ _) fun v hv => h v (List.mem_cons_of_mem _ hv)
      exact ⟨_, spellsItems_cons htokens hrest⟩

/-- A container may be opened if there is room for it. -/
theorem push?_eq {stack : List Frame} {room : Nat} (h : stack.length + (room + 1) ≤ maxDepth) (frame : Frame)
    (expect before : Expect) : Reader.push? ⟨stack, before⟩ frame expect = some ⟨frame :: stack, expect⟩ := by
  have hlt : stack.length < maxDepth := by omega
  exact if_pos hlt

/-- An array without items is two tokens. -/
theorem spells_emptyArray (room : Nat) : Spells (room + 1) (array []) [.openArray, .closeArray] where
  lexes := by
    intro rest _
    show lex _ ('[' :: ']' :: rest) = _
    rw [lex_mark rfl, lex_mark rfl, Option.map_map]
    rfl
  reads := by
    intro stack more hroom
    have hopen : Reader.step? ⟨stack, .value⟩ .openArray = some ⟨.items [] :: stack, .itemOrClose⟩ :=
      push?_eq hroom _ _ _
    show run _ (.openArray :: .closeArray :: more) = _
    rw [run_cons, hopen]
    rfl
  opens := ⟨_, _, rfl, Token.noConfusion⟩

/-- An array with items has them between two tokens. -/
theorem spells_array {room : Nat} {items : List Json} {tokens : List Token} (h : SpellsItems room items tokens) :
    Spells (room + 1) (array items) (.openArray :: tokens ++ [.closeArray]) where
  lexes := by
    intro rest _
    show lex _ ('[' :: compactItems items ++ [']'] ++ rest) = _
    rw [List.append_assoc, List.cons_append, lex_mark rfl, List.singleton_append,
      h.lexes _ (ends_cons (by decide) _), lex_mark rfl, Option.map_map, Option.map_map]
    congr 1
    funext found
    simp
  reads := by
    intro stack more hroom
    have hopen : Reader.step? ⟨stack, .value⟩ .openArray = some ⟨.items [] :: stack, .itemOrClose⟩ :=
      push?_eq hroom _ _ _
    obtain ⟨token, others, htokens, htoken⟩ := h.opens
    have hroom' : stack.length + 1 + room ≤ maxDepth := by omega
    have hreads := h.reads [] stack (.closeArray :: more) hroom'
    rw [htokens, List.cons_append, run_cons] at hreads
    -- after the bracket the array may also end, but the first token of an item does not end it
    rw [htokens, List.append_assoc, List.cons_append, run_cons, hopen]
    show run ⟨.items [] :: stack, .itemOrClose⟩ (token :: (others ++ (.closeArray :: more))) = _
    rw [run_cons, step?_itemOrClose htoken, hreads, run_cons]
    show ((Reader.put? (array (items.reverse ++ []).reverse) stack).bind _) = _
    rw [List.append_nil, List.reverse_reverse]
  opens := ⟨_, _, rfl, Token.noConfusion⟩

/-! ## §5. Members -/

/-- These are the tokens of the members of an object, as `Spells` for a value. -/
structure SpellsMembers (room : Nat) (members : List (String × Json)) (tokens : List Token) : Prop where
  lexes : ∀ rest, Ends rest → lex .between (compactMembers members ++ rest) = (lex .between rest).map (tokens ++ ·)
  reads : ∀ before outer more, outer.length + 1 + room ≤ maxDepth → (Members.names (before ++ members)).Nodup →
    run ⟨.members before :: outer, .name⟩ (tokens ++ more)
      = run ⟨.members (before ++ members) :: outer, .commaOrClose⟩ more
  opens : ∃ token rest, tokens = token :: rest ∧ token ≠ .closeObject

/-- One member: its name, a colon, and its value. -/
theorem lex_member {room : Nat} {name : String} {value : Json} {tokens : List Token} (h : Spells room value tokens)
    {rest : List Char} (hrest : Ends rest) :
    lex .between (compactMember (name, value) ++ rest)
      = (lex .between rest).map ((.scalar (string name) :: .colon :: tokens) ++ ·) := by
  show lex _ ((quote name ++ ':' :: compact value) ++ rest) = _
  rw [List.append_assoc, List.cons_append, lex_quote, lex_mark rfl, h.lexes _ hrest, Option.map_map, Option.map_map]
  rfl

/-- The reader adds a member with a new name at the end. -/
theorem run_member {room : Nat} {name : String} {value : Json} {tokens : List Token} (h : Spells room value tokens)
    {before : List (String × Json)} {outer : List Frame} (hroom : outer.length + 1 + room ≤ maxDepth)
    (hname : name ∉ Members.names before) (more : List Token) :
    run ⟨.members before :: outer, .name⟩ (.scalar (string name) :: .colon :: (tokens ++ more))
      = run ⟨.members (before ++ [(name, value)]) :: outer, .commaOrClose⟩ more := by
  have hstep : Reader.step? ⟨.members before :: outer, .name⟩ (.scalar (string name))
      = some ⟨.valueOf before name :: outer, .colon⟩ := rfl
  have hcolon : Reader.step? ⟨.valueOf before name :: outer, .colon⟩ .colon
      = some ⟨.valueOf before name :: outer, .value⟩ := rfl
  rw [run_cons, hstep]
  show run _ (.colon :: (tokens ++ more)) = _
  rw [run_cons, hcolon]
  show run _ (tokens ++ more) = _
  rw [h.reads_inner _ hroom]
  show run ⟨.members (Members.put name value before) :: outer, .commaOrClose⟩ more = _
  rw [Members.put_of_not_mem value hname]

/-- A name that stands once is not among those before it. -/
theorem not_mem_names_of_nodup {before members : List (String × Json)} {name : String} {value : Json}
    (h : (Members.names (before ++ (name, value) :: members)).Nodup) : name ∉ Members.names before := by
  intro hmem
  unfold Members.names at h hmem
  rw [List.map_append, List.nodup_append] at h
  exact h.2.2 name hmem name List.mem_cons_self rfl

/-- A single member is spelled as its name, a colon and its value. -/
theorem spellsMembers_one {room : Nat} {name : String} {value : Json} {tokens : List Token}
    (h : Spells room value tokens) :
    SpellsMembers room [(name, value)] (.scalar (string name) :: .colon :: tokens) where
  lexes _ hrest := lex_member h hrest
  reads _ _ more hroom hnames := run_member h hroom (not_mem_names_of_nodup hnames) more
  opens := ⟨_, _, rfl, Token.noConfusion⟩

/-- A member before others is spelled with a comma behind it. -/
theorem spellsMembers_cons {room : Nat} {name : String} {value : Json} {next : String × Json}
    {members : List (String × Json)} {tokens rest : List Token} (h : Spells room value tokens)
    (hrest : SpellsMembers room (next :: members) rest) :
    SpellsMembers room ((name, value) :: next :: members)
      ((.scalar (string name) :: .colon :: tokens) ++ .comma :: rest) where
  lexes := by
    intro text htext
    show lex _ ((compactMember (name, value) ++ ',' :: compactMembers (next :: members)) ++ text) = _
    rw [List.append_assoc, List.cons_append, lex_member h (ends_cons (by decide) _), lex_mark rfl,
      hrest.lexes _ htext, Option.map_map, Option.map_map]
    congr 1
    funext found
    simp
  reads := by
    intro before outer more hroom hnames
    have hcomma : Reader.step? ⟨.members (before ++ [(name, value)]) :: outer, .commaOrClose⟩ .comma
        = some ⟨.members (before ++ [(name, value)]) :: outer, .name⟩ := rfl
    -- the rest is read with this member among those before it
    have hsplit : before ++ (name, value) :: next :: members = (before ++ [(name, value)]) ++ next :: members := by simp
    have hone := run_member h hroom (not_mem_names_of_nodup hnames) (.comma :: (rest ++ more))
    rw [List.append_assoc]
    show run _ (.scalar (string name) :: .colon :: (tokens ++ (.comma :: (rest ++ more)))) = _
    rw [hone, run_cons, hcomma]
    show run _ (rest ++ more) = _
    rw [hsplit] at hnames ⊢
    rw [hrest.reads _ _ _ hroom hnames]
  opens := ⟨_, _, rfl, Token.noConfusion⟩

/-- Members can be spelled if their values can. -/
theorem exists_spellsMembers {room : Nat} {members : List (String × Json)} (hne : members ≠ [])
    (h : ∀ m ∈ members, ∃ tokens, Spells room m.2 tokens) : ∃ tokens, SpellsMembers room members tokens := by
  induction members with
  | nil => exact absurd rfl hne
  | cons m members ih =>
    obtain ⟨tokens, htokens⟩ := h m List.mem_cons_self
    cases members with
    | nil => exact ⟨_, spellsMembers_one htokens⟩
    | cons next members =>
      obtain ⟨rest, hrest⟩ := ih (List.cons_ne_nil _ _) fun m hm => h m (List.mem_cons_of_mem _ hm)
      exact ⟨_, spellsMembers_cons htokens hrest⟩

theorem spells_emptyObject (room : Nat) : Spells (room + 1) (object []) [.openObject, .closeObject] where
  lexes := by
    intro rest _
    show lex _ ('\x7b' :: '\x7d' :: rest) = _
    rw [lex_mark rfl, lex_mark rfl, Option.map_map]
    rfl
  reads := by
    intro stack more hroom
    have hopen : Reader.step? ⟨stack, .value⟩ .openObject = some ⟨.members [] :: stack, .nameOrClose⟩ :=
      push?_eq hroom _ _ _
    show run _ (.openObject :: .closeObject :: more) = _
    rw [run_cons, hopen]
    rfl
  opens := ⟨_, _, rfl, Token.noConfusion⟩

/-- An object with members has them between two tokens, if no two have the same name. -/
theorem spells_object {room : Nat} {members : List (String × Json)} {tokens : List Token}
    (hnames : (Members.names members).Nodup) (h : SpellsMembers room members tokens) :
    Spells (room + 1) (object members) (.openObject :: tokens ++ [.closeObject]) where
  lexes := by
    intro rest _
    show lex _ ('\x7b' :: compactMembers members ++ ['\x7d'] ++ rest) = _
    rw [List.append_assoc, List.cons_append, lex_mark rfl, List.singleton_append,
      h.lexes _ (ends_cons (by decide) _), lex_mark rfl, Option.map_map, Option.map_map]
    congr 1
    funext found
    simp
  reads := by
    intro stack more hroom
    have hopen : Reader.step? ⟨stack, .value⟩ .openObject = some ⟨.members [] :: stack, .nameOrClose⟩ :=
      push?_eq hroom _ _ _
    obtain ⟨token, others, htokens, htoken⟩ := h.opens
    have hroom' : stack.length + 1 + room ≤ maxDepth := by omega
    have hreads := h.reads [] stack (.closeObject :: more) hroom' hnames
    rw [htokens, List.cons_append, run_cons] at hreads
    rw [htokens, List.append_assoc, List.cons_append, run_cons, hopen]
    show run ⟨.members [] :: stack, .nameOrClose⟩ (token :: (others ++ (.closeObject :: more))) = _
    rw [run_cons, step?_nameOrClose htoken, hreads, run_cons]
    rfl
  opens := ⟨_, _, rfl, Token.noConfusion⟩

/-! ## §6. Whole texts -/

/-- **Every value that can be read back is spelled by some tokens.** -/
theorem spells {room : Nat} {value : Json} (h : Readable room value) : ∃ tokens, Spells room value tokens := by
  induction h with
  | null room => exact ⟨_, spells_null room⟩
  | bool room b => exact ⟨_, spells_bool room b⟩
  | number room h => exact ⟨_, spells_number room h⟩
  | string room s => exact ⟨_, spells_string room s⟩
  | @array room items _ ih =>
    -- an empty container is spelled by its two brackets, which its parts do not touch
    cases items with
    | nil => exact ⟨_, spells_emptyArray room⟩
    | cons value items =>
      obtain ⟨tokens, htokens⟩ := exists_spellsItems (List.cons_ne_nil value items) ih
      exact ⟨_, spells_array htokens⟩
  | @object room members hnames _ ih =>
    cases members with
    | nil => exact ⟨_, spells_emptyObject room⟩
    | cons m members =>
      obtain ⟨tokens, htokens⟩ := exists_spellsMembers (List.cons_ne_nil m members) ih
      exact ⟨_, spells_object hnames htokens⟩

/-- **The compact text of a value is read as the value.** -/
theorem parse?_compact {value : Json} (h : Readable maxDepth value) : parse? (compact value) = some value := by
  obtain ⟨tokens, htokens⟩ := spells h
  -- nothing follows the text, and no container is open around the value
  have hlex := htokens.lexes [] ends_nil
  have hread := htokens.reads [] [] (by simp)
  rw [List.append_nil] at hlex hread
  have hfound : tokens? (compact value) = some tokens := by
    rw [tokens?_eq_lex, hlex]
    show some (tokens ++ []) = _
    rw [List.append_nil]
  unfold parse?
  rw [hfound]
  show (run Reader.start tokens).bind Reader.answer? = _
  rw [show run Reader.start tokens = _ from hread]
  rfl

/-- **The bytes of the compact text of a value are read as the value.** -/
theorem parseBytes?_toText {value : Json} (h : Readable maxDepth value) :
    parseBytes? (Utf8.ofString value.toText) = some value := by
  unfold parseBytes? Utf8.ofString toText
  rw [String.toList_ofList, Utf8.decode?_encode]
  exact parse?_compact h

end HomeWidget.Json
