import HomeWidget.Link.Address
import HomeWidget.Proofs.Number.Digits
import HomeWidget.Proofs.Text.Cut
import HomeWidget.Proofs.Text.Percent

/-!
# Links travel unharmed

A link that is written as an address is read as the same link. The reason is that an escaped value holds none of the
marks that an address is taken apart at, so that the reader finds exactly the parameters that the writer put there, in
their order: no value can bring a parameter of its own, hide one or change one. The names of parameters and actions
are known, and hold no marks either.

Main results: `readQuery_writeQuery`, `address_faithful`.
-/
namespace HomeWidget.Link

open Text

/-! ## §1. Characters of an address -/

/-- The characters of names, escaped values and the marks between them: none of them is blank. -/
def isAddressChar (c : Char) : Bool := Percent.isEscapedChar c || c == ':' || c == '/' || c == '?' || c == '&' || c == '='

theorem isAlphanum_toNat {c : Char} (h : c.isAlphanum = true) : 0x30 ≤ c.toNat ∧ c.toNat ≤ 0x7A := by
  unfold Char.isAlphanum Char.isAlpha Char.isUpper Char.isLower Char.isDigit at h
  simp only [Bool.or_eq_true, Bool.and_eq_true, decide_eq_true_eq, ge_iff_le, UInt32.le_iff_toNat_le] at h
  have hA : 'A'.val.toNat = 0x41 := rfl
  have hZ : 'Z'.val.toNat = 0x5A := rfl
  have ha : 'a'.val.toNat = 0x61 := rfl
  have hz : 'z'.val.toNat = 0x7A := rfl
  have h0 : '0'.val.toNat = 0x30 := rfl
  have h9 : '9'.val.toNat = 0x39 := rfl
  show 0x30 ≤ c.val.toNat ∧ c.val.toNat ≤ 0x7A
  omega

/-- An address holds no white space. -/
theorem isBlank_of_isAddressChar {c : Char} (h : isAddressChar c = true) : isBlank c = false := by
  have hc : 0x21 ≤ c.toNat ∧ c.toNat ≤ 0x7E := by
    unfold isAddressChar Percent.isEscapedChar at h
    simp only [Bool.or_eq_true, beq_iff_eq] at h
    rcases h with ((((((((((h | rfl) | rfl) | rfl) | rfl) | rfl) | rfl) | rfl) | rfl) | rfl) | rfl)
    · have := isAlphanum_toNat h
      omega
    -- the marks, one by one
    all_goals decide
  exact isBlank_of_visible hc

/-- What may stand in an encoded text may stand in an address. -/
theorem isAddressChar_of_isEscapedChar {c : Char} (h : Percent.isEscapedChar c = true) : isAddressChar c = true := by
  unfold isAddressChar
  rw [h]
  rfl

/-- A character of an encoded text is neither of the marks between parameters. -/
theorem isEscapedChar_ne {c : Char} (h : Percent.isEscapedChar c = true) : c ≠ '&' ∧ c ≠ '=' := by
  refine ⟨?_, ?_⟩ <;> rintro rfl <;> exact absurd h (by decide)

/-! ## §2. One parameter -/

/-- The names that the parameters of links have. -/
def parameterNames : List String := ["url", "id", "index", "user", "password"]

theorem mem_parameterNames {link : Link} {p : String × String} (h : p ∈ link.parameters) : p.1 ∈ parameterNames := by
  unfold parameterNames
  cases link with
  | cell url id index =>
    cases index <;> simp [parameters] at h <;> rcases h with rfl | rfl | rfl <;> simp
  | surface url id =>
    simp [parameters] at h
    rcases h with rfl | rfl <;> simp
  | subscribe url user password =>
    cases user <;> cases password <;> simp [parameters] at h <;> rcases h with rfl | rfl | rfl <;> simp

/-- A name that stands for itself in a query. -/
def PlainName (name : String) : Prop :=
  (∀ c ∈ name.toList, Percent.isEscapedChar c = true) ∧ Percent.decode name.toList = name.toList

/-- The names of the parameters need no escapes. -/
theorem plainName_of_mem_parameters {link : Link} {p : String × String} (h : p ∈ link.parameters) :
    PlainName p.1 := by
  have known : ∀ name ∈ parameterNames,
      name.toList.all Percent.isEscapedChar = true ∧ Percent.decode name.toList = name.toList := by decide
  obtain ⟨hchars, hdecode⟩ := known p.1 (mem_parameterNames h)
  exact ⟨List.all_eq_true.1 hchars, hdecode⟩

/-- A parameter is written with characters of an encoded text and its equals sign. -/
theorem mem_writeParameter {p : String × String} (hp : PlainName p.1) {c : Char} (h : c ∈ writeParameter p) :
    Percent.isEscapedChar c = true ∨ c = '=' := by
  unfold writeParameter at h
  rcases List.mem_append.1 h with h | h
  · exact Or.inl (hp.1 c h)
  · rcases List.mem_cons.1 h with rfl | h
    · exact Or.inr rfl
    · exact Or.inl (Percent.mem_encode h)

/-- **A parameter is read back as it was written.** -/
theorem readParameter_writeParameter {p : String × String} (hp : PlainName p.1) :
    readParameter (writeParameter p) = p := by
  have hne : '=' ∉ p.1.toList := fun hm => (isEscapedChar_ne (hp.1 '=' hm)).2 rfl
  unfold readParameter writeParameter
  rw [cutOrAll_append hne]
  show (String.ofList (Percent.decode p.1.toList), String.ofList (Percent.decode (Percent.encode p.2.toList))) = p
  rw [hp.2, Percent.decode_encode, String.ofList_toList, String.ofList_toList]

/-! ## §3. A query -/

/-- **The reader of a query finds the parameters that were written**, all of them, no others, in their order. -/
theorem readQuery_writeQuery {ps : List (String × String)} (h : ∀ p ∈ ps, PlainName p.1) (hne : ps ≠ []) :
    readQuery (writeQuery ps) = ps := by
  have hmark : ∀ segment ∈ ps.map writeParameter, '&' ∉ segment := by
    intro segment hs hm
    obtain ⟨p, hp, rfl⟩ := List.mem_map.1 hs
    rcases mem_writeParameter (h p hp) hm with h' | h'
    · exact (isEscapedChar_ne h').1 rfl
    · exact absurd h' (by decide)
  have hfull : ∀ segment ∈ ps.map writeParameter, (!segment.isEmpty) = true := by
    intro segment hs
    obtain ⟨p, _, rfl⟩ := List.mem_map.1 hs
    unfold writeParameter
    simp
  have hread : ps.map (readParameter ∘ writeParameter) = ps.map id :=
    List.map_congr_left fun p hp => readParameter_writeParameter (h p hp)
  -- the pieces between the marks are those that were put there; none is empty, and each is read as it was
  unfold readQuery writeQuery
  rw [List.splitOn_intercalate '&' hmark (by simpa using hne), List.filter_eq_self.2 hfull, List.map_map, hread,
    List.map_id]

/-- A query holds no characters but these and the mark between parameters. -/
theorem mem_writeQuery {ps : List (String × String)} (h : ∀ p ∈ ps, PlainName p.1) {c : Char}
    (hc : c ∈ writeQuery ps) : Percent.isEscapedChar c = true ∨ c = '=' ∨ c = '&' := by
  rcases mem_intercalate hc with rfl | ⟨segment, hsegment, hc⟩
  · exact Or.inr (Or.inr rfl)
  · obtain ⟨p, hp, rfl⟩ := List.mem_map.1 hsegment
    exact (mem_writeParameter (h p hp) hc).imp_right Or.inl

/-! ## §4. The index -/

/-- The index of a link, if it has one, is a machine word. -/
def IndexInRange : Link → Prop
  | cell _ _ index => ∀ i ∈ index, i < 2 ^ 64
  | _ => True

/-- An index of 64 bits is read back from its digits. -/
theorem readIndex?_toString {i : Nat} (hi : i < 2 ^ 64) : readIndex? (toString i) = some i := by
  have htext : (toString i).toList = Nat.toDigits 10 i := by rw [Nat.toString_eq_repr, Nat.toList_repr]
  unfold readIndex?
  rw [htext]
  extract_lets ds
  have hds : ds = Nat.toDigits 10 i := by
    -- a numeral does not start with a plus, so that all of it is digits
    simp only [ds]
    split
    next rest h =>
      have hplus := Decimal.isDigit_toDigits (h ▸ List.mem_cons_self : '+' ∈ Nat.toDigits 10 i)
      exact absurd hplus (by decide)
    next => rfl
  have hgood : ¬(ds.isEmpty = true ∨ (!ds.all Char.isDigit) = true) := by
    rw [hds]
    simp [Decimal.all_isDigit_toDigits]
  have hn : Decimal.ofDigits ds = i := by
    rw [hds]
    exact Decimal.ofDigits_toDigits i
  rw [if_neg hgood]
  show (if Decimal.ofDigits ds < 2 ^ 64 then some (Decimal.ofDigits ds) else none) = some i
  rw [hn, if_pos hi]

/-! ## §5. The whole address -/

/-- The names of the actions. -/
def actionNames : List String := ["link_url", "launch_url", "add_widget"]

/-- A link has one of the three actions. -/
theorem action_mem_actionNames (link : Link) : link.action ∈ actionNames := by
  cases link <;> simp [action, actionNames]

/-- The name of an action holds neither blanks nor a question mark, and does not end in a slash. -/
theorem action_plain (link : Link) :
    (∀ c ∈ link.action.toList, isAddressChar c = true) ∧ '?' ∉ link.action.toList
      ∧ dropEnd '/' link.action.toList = link.action.toList := by
  have known : ∀ action ∈ actionNames, action.toList.all isAddressChar = true
      ∧ '?' ∉ action.toList ∧ dropEnd '/' action.toList = action.toList := by decide
  obtain ⟨hchars, hrest⟩ := known link.action (action_mem_actionNames link)
  exact ⟨List.all_eq_true.1 hchars, hrest⟩

theorem parameters_ne_nil (link : Link) : link.parameters ≠ [] := by
  cases link <;> simp [parameters]

/-- The characters of the address of a link. -/
theorem toList_toAddress (link : Link) :
    link.toAddress.toList = scheme ++ (link.action.toList ++ '?' :: writeQuery link.parameters) := by
  unfold toAddress
  rw [String.toList_ofList, List.append_assoc]

/-- An address is made of characters that may stand in one. -/
theorem isAddressChar_of_mem_toAddress {link : Link} {c : Char} (h : c ∈ link.toAddress.toList) :
    isAddressChar c = true := by
  have hscheme : ∀ c ∈ scheme, isAddressChar c = true := List.all_eq_true.1 (by decide)
  rw [toList_toAddress] at h
  rcases List.mem_append.1 h with h | h
  · exact hscheme c h
  · rcases List.mem_append.1 h with h | h
    · exact (action_plain link).1 c h
    · rcases List.mem_cons.1 h with rfl | h
      · decide
      · rcases mem_writeQuery (fun p hp => plainName_of_mem_parameters hp) h with h | rfl | rfl
        · exact isAddressChar_of_isEscapedChar h
        · decide
        · decide

/-- The parameters of a link make it up again. -/
theorem ofParameters?_parameters {link : Link} (h : link.IndexInRange) :
    ofParameters? link.action link.parameters = some link := by
  cases link with
  | cell url id index =>
    cases index with
    | none => rfl
    | some i =>
      have hi : readIndex? (toString i) = some i := readIndex?_toString (h i rfl)
      show some (cell url id (readIndex? (toString i))) = _
      rw [hi]
  | surface url id => rfl
  | subscribe url user password => cases user <;> cases password <;> rfl

/-- **A written link is read as itself.** -/
theorem ofAddress_toAddress {link : Link} (h : link.IndexInRange) : ofAddress link.toAddress = .ok link := by
  have hblank : ∀ c ∈ link.toAddress.toList, isBlank c = false := fun c hc =>
    isBlank_of_isAddressChar (isAddressChar_of_mem_toAddress hc)
  obtain ⟨-, hcut, hslash⟩ := action_plain link
  have hquery : readQuery (writeQuery link.parameters) = link.parameters :=
    readQuery_writeQuery (fun p hp => plainName_of_mem_parameters hp) (parameters_ne_nil link)
  -- trimming, the scheme, the question mark, slashes after the action, and the query, in this order
  unfold ofAddress
  rw [trim_eq_self hblank, toList_toAddress, stripStart?_append]
  simp only [cutOrAll_append hcut, hslash, String.ofList_toList, hquery, ofParameters?_parameters h]

/--
**The codec of links is faithful.** Reading the address of a link gives the link; the query of the address holds the
parameters of the link, and a reader finds exactly those, in their order, so that no value adds, hides or changes a
parameter; and links with the same address are the same.
-/
theorem address_faithful :
    (∀ link : Link, link.IndexInRange → ofAddress link.toAddress = .ok link)
      ∧ (∀ link : Link, ∃ query, link.toAddress.toList = scheme ++ (link.action.toList ++ '?' :: query)
          ∧ readQuery query = link.parameters)
      ∧ ∀ a b : Link, a.IndexInRange → b.IndexInRange → a.toAddress = b.toAddress → a = b := by
  refine ⟨fun link => ofAddress_toAddress, ?_, ?_⟩
  · intro link
    exact ⟨writeQuery link.parameters, toList_toAddress link,
      readQuery_writeQuery (fun p hp => plainName_of_mem_parameters hp) (parameters_ne_nil link)⟩
  · intro a b ha hb hab
    have h : Except.ok (ε := AddressError) a = .ok b := by rw [← ofAddress_toAddress ha, hab, ofAddress_toAddress hb]
    exact Except.ok.inj h

/-- A link whose texts hold every mark of an address, a blank, a control character and an escape, and the last index. -/
theorem address_faithful_marks :
    (cell "https://a/?x=1&id=2#%41 \n" "&index=3=é" (some (2 ^ 64 - 1))).IndexInRange
      ∧ ofAddress (cell "https://a/?x=1&id=2#%41 \n" "&index=3=é" (some (2 ^ 64 - 1))).toAddress
        = .ok (cell "https://a/?x=1&id=2#%41 \n" "&index=3=é" (some (2 ^ 64 - 1))) := by
  have h : (cell "https://a/?x=1&id=2#%41 \n" "&index=3=é" (some (2 ^ 64 - 1))).IndexInRange := by
    intro i hi
    rw [← Option.mem_some.1 hi]
    decide
  exact ⟨h, address_faithful.1 _ h⟩

end HomeWidget.Link
