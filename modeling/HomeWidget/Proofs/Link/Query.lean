import HomeWidget.Proofs.Link.RoundTrip
import HomeWidget.Proofs.Table
import Mathlib.Data.List.Find

/-!
# Parameters are read by name

A query is a list of segments, and the reader asks it five questions: what is the value of the first segment of each name
that links have? So nothing else of a query counts: not the segments of other names, not the empty ones, not a segment
whose name came before, and not the order of segments of different names. Names and values are compared and given as they
are after decoding. Of the text before the query only the action counts, without the slashes at its end; and an address
is refused just when it is none, or when its action is not known.

Main results: `lookup_readQuery`, `ofAddress_congr`, `ofAddress_eq_error_iff`, `query_read_by_name`.
-/
namespace HomeWidget.Link

open Text

/-! ## §1. Segments -/

/-- The name of a segment: what is before its first equals sign, decoded. -/
def nameOf (segment : List Char) : String := String.ofList (Percent.decode (segment.takeWhile (· ≠ '=')))

/-- The value of a segment: what is behind its first equals sign, decoded. -/
def valueOf (segment : List Char) : String := String.ofList (Percent.decode ((segment.dropWhile (· ≠ '=')).drop 1))

/-- The value of the first segment of a name. -/
def firstValue? (name : String) (segments : List (List Char)) : Option String :=
  (segments.find? (nameOf · == name)).map valueOf

/-- A segment is read as its name and its value. -/
theorem readParameter_eq (segment : List Char) : readParameter segment = (nameOf segment, valueOf segment) := by
  unfold readParameter
  rw [cutOrAll_eq]
  rfl

/-- The value of a name is that of the first segment of it. -/
theorem firstValue?_eq_lookup (name : String) (segments : List (List Char)) :
    firstValue? name segments = (segments.map readParameter).lookup name := by
  induction segments with
  | nil => rfl
  | cons segment rest ih =>
    rw [List.map_cons, Members.lookup_cons, readParameter_eq, ← ih]
    unfold firstValue?
    rw [List.find?_cons]
    by_cases h : nameOf segment = name
    · rw [beq_iff_eq.2 h, if_pos h.symm]
      rfl
    · rw [beq_eq_false_iff_ne.2 h, if_neg fun e => h e.symm]

theorem names_map_readParameter (segments : List (List Char)) :
    Members.names (segments.map readParameter) = segments.map nameOf := by
  unfold Members.names
  rw [List.map_map]
  exact List.map_congr_left fun segment _ => congrArg Prod.fst (readParameter_eq segment)

/-- Segments in front are looked at first. -/
theorem firstValue?_append (name : String) (before after : List (List Char)) :
    firstValue? name (before ++ after) = (firstValue? name before).or (firstValue? name after) := by
  unfold firstValue?
  rw [List.find?_append, Option.map_or]

/-- A name has no value just when no segment has it. -/
theorem firstValue?_eq_none_iff {name : String} {segments : List (List Char)} :
    firstValue? name segments = none ↔ name ∉ segments.map nameOf := by
  rw [firstValue?_eq_lookup, Members.lookup_eq_none_iff, names_map_readParameter]

/-- Where no name is repeated, the order of the segments is of no account. -/
theorem firstValue?_perm {segments segments' : List (List Char)} (hperm : segments.Perm segments')
    (h : (segments.map nameOf).Nodup) (name : String) : firstValue? name segments = firstValue? name segments' := by
  rw [firstValue?_eq_lookup, firstValue?_eq_lookup]
  apply Members.lookup_perm (hperm.map readParameter)
  rwa [names_map_readParameter]

/-- An empty segment has the empty name. -/
theorem nameOf_nil : nameOf [] = "" := rfl

/-- Empty segments answer to no name but the empty one. -/
theorem firstValue?_filter {name : String} (h : name ≠ "") (segments : List (List Char)) :
    firstValue? name (segments.filter fun segment => !segment.isEmpty) = firstValue? name segments := by
  unfold firstValue?
  rw [List.find?_filter]
  refine congrArg (Option.map valueOf) (List.find?_congr fun segment _ => ?_)
  cases segment with
  | nil =>
    rw [nameOf_nil, beq_eq_false_iff_ne.2 h.symm]
    rfl
  | cons c rest => simp only [List.isEmpty_cons, Bool.not_false, true_and, Bool.decide_eq_true]

/-! ## §2. Queries -/

/-- **A query answers a name with its first segment of that name.** -/
theorem lookup_readQuery {name : String} (hname : name ≠ "") {segments : List (List Char)}
    (hmark : ∀ segment ∈ segments, '&' ∉ segment) :
    (readQuery (['&'].intercalate segments)).lookup name = firstValue? name segments := by
  unfold readQuery
  rw [← firstValue?_eq_lookup, firstValue?_filter hname]
  cases segments with
  | nil => exact firstValue?_eq_none_iff.2 (by simp [nameOf_nil, hname])
  | cons segment rest => rw [List.splitOn_intercalate '&' hmark (List.cons_ne_nil segment rest)]

/-- **A link depends on the values of the known names.** -/
theorem ofParameters?_congr {ps ps' : List (String × String)}
    (h : ∀ name ∈ parameterNames, ps.lookup name = ps'.lookup name) (action : String) :
    ofParameters? action ps = ofParameters? action ps' := by
  unfold ofParameters?
  dsimp only
  rw [h "url" (by decide), h "id" (by decide), h "index" (by decide), h "user" (by decide), h "password" (by decide)]

/-- Whether there is a link depends on the action. -/
theorem ofParameters?_eq_none_iff {action : String} {ps : List (String × String)} :
    ofParameters? action ps = none ↔ action ∉ actionNames := by
  unfold ofParameters?
  dsimp only
  split
  · exact ⟨nofun, fun h => absurd (by decide) h⟩
  · exact ⟨nofun, fun h => absurd (by decide) h⟩
  · exact ⟨nofun, fun h => absurd (by decide) h⟩
  next hcell hsurface hsubscribe =>
    refine ⟨fun _ hmem => ?_, fun _ => rfl⟩
    simp only [actionNames, List.mem_cons, List.not_mem_nil, or_false] at hmem
    rcases hmem with rfl | rfl | rfl
    · exact hcell rfl
    · exact hsurface rfl
    · exact hsubscribe rfl

/-! ## §3. Addresses -/

/-- The action in what follows the scheme of an address: what is before the first question mark, without the slashes at
its end. -/
def actionOf (rest : List Char) : String := String.ofList (dropEnd '/' (rest.takeWhile (· ≠ '?')))

/-- The query in what follows the scheme of an address. -/
def queryOf (rest : List Char) : List Char := (rest.dropWhile (· ≠ '?')).drop 1

/-- Behind the scheme the action and the query decide. -/
theorem ofAddress_of_scheme {text : String} {rest : List Char} (h : trim text.toList = scheme ++ rest) :
    ofAddress text = match ofParameters? (actionOf rest) (readQuery (queryOf rest)) with
      | some link => .ok link
      | none => .error (.unknownAction (actionOf rest)) := by
  unfold ofAddress
  rw [h, stripStart?_append]
  dsimp only
  rw [cutOrAll_eq]
  rfl

/-- Without the scheme a text is no link. -/
theorem ofAddress_of_no_scheme {text : String} (h : ¬scheme <+: trim text.toList) :
    ofAddress text = .error (.notALink text) := by
  unfold ofAddress
  cases hstrip : stripStart? scheme (trim text.toList) with
  | none => rfl
  | some rest => exact absurd ⟨rest, (stripStart?_eq_some_iff.1 hstrip).symm⟩ h

/-- **A text is refused just when it does not start like a link, or its action is not known.** -/
theorem ofAddress_eq_error_iff {text : String} :
    (∃ e, ofAddress text = .error e) ↔
      ¬scheme <+: trim text.toList ∨ ∃ rest, trim text.toList = scheme ++ rest ∧ actionOf rest ∉ actionNames := by
  by_cases hscheme : scheme <+: trim text.toList
  · obtain ⟨rest, hrest⟩ := hscheme
    rw [ofAddress_of_scheme hrest.symm]
    cases hlink : ofParameters? (actionOf rest) (readQuery (queryOf rest)) with
    | none =>
      have haction : actionOf rest ∉ actionNames := ofParameters?_eq_none_iff.1 hlink
      exact ⟨fun _ => Or.inr ⟨rest, hrest.symm, haction⟩, fun _ => ⟨_, rfl⟩⟩
    | some link =>
      refine ⟨nofun, ?_⟩
      rintro (hno | ⟨rest', hrest', haction⟩)
      · exact absurd ⟨rest, hrest⟩ hno
      · -- what follows the scheme is the same, and its action is known
        obtain rfl : rest = rest' := List.append_cancel_left (hrest.trans hrest')
        rw [ofParameters?_eq_none_iff.2 haction] at hlink
        cases hlink
  · exact ⟨fun _ => Or.inl hscheme, fun _ => ⟨_, ofAddress_of_no_scheme hscheme⟩⟩

/-- The address with these texts for its action and for the segments of its query. -/
def addressWith (action : List Char) (segments : List (List Char)) : String :=
  String.ofList (scheme ++ action ++ '?' :: ['&'].intercalate segments)

/-- No text holds white space or the mark that ends it. -/
structure Fits (action : List Char) (segments : List (List Char)) : Prop where
  action : ∀ c ∈ action, c ≠ '?' ∧ isBlank c = false
  segments : ∀ segment ∈ segments, ∀ c ∈ segment, c ≠ '&' ∧ isBlank c = false

/-- Do texts hold neither white space nor the mark that ends them? -/
def fits (action : List Char) (segments : List (List Char)) : Bool :=
  action.all (fun c => c != '?' && !isBlank c) && segments.all (List.all · fun c => c != '&' && !isBlank c)

/-- Whether texts fit can be computed. -/
theorem fits_iff {action : List Char} {segments : List (List Char)} :
    fits action segments = true ↔ Fits action segments := by
  unfold fits
  simp only [Bool.and_eq_true, List.all_eq_true, bne_iff_ne, Bool.not_eq_true']
  exact ⟨fun ⟨haction, hsegments⟩ => ⟨haction, hsegments⟩, fun h => ⟨h.action, h.segments⟩⟩

instance (action : List Char) (segments : List (List Char)) : Decidable (Fits action segments) :=
  decidable_of_iff _ fits_iff

/-- An address is taken apart into the texts that it is made of. -/
theorem ofAddress_addressWith {action : List Char} {segments : List (List Char)} (h : Fits action segments) :
    ofAddress (addressWith action segments)
      = match ofParameters? (String.ofList (dropEnd '/' action)) (readQuery (['&'].intercalate segments)) with
        | some link => .ok link
        | none => .error (.unknownAction (String.ofList (dropEnd '/' action))) := by
  have hscheme : ∀ c ∈ scheme, isAddressChar c = true := List.all_eq_true.1 (by decide)
  have hblank : ∀ c ∈ (addressWith action segments).toList, isBlank c = false := by
    intro c hc
    unfold addressWith at hc
    rw [String.toList_ofList, List.append_assoc] at hc
    rcases List.mem_append.1 hc with hc | hc
    · exact isBlank_of_isAddressChar (hscheme c hc)
    · rcases List.mem_append.1 hc with hc | hc
      · exact (h.action c hc).2
      · rcases List.mem_cons.1 hc with rfl | hc
        · decide
        · rcases mem_intercalate hc with rfl | ⟨segment, hsegment, hc⟩
          · decide
          · exact (h.segments segment hsegment c hc).2
  have htrim : trim (addressWith action segments).toList = scheme ++ (action ++ '?' :: ['&'].intercalate segments) := by
    rw [trim_eq_self hblank]
    unfold addressWith
    rw [String.toList_ofList, List.append_assoc]
  have hmark : ∀ c ∈ action, decide (c ≠ '?') = true := fun c hc => decide_eq_true (h.action c hc).1
  have haction : actionOf (action ++ '?' :: ['&'].intercalate segments) = String.ofList (dropEnd '/' action) := by
    unfold actionOf
    rw [List.takeWhile_append_of_pos hmark, List.takeWhile_cons_of_neg (by decide), List.append_nil]
  have hquery : queryOf (action ++ '?' :: ['&'].intercalate segments) = ['&'].intercalate segments := by
    unfold queryOf
    rw [List.dropWhile_append_of_pos hmark, List.dropWhile_cons_of_neg (by decide)]
    rfl
  rw [ofAddress_of_scheme htrim, haction, hquery]

/-! ## §4. What a link depends on -/

/-- Slashes at the end of an action are of no account. -/
theorem dropEnd_append_replicate (action : List Char) (n : ℕ) :
    dropEnd '/' (action ++ List.replicate n '/') = dropEnd '/' action := by
  unfold dropEnd
  rw [List.reverse_append, List.dropWhile_append_of_pos]
  intro c hc
  rw [List.eq_of_mem_replicate (List.mem_reverse.1 hc)]
  rfl

/-- Slashes behind the action fit in. -/
theorem Fits.slashes {action : List Char} {segments : List (List Char)} (h : Fits action segments) (n : ℕ) :
    Fits (action ++ List.replicate n '/') segments where
  action c hc := by
    rcases List.mem_append.1 hc with hc | hc
    · exact h.action c hc
    · rw [List.eq_of_mem_replicate hc]
      decide
  segments := h.segments

theorem Fits.not_mem {action : List Char} {segments : List (List Char)} (h : Fits action segments) :
    ∀ segment ∈ segments, '&' ∉ segment := fun segment hsegment hc => (h.segments segment hsegment '&' hc).1 rfl

/-- Fewer segments fit if more do. -/
theorem Fits.of_subset {action : List Char} {segments segments' : List (List Char)} (h : Fits action segments)
    (hsubset : segments' ⊆ segments) : Fits action segments' :=
  ⟨h.action, fun segment hsegment => h.segments segment (hsubset hsegment)⟩

/-- **Addresses with the same action, up to slashes at its end, and the same values of the known names are read alike.** -/
theorem ofAddress_congr {action : List Char} {segments segments' : List (List Char)} (h : Fits action segments)
    (h' : Fits action segments') (hvalues : ∀ name ∈ parameterNames, firstValue? name segments = firstValue? name segments')
    (n n' : ℕ) :
    ofAddress (addressWith (action ++ List.replicate n '/') segments)
      = ofAddress (addressWith (action ++ List.replicate n' '/') segments') := by
  have hlookup : ∀ name ∈ parameterNames, (readQuery (['&'].intercalate segments)).lookup name
      = (readQuery (['&'].intercalate segments')).lookup name := by
    intro name hname
    have hne : name ≠ "" := by
      rintro rfl
      exact absurd hname (by decide)
    rw [lookup_readQuery hne h.not_mem, lookup_readQuery hne h'.not_mem, hvalues name hname]
  rw [ofAddress_addressWith (h.slashes n), ofAddress_addressWith (h'.slashes n'), dropEnd_append_replicate,
    dropEnd_append_replicate, ofParameters?_congr hlookup]

/-- The same without slashes. -/
theorem ofAddress_congr_segments {action : List Char} {segments segments' : List (List Char)} (h : Fits action segments)
    (hsubset : segments' ⊆ segments)
    (hvalues : ∀ name ∈ parameterNames, firstValue? name segments = firstValue? name segments') :
    ofAddress (addressWith action segments) = ofAddress (addressWith action segments') := by
  have hcongr := ofAddress_congr h (h.of_subset hsubset) hvalues 0 0
  rwa [List.replicate_zero, List.append_nil] at hcongr

/-- A name that no known name is, or one that came before, adds nothing. -/
theorem firstValue?_insert {name : String} {before extra after : List (List Char)}
    (h : name ∉ extra.map nameOf ∨ name ∈ before.map nameOf) :
    firstValue? name (before ++ extra ++ after) = firstValue? name (before ++ after) := by
  rw [firstValue?_append, firstValue?_append, firstValue?_append]
  rcases h with h | h
  · rw [firstValue?_eq_none_iff.2 h, Option.or_none]
  · obtain ⟨value, hvalue⟩ := Option.ne_none_iff_exists'.1 (mt firstValue?_eq_none_iff.1 (not_not_intro h))
    rw [hvalue]
    rfl

/-- **The parameters of a link are read by name only.** Of an address whose action holds no question mark, whose segments
hold no ampersand, and which holds no white space:
* the link depends on the action, with any number of slashes after it, and on the decoded value of the first segment of
  each known name;
* so it stays when segments are put in anywhere that are empty or of other names, when neighbouring segments of different
  names change their order, and when a name comes again later.

Any text at all is refused just when, without the white space around it, it does not start like a link, or its action
without the slashes at its end is none of the three. -/
theorem query_read_by_name :
    (∀ action segments segments', Fits action segments → Fits action segments' →
        (∀ name ∈ parameterNames, firstValue? name segments = firstValue? name segments') →
        ∀ n n', ofAddress (addressWith (action ++ List.replicate n '/') segments)
          = ofAddress (addressWith (action ++ List.replicate n' '/') segments'))
      ∧ (∀ action before extra after, Fits action (before ++ extra ++ after) →
          (∀ segment ∈ extra, segment = [] ∨ nameOf segment ∉ parameterNames) →
          ofAddress (addressWith action (before ++ extra ++ after)) = ofAddress (addressWith action (before ++ after)))
      ∧ (∀ action before block block' after, Fits action (before ++ block ++ after) → block.Perm block' →
          (block.map nameOf).Nodup →
          ofAddress (addressWith action (before ++ block ++ after))
            = ofAddress (addressWith action (before ++ block' ++ after)))
      ∧ (∀ action before again after, Fits action (before ++ [again] ++ after) → nameOf again ∈ before.map nameOf →
          ofAddress (addressWith action (before ++ [again] ++ after)) = ofAddress (addressWith action (before ++ after)))
      ∧ ∀ text : String, (∃ e, ofAddress text = .error e) ↔
          ¬scheme <+: trim text.toList ∨ ∃ rest, trim text.toList = scheme ++ rest ∧ actionOf rest ∉ actionNames := by
  have hshorter (before extra after : List (List Char)) : before ++ after ⊆ before ++ extra ++ after :=
    ((List.sublist_append_left before extra).append_right after).subset
  refine ⟨fun action segments segments' h h' hvalues => ofAddress_congr h h' hvalues, ?_, ?_, ?_,
    fun text => ofAddress_eq_error_iff⟩
  · intro action before extra after h hextra
    apply ofAddress_congr_segments h (hshorter before extra after)
    intro name hname
    apply firstValue?_insert
    left
    intro hmem
    obtain ⟨segment, hsegment, rfl⟩ := List.mem_map.1 hmem
    rcases hextra segment hsegment with rfl | hother
    · exact absurd hname (by decide)
    · exact hother hname
  · intro action before block block' after h hperm hnodup
    apply ofAddress_congr_segments h
    · exact ((hperm.append_left before).append_right after).symm.subset
    · intro name _
      rw [firstValue?_append, firstValue?_append, firstValue?_append, firstValue?_append,
        firstValue?_perm hperm hnodup name]
  · intro action before again after h hagain
    apply ofAddress_congr_segments h (hshorter before [again] after)
    intro name _
    apply firstValue?_insert
    by_cases hname : name = nameOf again
    · exact Or.inr (hname ▸ hagain)
    · exact Or.inl (by simpa using hname)

/-- A link among segments without a name, of another name, with a name that is escaped and a value with a mark in it, in
another order, with a name that comes again and slashes after the action; each of these changes by itself; and an
address whose action is none of the three. -/
theorem query_read_by_name_shuffled :
    let action := "link_url".toList
    let plain := ["url=http%3A%2F%2Fa", "id=w%3D", "index=3"].map String.toList
    let shuffled := ["", "other=1", "i%64=w=", "=2", "index=%33", "url=http://a", "", "id=later", "users"].map String.toList
    let url := "url=http%3A%2F%2Fa".toList
    let others := ["", "other=1", "=2"].map String.toList
    let marked := ["i%64=w=", "index=3"].map String.toList
    let turned := ["index=3", "i%64=w="].map String.toList
    let again := "url=later".toList
    Fits action plain ∧ Fits action shuffled
      ∧ ofAddress (addressWith (action ++ List.replicate 2 '/') shuffled)
        = ofAddress (addressWith (action ++ List.replicate 0 '/') plain)
      ∧ ofAddress (addressWith action ([url] ++ others ++ marked)) = ofAddress (addressWith action ([url] ++ marked))
      ∧ ofAddress (addressWith action ([url] ++ marked ++ [again]))
        = ofAddress (addressWith action ([url] ++ turned ++ [again]))
      ∧ ofAddress (addressWith action ([url] ++ [again] ++ turned)) = ofAddress (addressWith action ([url] ++ turned))
      ∧ (∃ e, ofAddress " widget://link/?url=http%3A%2F%2Fa" = .error e)
      ∧ ofAddress (addressWith action plain) = .ok (cell "http://a" "w=" (some 3)) := by
  intro action plain shuffled url others marked turned again
  obtain ⟨hnames, hinsert, hpermute, hrepeat, hrefused⟩ := query_read_by_name
  have hplain : Fits action plain := by decide
  have hshuffled : Fits action shuffled := by decide
  have haction : ∃ rest, trim " widget://link/?url=http%3A%2F%2Fa".toList = scheme ++ rest
      ∧ actionOf rest ∉ actionNames := ⟨"link/?url=http%3A%2F%2Fa".toList, by decide, by decide⟩
  refine ⟨hplain, hshuffled, hnames action shuffled plain hshuffled hplain (by decide +kernel) 2 0, ?_, ?_, ?_,
    (hrefused _).2 (.inr haction), by decide +kernel⟩
  · exact hinsert action [url] others marked (by decide) (by decide)
  · exact hpermute action [url] marked turned [again] (by decide) (by decide) (by decide)
  · exact hrepeat action [url] again turned (by decide) (by decide)

end HomeWidget.Link
