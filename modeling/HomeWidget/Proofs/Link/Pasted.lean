import HomeWidget.Proofs.Fetch.Steps
import HomeWidget.Proofs.Link.Query

/-!
# Pasted texts

A user who wants a widget pastes its address, or a link that someone shared. A link is unwrapped to the address that it
is about, and any other text stands for itself; either way no white space is left around it. The address comes out as it
went into the link, even if it looks like a link or holds white space of its own: it is unwrapped once, and only its ends
are trimmed. So a request for what was pasted is a request for just this id.

Main results: `ofAddress_toAddress_url`, `exists_widgetId`, `pasted_unwraps`.
-/
namespace HomeWidget.Link

open Text

/-! ## §1. The address that a link is about -/

/-- What a link is written with fits into its address. -/
theorem fits_parameters (link : Link) : Fits link.action.toList (link.parameters.map writeParameter) where
  action c hc := by
    obtain ⟨hchars, hmark, -⟩ := action_plain link
    refine ⟨?_, isBlank_of_isAddressChar (hchars c hc)⟩
    rintro rfl
    exact hmark hc
  segments segment hsegment c hc := by
    obtain ⟨p, hp, rfl⟩ := List.mem_map.1 hsegment
    rcases mem_writeParameter (plainName_of_mem_parameters hp) hc with hescaped | rfl
    · exact ⟨(isEscapedChar_ne hescaped).1, isBlank_of_isAddressChar (isAddressChar_of_isEscapedChar hescaped)⟩
    · decide

/-- The parameters of a link name the address that it is about, whatever its index. -/
theorem ofParameters?_parameters_url (link : Link) :
    ∃ found, ofParameters? link.action link.parameters = some found ∧ found.url = link.url := by
  cases link with
  | cell url id index => exact ⟨cell url id (index.bind fun i => readIndex? (toString i)), by cases index <;> rfl, rfl⟩
  | surface url id => exact ⟨surface url id, rfl, rfl⟩
  | subscribe url user password => exact ⟨subscribe url user password, by cases user <;> cases password <;> rfl, rfl⟩

/-- **A written link is read as one about the same address.** -/
theorem ofAddress_toAddress_url (link : Link) : ∃ found, ofAddress link.toAddress = .ok found ∧ found.url = link.url := by
  obtain ⟨-, -, hslash⟩ := action_plain link
  have hquery : readQuery (['&'].intercalate (link.parameters.map writeParameter)) = link.parameters :=
    readQuery_writeQuery (fun p hp => plainName_of_mem_parameters hp) (parameters_ne_nil link)
  obtain ⟨found, hfound, hurl⟩ := ofParameters?_parameters_url link
  refine ⟨found, ?_, hurl⟩
  rw [show link.toAddress = addressWith link.action.toList (link.parameters.map writeParameter) from rfl,
    ofAddress_addressWith (fits_parameters link), hslash, hquery, String.ofList_toList, hfound]

/-! ## §2. What was pasted -/

/-- A link is unwrapped, whatever white space is around it. -/
theorem widgetId_toAddress (link : Link) {lead trail : String} (hlead : Blank lead.toList) (htrail : Blank trail.toList) :
    widgetId (lead ++ link.toAddress ++ trail) = trimmed link.url := by
  have hblank : ∀ c ∈ link.toAddress.toList, isBlank c = false := fun c hc =>
    isBlank_of_isAddressChar (isAddressChar_of_mem_toAddress hc)
  have htext : trim (lead ++ link.toAddress ++ trail).toList = link.toAddress.toList := by
    rw [String.toList_append, String.toList_append, trim_append hlead htrail, trim_eq_self hblank]
  have haddress : isAddress link.toAddress.toList = true := by
    unfold isAddress
    rw [toList_toAddress, stripStart?_append]
    rfl
  obtain ⟨found, hfound, hurl⟩ := ofAddress_toAddress_url link
  unfold widgetId
  rw [htext]
  dsimp only
  rw [haddress, String.ofList_toList, hfound]
  dsimp only
  rw [hurl]

/-- What a pasted text stands for is always trimmed. -/
theorem exists_widgetId (pasted : String) : ∃ text, widgetId pasted = trimmed text := by
  unfold widgetId
  dsimp only
  split
  next link _ _ => exact ⟨link.url, rfl⟩
  next => exact ⟨pasted, rfl⟩

/--
**Pasted links unwrap to the address that they are about.**
* The address of any link, with any white space around it, stands for the address that the link is about, without the
  white space around that.
* Whatever was pasted, what it stands for neither starts nor ends with white space.
* So whoever requests it, by whatever transport and over whatever store, is told just this as the id that was requested.
-/
theorem pasted_unwraps :
    (∀ (link : Link) (lead trail : String), Blank lead.toList → Blank trail.toList →
        widgetId (lead ++ link.toAddress ++ trail) = trimmed link.url)
      ∧ (∀ pasted : String, (∀ c ∈ (widgetId pasted).toList.head?, isBlank c = false)
          ∧ ∀ c ∈ (widgetId pasted).toList.getLast?, isBlank c = false)
      ∧ ∀ (pasted : String) (σ : Type) (transport : Transport (StateM σ)) (store : RowStore (StateM σ)) (p : Pipeline)
          (request : Request) (s : σ),
          ((p.resolve transport store { request with id := widgetId pasted }).run s).1.1.requestedId
            = widgetId pasted := by
  refine ⟨fun link lead trail hlead htrail => widgetId_toAddress link hlead htrail, fun pasted => ?_, ?_⟩
  · obtain ⟨text, htext⟩ := exists_widgetId pasted
    rw [htext]
    unfold trimmed
    rw [String.toList_ofList]
    exact ends_trim text.toList
  · intro pasted σ transport store p request s
    obtain ⟨text, htext⟩ := exists_widgetId pasted
    rw [Pipeline.requestedId_resolve, htext]
    exact trimmed_trimmed text

/-- A link about an address that looks like a link, with an escape in it and white space around it, among white space. -/
theorem pasted_unwraps_once :
    Blank "\t\u00a0".toList ∧ Blank "\u3000\n".toList
      ∧ widgetId ("\t\u00a0" ++ (subscribe " widget://add_widget?url=%20a\u2003" none none).toAddress ++ "\u3000\n")
        = "widget://add_widget?url=%20a" := by
  have hlead : Blank "\t\u00a0".toList := by decide
  have htrail : Blank "\u3000\n".toList := by decide
  refine ⟨hlead, htrail, ?_⟩
  rw [pasted_unwraps.1 _ _ _ hlead htrail]
  decide

end HomeWidget.Link
