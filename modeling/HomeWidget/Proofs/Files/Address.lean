import HomeWidget.CommandLine.Run
import HomeWidget.Proofs.Fetch.Steps
import HomeWidget.Proofs.Link.RoundTrip

/-!
# Files under their addresses

A file is requested as if it came from elsewhere: its path is made absolute and written as an address, the pipeline trims
the address and asks whether it can be requested, and the transport reads the path back from it. Nothing is lost on the
way. A written path starts with its separator, so that it is never taken for the name of a host; its other marks are
escaped, so that it holds no white space and no escape but its own; and what is in front of it is a scheme.

Main results: `isAbsolute_absolute?`, `ofAddress?_toAddress`, `isRequestable_toAddress`, `paths_survive`.
-/
namespace HomeWidget

open Text

namespace FilePath

/-! ## §1. Absolute paths -/

theorem isAbsolute_append {path : String} (h : isAbsolute path = true) (rest : String) :
    isAbsolute (path ++ rest) = true := by
  unfold isAbsolute at h ⊢
  rw [beq_iff_eq] at h ⊢
  rw [String.toList_append, List.head?_append, h]
  rfl

theorem isAbsolute_join {directory : String} (h : isAbsolute directory = true) (name : String) :
    isAbsolute (join directory name) = true := by
  unfold join
  split
  · exact isAbsolute_append h name
  · exact isAbsolute_append (isAbsolute_append h "/") name

/-- Names that are entered from the root lead to paths from the root. -/
theorem isAbsolute_foldl_join {base : String} (h : isAbsolute base = true) (names : List (List Char)) :
    isAbsolute (names.foldl (fun p c => join p (String.ofList c)) base) = true := by
  induction names generalizing base with
  | nil => exact h
  | cons name rest ih => exact ih (isAbsolute_join h _)

/-- **An absolute form starts at the root**, wherever the path starts. -/
theorem isAbsolute_absolute? {current path whole : String} (hcurrent : isAbsolute current = true)
    (h : absolute? current path = some whole) : isAbsolute whole = true := by
  -- the names of the path are entered from a base, and a separator at its end may be put back
  have hentered : ∀ base, isAbsolute base = true →
      let entered := (components path).foldl (fun p c => join p (String.ofList c)) base
      isAbsolute (if endsOpen path ∧ ¬endsOpen entered then entered ++ "/" else entered) = true := by
    intro base hbase entered
    have h : isAbsolute entered = true := isAbsolute_foldl_join hbase (components path)
    split
    · exact isAbsolute_append h "/"
    · exact h
  unfold absolute? at h
  split at h
  next => cases h
  next =>
    rw [← Option.some.inj h]
    apply hentered
    -- the base is the root, with one separator or two, or the current directory
    split
    · decide
    · decide
    · decide
    · exact hcurrent

theorem absolute?_eq_none_iff {current path : String} : absolute? current path = none ↔ path = "" := by
  unfold absolute?
  rw [← String.isEmpty_iff]
  split
  next h => exact ⟨fun _ => h, fun _ => rfl⟩
  next h => exact ⟨nofun, fun h' => absurd h' h⟩

/-! ## §2. Addresses of files -/

/-- An absolute path is a separator and more. -/
theorem exists_of_isAbsolute {path : String} (h : isAbsolute path = true) : ∃ rest, path.toList = '/' :: rest := by
  unfold isAbsolute at h
  rw [beq_iff_eq, List.head?_eq_some_iff] at h
  exact h

theorem toList_toAddress (path : String) : (toAddress path).toList = scheme ++ Percent.encodePath path.toList :=
  String.toList_ofList

/-- **The address of an absolute path leads to that path.** -/
theorem ofAddress?_toAddress {path : String} (h : isAbsolute path = true) : ofAddress? (toAddress path) = some path := by
  obtain ⟨rest, hrest⟩ := exists_of_isAbsolute h
  -- what follows the scheme starts with a separator, not with the name of a host
  have hhost : stripStart? "localhost".toList (Percent.encodePath path.toList) = none := by
    rw [hrest, Percent.encodePath_separator]
    rfl
  have hhead : (Percent.encodePath path.toList).head? = some '/' := by
    rw [hrest, Percent.encodePath_separator]
    rfl
  unfold ofAddress?
  rw [toList_toAddress, stripStart?_append]
  show (if ((stripStart? "localhost".toList (Percent.encodePath path.toList)).getD
    (Percent.encodePath path.toList)).head? = some '/' then _ else none) = _
  rw [hhost]
  show (if (Percent.encodePath path.toList).head? = some '/' then
    some (String.ofList (Percent.decode (Percent.encodePath path.toList))) else none) = some path
  rw [if_pos hhead, Percent.decode_encodePath, String.ofList_toList]

/-- There is no white space in an address. -/
theorem trimmed_toAddress (path : String) : trimmed (toAddress path) = toAddress path := by
  have hscheme : ∀ c ∈ scheme, Link.isAddressChar c = true := List.all_eq_true.1 (by decide)
  have hblank : ∀ c ∈ (toAddress path).toList, isBlank c = false := by
    intro c hc
    apply Link.isBlank_of_isAddressChar
    rw [toList_toAddress] at hc
    rcases List.mem_append.1 hc with hc | hc
    · exact hscheme c hc
    · rcases Percent.mem_encodePath hc with hc | rfl
      · unfold Link.isAddressChar
        rw [hc]
        rfl
      · decide
  unfold trimmed
  rw [trim_eq_self hblank, String.ofList_toList]

/-- **The address of an absolute path can be requested.** -/
theorem isRequestable_toAddress {path : String} (h : isAbsolute path = true) :
    isRequestable (toAddress path) = true := by
  obtain ⟨rest, hrest⟩ := exists_of_isAbsolute h
  have hcut : cut? "://".toList (toAddress path).toList
      = some ("file".toList, '/' :: Percent.encodePath rest) := by
    rw [toList_toAddress, hrest, Percent.encodePath_separator]
    rfl
  unfold isRequestable
  rw [hcut]
  rfl

theorem exists_of_addressOf? {current path url : String} (h : addressOf? current path = some url) :
    ∃ whole, absolute? current path = some whole ∧ url = toAddress whole := by
  unfold addressOf? at h
  obtain ⟨whole, hwhole, rfl⟩ := Option.map_eq_some_iff.1 h
  exact ⟨whole, hwhole, rfl⟩

end FilePath

/-- What is answered for an address after its file was read. -/
def fileAnswer (url path : String) : Except Fault Bytes → Answer
  | .ok body => .ok ⟨200, body, url⟩
  | .error .notFound => .ok ⟨404, [], url⟩
  | .error fault => .error (.file path fault)

/-- **The transport reads one file**, the one that the address leads to, and does nothing else. -/
theorem files_eq {m : Type → Type} [Monad m] (files : FileSystem m) (headers : List Header) {url path : String}
    (h : FilePath.ofAddress? url = some path) :
    Transport.files files ⟨url, headers⟩ = (do return fileAnswer url path (← files.read path)) := by
  unfold Transport.files
  dsimp only
  rw [h]
  refine congrArg (files.read path >>= ·) (funext fun result => ?_)
  cases result with
  | ok body => rfl
  | error fault => cases fault <;> rfl

namespace CommandLine

open FilePath

/-! ## §3. Inputs -/

/-- The address of an input is the input itself, if it can be requested, or that of the file that it names. -/
theorem inputUrl_eq_ok {current input url : String} (h : inputUrl current input = .ok url) :
    (isRequestable (trimmed input) = true ∧ url = trimmed input) ∨ addressOf? current (trimmed input) = some url := by
  unfold inputUrl at h
  dsimp only at h
  split at h
  next hrequestable => exact Or.inl ⟨hrequestable, (Except.ok.inj h).symm⟩
  next =>
    unfold fileUrl at h
    split at h
    next found hfound =>
      rw [← Except.ok.inj h]
      exact Or.inr hfound
    next => cases h

/-- Only white space names no file. -/
theorem exists_inputUrl_iff {current input : String} :
    (∃ url, inputUrl current input = .ok url) ↔ trimmed input ≠ "" := by
  constructor
  · rintro ⟨url, h⟩ hempty
    rcases inputUrl_eq_ok h with ⟨hrequestable, -⟩ | hfile
    · rw [hempty] at hrequestable
      exact absurd hrequestable (by decide)
    · obtain ⟨whole, hwhole, -⟩ := exists_of_addressOf? hfile
      rw [absolute?_eq_none_iff.2 hempty] at hwhole
      cases hwhole
  · intro hfull
    unfold inputUrl
    dsimp only
    split
    next => exact ⟨_, rfl⟩
    next =>
      obtain ⟨whole, hwhole⟩ := Option.ne_none_iff_exists'.1 (mt absolute?_eq_none_iff.1 hfull)
      unfold fileUrl addressOf?
      rw [hwhole]
      exact ⟨_, rfl⟩

/-- **Local paths survive the trip through the pipeline.** If relative paths start from an absolute directory, then
* every input but white space has an address; it can be requested and has no white space around it, so that a request for
  it that no stored document answers calls just this address;
* the address of every path leads back to its absolute form, so that the file that the transport reads is the one that
  the path names. -/
theorem paths_survive (current : String) (hcurrent : isAbsolute current = true) :
    (∀ input, (∃ url, inputUrl current input = .ok url) ↔ trimmed input ≠ "")
      ∧ (∀ input url, inputUrl current input = .ok url → isRequestable url = true ∧ trimmed url = url
          ∧ ∀ options row request, request.id = url → storedIn? options row request = none →
              startOver options row request = .calling ⟨url, requestHeaders request.user request.password⟩)
      ∧ ∀ path url, addressOf? current path = some url →
          ∃ whole, absolute? current path = some whole ∧ ofAddress? url = some whole
            ∧ ∀ {m : Type → Type} [Monad m] (files : FileSystem m) (headers : List Header),
                Transport.files files ⟨url, headers⟩ = (do return fileAnswer url whole (← files.read whole)) := by
  have hplain : ∀ input url, inputUrl current input = .ok url → isRequestable url = true ∧ trimmed url = url := by
    intro input url h
    rcases inputUrl_eq_ok h with ⟨hrequestable, rfl⟩ | hfile
    · exact ⟨hrequestable, trimmed_trimmed input⟩
    · obtain ⟨whole, hwhole, rfl⟩ := exists_of_addressOf? hfile
      exact ⟨isRequestable_toAddress (isAbsolute_absolute? hcurrent hwhole), trimmed_toAddress whole⟩
  refine ⟨fun input => exists_inputUrl_iff, ?_, ?_⟩
  · intro input url h
    obtain ⟨hrequestable, htrimmed⟩ := hplain input url h
    refine ⟨hrequestable, htrimmed, ?_⟩
    intro options row request hid hnone
    have htarget : request.target = url := by
      unfold Request.target
      rw [hid, htrimmed]
    unfold startOver
    rw [hnone]
    dsimp only
    rw [htarget, if_pos hrequestable]
    unfold Request.call
    rw [htarget]
  · intro path url h
    obtain ⟨whole, hwhole, rfl⟩ := exists_of_addressOf? h
    have hback : ofAddress? (toAddress whole) = some whole := ofAddress?_toAddress (isAbsolute_absolute? hcurrent hwhole)
    exact ⟨whole, hwhole, hback, fun files headers => files_eq files headers hback⟩

/-- A relative path that starts like a host, with a blank, a look-alike of an escape, the marks of addresses, a letter of
two bytes, a control character, separators that are repeated, and white space around it. -/
theorem paths_survive_marks :
    let url := "file:///home/localhost/a%20b%252F%3Fx%23%C3%A9%07/"
    inputUrl "/home" " localhost//a b%2F?x#é\x07/\n" = .ok url
      ∧ isRequestable url = true ∧ trimmed url = url
      ∧ ∃ whole, absolute? "/home" "localhost//a b%2F?x#é\x07/" = some whole ∧ ofAddress? url = some whole
          ∧ whole = "/home/localhost/a b%2F?x#é\x07/" := by
  intro url
  have hcurrent : isAbsolute "/home" = true := by decide
  have hinput : inputUrl "/home" " localhost//a b%2F?x#é\x07/\n" = .ok url := by rfl
  have hpath : addressOf? "/home" "localhost//a b%2F?x#é\x07/" = some url := by rfl
  obtain ⟨-, hinputs, hpaths⟩ := paths_survive "/home" hcurrent
  obtain ⟨hrequestable, htrimmed, -⟩ := hinputs _ _ hinput
  obtain ⟨whole, hwhole, hback, -⟩ := hpaths _ _ hpath
  refine ⟨hinput, hrequestable, htrimmed, whole, hwhole, hback, ?_⟩
  exact Option.some.inj (hwhole.symm.trans (by rfl))

end CommandLine
end HomeWidget
