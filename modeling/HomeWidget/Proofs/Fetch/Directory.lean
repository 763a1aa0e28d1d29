import HomeWidget.Fetch.Store
import HomeWidget.Proofs.Files.Mishap
import HomeWidget.Proofs.Table
import HomeWidget.Proofs.Text.Fingerprint

/-!
# A directory of rows

The store that is a directory does what the table in memory does, whatever befalls its steps. A document is written
under a name that no row has, so that whatever is left of a write that broke off is no row; the step that makes it one
is done as a whole or not at all, and it is the last step of the call. What remains is that different ids have different
files: this is so for ids with different fingerprints.

Main results: `rowPath_inj`, `rowPath_ne_draftPath`, `row_perform`, `directory_refines_memory`.
-/
namespace HomeWidget
namespace RowStore

open Volume

/-! ## §1. Paths -/

/-- The fingerprint of an id. -/
def fingerprint (id : String) : UInt64 := Fingerprint.ofBytes (Utf8.ofString id)

theorem exists_join_eq (directory : String) : ∃ start, ∀ name, FilePath.join directory name = start ++ name := by
  by_cases h : directory.isEmpty = true ∨ FilePath.endsOpen directory = true
  · refine ⟨directory, fun name => ?_⟩
    unfold FilePath.join
    exact if_pos h
  · refine ⟨directory ++ "/", fun name => ?_⟩
    unfold FilePath.join
    exact if_neg h

/-- **The file of an id is told by the fingerprint of the id**, and tells it. -/
theorem rowPath_inj {root id other : String} :
    rowPath root id = rowPath root other ↔ fingerprint id = fingerprint other := by
  obtain ⟨start, hjoin⟩ := exists_join_eq root
  unfold rowPath rowName
  rw [hjoin, hjoin, String.append_right_inj, String.append_left_inj]
  exact Fingerprint.toHex_inj

/-- **No row is where documents are first written.** -/
theorem rowPath_ne_draftPath (root id other : String) : rowPath root id ≠ draftPath root other := by
  obtain ⟨start, hjoin⟩ := exists_join_eq root
  intro h
  have hlength := congrArg String.length h
  unfold draftPath rowPath rowName at hlength
  rw [hjoin, hjoin] at hlength
  simp only [String.length_append, Fingerprint.length_toHex] at hlength
  have htmp : ".tmp".length = 4 := rfl
  omega

/-! ## §2. Calls on a store -/

/-- A call on a store. -/
inductive Access where
  | get (id : String)
  | put (id : String) (bytes : Bytes)
  | delete (id : String)
  deriving DecidableEq, Repr

/-- The id that a call is about. -/
def Access.id : Access → String
  | .get id => id
  | .put id _ => id
  | .delete id => id

/-- What becomes of a call. -/
inductive Report where
  /-- Reading succeeded, with or without a row. -/
  | found (row : Option Bytes)
  /-- Writing or deleting succeeded. -/
  | done
  | failed (error : StorageError)
  /-- A crash came before the last step of the call was done. -/
  | cutShort
  deriving DecidableEq, Repr

/-- What is reported of a call that ended so, if `succeeded` is what it says of success. -/
def report {α : Type} (succeeded : α → Report) : Except Crash (Except StorageError α) → Report
  | .ok (.ok a) => succeeded a
  | .ok (.error e) => .failed e
  | .error _ => .cutShort

/-- A call on a store over a volume. -/
def Access.perform (store : RowStore VolumeM) (v : Volume) : Access → Report × Volume
  | .get id => let (ended, w) := exec (store.get id) v; (report .found ended, w)
  | .put id bytes => let (ended, w) := exec (store.put id bytes) v; (report (fun _ => .done) ended, w)
  | .delete id => let (ended, w) := exec (store.delete id) v; (report (fun _ => .done) ended, w)

/-- Calls in turn, those after a crash included: what becomes of each, and the volume in the end. -/
def history (store : RowStore VolumeM) (v : Volume) : List Access → List (Access × Report) × Volume
  | [] => ([], v)
  | access :: rest =>
    let (said, w) := access.perform store v
    let (later, w) := history store w rest
    ((access, said) :: later, w)

/-- The table in memory after a call, if the call succeeded. -/
def remember (rows : Rows) : Access × Report → Rows
  | (.put id bytes, .done) => ((memory.put id bytes).run rows).2
  | (.delete id, .done) => ((memory.delete id).run rows).2
  | _ => rows

/-! ## §3. Calls on a directory -/

/-- The store that is a directory of a volume. -/
def onVolume (root : String) : RowStore VolumeM := directory system root

/-- The row of an id, as the files have it. -/
def rowIn (root : String) (files : Contents) (id : String) : Option Bytes := files (rowPath root id)

variable (root id : String) (bytes : Bytes) (v : Volume)

/-- **Reading** changes no file, and if it succeeds it finds the row. -/
theorem perform_get :
    ((Access.get id).perform (onVolume root) v).2.files = v.files
      ∧ ((Access.get id).perform (onVolume root) v).1 ≠ .done
      ∧ ∀ row, ((Access.get id).perform (onVolume root) v).1 = .found row → row = rowIn root v.files id := by
  obtain ⟨hfiles, hread⟩ := exec_read (rowPath root id) v
  unfold Access.perform onVolume directory
  dsimp only
  rw [exec_bind]
  generalize exec (system.read (rowPath root id)) v = ended at hfiles hread ⊢
  obtain ⟨answer, w⟩ := ended
  dsimp only at hfiles hread
  rcases hread with rfl | ⟨fault, hfault, rfl⟩ | rfl
  · unfold readFile rowIn
    cases v.files (rowPath root id) with
    | some found => exact ⟨hfiles, nofun, fun row h => (Report.found.inj h).symm⟩
    | none => exact ⟨hfiles, nofun, fun row h => (Report.found.inj h).symm⟩
  · -- only a missing file is taken for a missing row
    cases fault with
    | notFound => exact absurd rfl hfault
    | _ => exact ⟨hfiles, nofun, nofun⟩
  · exact ⟨hfiles, nofun, nofun⟩

/-- A step, and what is done after it if it succeeds. -/
def thenDo (x : VolumeM (Except Fault Unit)) (error : Fault → StorageError) (rest : VolumeM (Except StorageError Unit)) :
    VolumeM (Except StorageError Unit) := do
  match ← x with
  | .error fault => pure (.error (error fault))
  | .ok () => rest

/-- What follows a step is done if the step succeeds, and otherwise nothing is. -/
theorem exec_thenDo (x : VolumeM (Except Fault Unit)) (error : Fault → StorageError)
    (rest : VolumeM (Except StorageError Unit)) (v : Volume) :
    ((exec x v).1 = .ok (.ok ()) ∧ exec (thenDo x error rest) v = exec rest (exec x v).2)
      ∨ (exec x v).1 ≠ .ok (.ok ()) ∧ (exec (thenDo x error rest) v).1 ≠ .ok (.ok ())
        ∧ (exec (thenDo x error rest) v).2 = (exec x v).2 := by
  unfold thenDo
  rw [exec_bind]
  obtain ⟨answer, w⟩ := exec x v
  rcases answer with crash | fault | done
  · exact Or.inr ⟨nofun, nofun, rfl⟩
  · exact Or.inr ⟨nofun, nofun, rfl⟩
  · exact Or.inl ⟨rfl, rfl⟩

/-- Writing a row: the directory is made, then the draft is written, then it is made the row. -/
theorem put_eq : (onVolume root).put id bytes
    = thenDo (system.createAll root) (.file .create root)
        (thenDo (system.write (draftPath root id) bytes) (.file .write (draftPath root id))
          (thenDo (system.rename (draftPath root id) (rowPath root id)) (.file .rename (draftPath root id))
            (pure (.ok ())))) := rfl

theorem report_eq_done_iff {ended : Except Crash (Except StorageError Unit)} :
    report (fun _ => .done) ended = .done ↔ ended = .ok (.ok ()) := by
  rcases ended with crash | error | done
  · exact ⟨nofun, nofun⟩
  · exact ⟨nofun, nofun⟩
  · exact ⟨fun _ => rfl, fun _ => rfl⟩

/-- **Writing** makes the row if it succeeds, and otherwise touches nothing but the draft. -/
theorem perform_put :
    (((Access.put id bytes).perform (onVolume root) v).1 = .done
        ∧ ((Access.put id bytes).perform (onVolume root) v).2.files
          = Function.update (Function.update v.files (draftPath root id) none) (rowPath root id) (some bytes))
      ∨ ((Access.put id bytes).perform (onVolume root) v).1 ≠ .done
        ∧ ∃ left, ((Access.put id bytes).perform (onVolume root) v).2.files
          = Function.update v.files (draftPath root id) left := by
  unfold Access.perform
  dsimp only
  rw [Ne, report_eq_done_iff, put_eq]
  have hmade := files_createAll root v
  rcases exec_thenDo (system.createAll root) _ _ v with ⟨-, hnext⟩ | ⟨-, hfailed, hkept⟩
  · -- the directory is there: the draft is written
    rw [hnext]
    generalize (exec (system.createAll root) v).2 = w at hmade ⊢
    have hwritten := exec_write (draftPath root id) bytes w
    rw [hmade] at hwritten
    rcases exec_thenDo (system.write (draftPath root id) bytes) _ _ w with ⟨hdone, hnext⟩ | ⟨hundone, hfailed, hkept⟩
    · -- the draft is there: it is made the row
      obtain ⟨-, hdraft⟩ := hwritten.resolve_right fun h => h.1 hdone
      rw [hnext]
      generalize (exec (system.write (draftPath root id) bytes) w).2 = x at hdraft ⊢
      have hrenamed := exec_rename (draftPath root id) (rowPath root id) x
      rw [hdraft] at hrenamed
      rcases exec_thenDo (system.rename (draftPath root id) (rowPath root id)) _ _ x with
        ⟨hdone, hnext⟩ | ⟨hundone, hfailed, hkept⟩
      · obtain ⟨-, found, hfound, hrow⟩ := hrenamed.resolve_right fun h => h.1 hdone
        rw [Function.update_self] at hfound
        rw [Function.update_idem, ← Option.some.inj hfound] at hrow
        rw [hnext]
        exact Or.inl ⟨rfl, hrow⟩
      · rw [hkept]
        exact Or.inr ⟨hfailed, some bytes, (hrenamed.resolve_left fun h => hundone h.1).2⟩
    · rw [hkept]
      exact Or.inr ⟨hfailed, (hwritten.resolve_left fun h => hundone h.1).2⟩
  · rw [hkept, hmade]
    exact Or.inr ⟨hfailed, v.files (draftPath root id), (Function.update_eq_self _ _).symm⟩

/-- **Deleting** takes the row away if it succeeds, and otherwise changes no file. -/
theorem perform_delete :
    (((Access.delete id).perform (onVolume root) v).1 = .done
        ∧ ((Access.delete id).perform (onVolume root) v).2.files = Function.update v.files (rowPath root id) none)
      ∨ ((Access.delete id).perform (onVolume root) v).1 ≠ .done
        ∧ ((Access.delete id).perform (onVolume root) v).2.files = v.files := by
  have hremoved := exec_remove (rowPath root id) v
  unfold Access.perform onVolume directory
  dsimp only
  rw [exec_bind]
  generalize exec (system.remove (rowPath root id)) v = ended at hremoved ⊢
  obtain ⟨answer, w⟩ := ended
  dsimp only at hremoved
  rcases hremoved with ⟨rfl, hgone⟩ | ⟨rfl, hmissing, hkept⟩ | ⟨⟨fault, hfault, rfl⟩ | rfl, hkept⟩
  · exact Or.inl ⟨rfl, hgone⟩
  · -- what is not there is as good as removed
    refine Or.inl ⟨rfl, ?_⟩
    rw [← hmissing, Function.update_eq_self]
    exact hkept
  · cases fault with
    | notFound => exact absurd rfl hfault
    | _ => exact Or.inr ⟨nofun, hkept⟩
  · exact Or.inr ⟨nofun, hkept⟩

/-! ## §4. Rows -/

variable (other : String) (access : Access)

/-- **A file that is no row says nothing about rows.** -/
theorem rowIn_update_draftPath (files : Contents) (left : Option Bytes) :
    rowIn root (Function.update files (draftPath root id) left) other = rowIn root files other :=
  Function.update_of_ne (rowPath_ne_draftPath root other id) _ _

theorem rowIn_update_rowPath (files : Contents) (row : Option Bytes) :
    rowIn root (Function.update files (rowPath root id) row) other
      = if fingerprint other = fingerprint id then row else rowIn root files other := by
  unfold rowIn
  by_cases h : fingerprint other = fingerprint id
  · rw [if_pos h, rowPath_inj.2 h, Function.update_self]
  · rw [if_neg h, Function.update_of_ne fun e => h (rowPath_inj.1 e)]

/-- What a reading reports is told by its row. -/
theorem report_get_of_row {root id : String} {files others : Contents}
    (h : rowIn root others id = rowIn root files id) (fates : List Fate) :
    ((Access.get id).perform (onVolume root) ⟨others, fates⟩).1
      = ((Access.get id).perform (onVolume root) ⟨files, fates⟩).1 := by
  have hread := exec_read_congr (show others (rowPath root id) = files (rowPath root id) from h) fates
  unfold Access.perform onVolume directory
  dsimp only
  rw [exec_bind, exec_bind]
  generalize exec (system.read (rowPath root id)) ⟨others, fates⟩ = ended at hread ⊢
  generalize exec (system.read (rowPath root id)) ⟨files, fates⟩ = ended' at hread ⊢
  obtain ⟨answer, w⟩ := ended
  obtain ⟨answer', w'⟩ := ended'
  obtain rfl : answer = answer' := hread
  rcases answer with crash | fault | bytes
  · rfl
  · cases fault <;> rfl
  · rfl

/-- **A call that does not succeed leaves every row as it was.** -/
theorem row_of_ne_done (h : (access.perform (onVolume root) v).1 ≠ .done) :
    rowIn root (access.perform (onVolume root) v).2.files other = rowIn root v.files other := by
  cases access with
  | get id => exact congrFun (perform_get root id v).1 (rowPath root other)
  | put id bytes =>
    rcases perform_put root id bytes v with ⟨hdone, -⟩ | ⟨-, left, hfiles⟩
    · exact absurd hdone h
    · rw [hfiles]
      exact rowIn_update_draftPath root id other v.files left
  | delete id =>
    rcases perform_delete root id v with ⟨hdone, -⟩ | ⟨-, hfiles⟩
    · exact absurd hdone h
    · rw [hfiles]

/-- **A write that succeeds makes its own row**, and leaves those with other fingerprints. -/
theorem row_of_put (h : ((Access.put id bytes).perform (onVolume root) v).1 = .done) :
    rowIn root ((Access.put id bytes).perform (onVolume root) v).2.files other
      = if fingerprint other = fingerprint id then some bytes else rowIn root v.files other := by
  rcases perform_put root id bytes v with ⟨-, hfiles⟩ | ⟨hfailed, -⟩
  · rw [hfiles, rowIn_update_rowPath, rowIn_update_draftPath]
  · exact absurd h hfailed

/-- **A removal that succeeds takes its own row**, and leaves those with other fingerprints. -/
theorem row_of_delete (h : ((Access.delete id).perform (onVolume root) v).1 = .done) :
    rowIn root ((Access.delete id).perform (onVolume root) v).2.files other
      = if fingerprint other = fingerprint id then none else rowIn root v.files other := by
  rcases perform_delete root id v with ⟨-, hfiles⟩ | ⟨hfailed, -⟩
  · rw [hfiles, rowIn_update_rowPath]
  · exact absurd h hfailed

/-! ## §5. The table in memory -/

variable {root v access other} {rows : Rows}

theorem remember_of_ne_done {said : Report} (h : said ≠ .done) : remember rows (access, said) = rows := by
  unfold remember
  split
  next heq => exact absurd (Prod.mk.inj heq).2 h
  next heq => exact absurd (Prod.mk.inj heq).2 h
  next => rfl

/-- **One call keeps a row and the table in memory together**, if the call is about that row or about one with another
fingerprint. -/
theorem row_perform (hdistinct : fingerprint other = fingerprint access.id → other = access.id)
    (hrow : rowIn root v.files other = rows.get? other) :
    rowIn root (access.perform (onVolume root) v).2.files other
      = (remember rows (access, (access.perform (onVolume root) v).1)).get? other := by
  by_cases hdone : (access.perform (onVolume root) v).1 = .done
  · rw [hdone]
    cases access with
    | get id => exact absurd hdone (perform_get root id v).2.1
    | put id bytes =>
      have hsame : fingerprint other = fingerprint id ↔ other = id := ⟨hdistinct, congrArg fingerprint⟩
      rw [row_of_put root id bytes v other hdone, hrow, if_congr hsame rfl rfl]
      exact (Table.get?_insert rows id other bytes).symm
    | delete id =>
      have hsame : fingerprint other = fingerprint id ↔ other = id := ⟨hdistinct, congrArg fingerprint⟩
      rw [row_of_delete root id v other hdone, hrow, if_congr hsame rfl rfl]
      exact (Table.get?_erase rows id other).symm
  · rw [remember_of_ne_done hdone, row_of_ne_done root v other access hdone]
    exact hrow

/-- **A run of calls keeps a row and the table in memory together**: whatever a call of the run finds is in the table
that those before it have left. -/
theorem found_history {accesses : List Access} (ids : String → Prop)
    (hids : ∀ a ∈ accesses, ids a.id)
    (hdistinct : ∀ id other, ids id → ids other → fingerprint id = fingerprint other → id = other)
    (hrows : ∀ id, ids id → rowIn root v.files id = rows.get? id)
    {before after : List (Access × Report)} {id : String} {row : Option Bytes}
    (h : (history (onVolume root) v accesses).1 = before ++ (.get id, .found row) :: after) :
    row = (before.foldl remember rows).get? id := by
  induction accesses generalizing v rows before with
  | nil =>
    unfold history at h
    exact absurd h.symm (by simp)
  | cons access rest ih =>
    have hid : ids access.id := hids access List.mem_cons_self
    unfold history at h
    dsimp only at h
    cases before with
    | nil =>
      -- the call itself finds the row
      obtain ⟨hcall, -⟩ := List.cons.inj h
      obtain ⟨rfl, hfound⟩ := Prod.mk.inj hcall
      rw [(perform_get root id v).2.2 row hfound]
      exact hrows id hid
    | cons first before =>
      obtain ⟨rfl, hlater⟩ := List.cons.inj h
      rw [List.foldl_cons]
      refine ih (fun a ha => hids a (List.mem_cons_of_mem _ ha)) (fun other hother => ?_) hlater
      exact row_perform (fun hsame => hdistinct other access.id hother hid hsame) (hrows other hother)

/-! ## §6. Without mishaps -/

/-- What a call on files without mishaps reports. -/
def Access.answer (root : String) (files : Contents) : Access → Report
  | .get id => .found (rowIn root files id)
  | .put _ _ => .done
  | .delete _ => .done

/-- **Without mishaps every call succeeds.** -/
theorem perform_untroubled (root : String) (files : Contents) (access : Access) :
    (access.perform (onVolume root) (Volume.mk files [])).1 = access.answer root files := by
  cases access with
  | get id =>
    unfold Access.perform onVolume directory Access.answer rowIn
    dsimp only
    rw [exec_bind, read_untroubled]
    unfold readFile
    cases files (rowPath root id) <;> rfl
  | put id bytes =>
    unfold Access.perform onVolume directory Access.answer
    dsimp only
    rw [exec_bind, createAll_untroubled]
    dsimp only
    rw [exec_bind, write_untroubled]
    dsimp only
    rw [exec_bind, rename_untroubled]
    unfold moveFile
    rw [Function.update_self]
    rfl
  | delete id =>
    unfold Access.perform onVolume directory Access.answer
    dsimp only
    rw [exec_bind, remove_untroubled]
    unfold dropFile
    cases files (rowPath root id) <;> rfl

/-! ## §7. The directory does what the table does -/

/--
**A directory does what the table in memory does.** Whatever befalls the steps of a run of calls about ids with distinct
fingerprints, be they refused, stopped by a crash or, if they write, done in part, each reading that succeeds finds what
the table finds after the writes and the removals before it that succeeded. In any call, on any volume:
a call that is refused or cut short leaves the rows of all ids as they were; a write that succeeds makes its own row and
leaves those with other fingerprints; what is left where documents are first written is seen by no reading; and without
mishaps every call succeeds.
-/
theorem directory_refines_memory (root : String) (accesses : List Access) (v : Volume) (rows : Rows)
    (hdistinct : ∀ a ∈ accesses, ∀ b ∈ accesses, fingerprint a.id = fingerprint b.id → a.id = b.id)
    (hrows : ∀ a ∈ accesses, rowIn root v.files a.id = rows.get? a.id) :
    (∀ (before after : List (Access × Report)) (id : String) (row : Option Bytes),
        (history (onVolume root) v accesses).1 = before ++ (.get id, .found row) :: after →
        ((memory.get id).run (before.foldl remember rows)).1 = .ok row)
      ∧ (∀ (u : Volume) (access : Access) (other : String), (access.perform (onVolume root) u).1 ≠ .done →
        rowIn root (access.perform (onVolume root) u).2.files other = rowIn root u.files other)
      ∧ (∀ (u : Volume) (id : String) (bytes : Bytes), ((Access.put id bytes).perform (onVolume root) u).1 = .done →
        rowIn root ((Access.put id bytes).perform (onVolume root) u).2.files id = some bytes
          ∧ ∀ other, fingerprint other ≠ fingerprint id →
            rowIn root ((Access.put id bytes).perform (onVolume root) u).2.files other = rowIn root u.files other)
      ∧ (∀ (files : Contents) (fates : List Fate) (id other : String) (left : Option Bytes),
        ((Access.get other).perform (onVolume root) (Volume.mk (Function.update files (draftPath root id) left) fates)).1
          = ((Access.get other).perform (onVolume root) (Volume.mk files fates)).1)
      ∧ ∀ (files : Contents) (access : Access),
        (access.perform (onVolume root) (Volume.mk files [])).1 = access.answer root files := by
  refine ⟨fun before after id row h => ?_, fun u access other h => row_of_ne_done root u other access h,
    fun u id bytes h => ⟨?_, fun other hother => ?_⟩, fun files fates id other left => ?_, perform_untroubled root⟩
  · have hfound : row = (before.foldl remember rows).get? id := by
      refine found_history (fun other => ∃ a ∈ accesses, a.id = other) (fun a ha => ⟨a, ha, rfl⟩) ?_ ?_ h
      · rintro _ _ ⟨a, ha, rfl⟩ ⟨b, hb, rfl⟩ hsame
        exact hdistinct a ha b hb hsame
      · rintro _ ⟨a, ha, rfl⟩
        exact hrows a ha
    rw [hfound]
    rfl
  · rw [row_of_put root id bytes u id h, if_pos rfl]
  · rw [row_of_put root id bytes u other h, if_neg hother]
  · exact report_get_of_row (rowIn_update_draftPath root id other files left) fates

/-- Of two documents the first is replaced by a write that breaks off, the second by one that is not renamed. -/
theorem directory_refines_memory_torn :
    let calls : List Access :=
      [.put "a" [1], .put "b" [2], .put "a" [3], .get "a", .put "b" [4], .get "b", .delete "a", .get "a", .get "b"]
    let fates : List Fate :=
      -- three steps for each write that succeeds; the third write is stopped, the fourth is not renamed
      [.done, .done, .done, .done, .done, .done, .done, .stops (some [9]), .done, .done, .done,
        .fails .isADirectory none]
    let told := (history (onVolume "rows") ⟨fun _ => none, fates⟩ calls).1
    told.map Prod.snd
        = [.done, .done, .cutShort, .found (some [1]),
          .failed (.file .rename (draftPath "rows" "b") .isADirectory), .found (some [2]), .done, .found none,
          .found (some [2])]
      ∧ ((memory.get "b").run ((told.take 8).foldl remember Table.empty)).1 = .ok (some [2]) := by
  intro calls fates told
  have htold : told.map Prod.snd
      = [.done, .done, .cutShort, .found (some [1]),
        .failed (.file .rename (draftPath "rows" "b") .isADirectory), .found (some [2]), .done, .found none,
        .found (some [2])] := by decide +kernel
  refine ⟨htold, ?_⟩
  refine (directory_refines_memory "rows" calls ⟨fun _ => none, fates⟩ Table.empty ?_ ?_).1 (told.take 8) [] "b"
    (some [2]) ?_
  · decide +kernel
  · decide +kernel
  · decide +kernel

end RowStore
end HomeWidget
