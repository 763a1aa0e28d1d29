import HomeWidget.Files.Basic
import Mathlib.Logic.Function.Basic

/-!
# Files under mishaps

Files by path, on which every step may fail and every step may be the last one before everything stops. What befalls the
steps is laid down as a list, so that a statement about all lists is one about all mishaps at all steps.

A step that fails or is stopped is not done. Only a write may be done in part: it leaves anything in the file that it
writes, or no such file. Renaming and removing are done as a whole or not at all. A stop after a step is a stop before
the next one, whoever takes it.

Main results: `exec_bind`, `exec_read`, `exec_write`, `exec_rename`, `exec_remove`, `files_createAll`.
-/
namespace HomeWidget

/-! ## §1. Mishaps -/

/-- What befalls a step on the files. -/
inductive Fate where
  | done
  /-- The step is refused; if it was a write, this is left of the file. -/
  | fails (fault : Fault) (left : Option Bytes)
  /-- Everything stops; if the step was a write, this is left of the file. -/
  | stops (left : Option Bytes)
  deriving Repr

/-- Reading and removing say that there is no file only if there is none, which is for the files to tell. -/
def Fate.honest : Fate → Fate
  | .fails .notFound _ => .done
  | fate => fate

/-- The end of everything that was under way. -/
structure Crash where
  deriving Repr

/-- Files by path. -/
abbrev Contents := String → Option Bytes

/-- Files, and what befalls the next steps on them in turn; steps for which nothing is laid down are done. -/
structure Volume where
  files : Contents
  fates : List Fate

/-- What is done on a volume, as far as no crash stops it. -/
abbrev VolumeM := ExceptT Crash (StateM Volume)

namespace Volume

/-! ## §2. Steps -/

variable {α β : Type}

/-- A step with its fate: what it does if it is done, and what is left if it is not. -/
def step (attempt : Contents → Except Fault α × Contents) (ruin : Option Bytes → Contents → Contents) :
    Fate → Contents → Except Crash (Except Fault α) × Contents
  | .done, files => (.ok (attempt files).1, (attempt files).2)
  | .fails fault left, files => (.ok (.error fault), ruin left files)
  | .stops left, files => (.error ⟨⟩, ruin left files)

/-- Takes a step, with the next fate. -/
def take (act : Fate → Contents → Except Crash β × Contents) : VolumeM β :=
  ExceptT.mk fun v =>
    let (answer, files) := act (v.fates.head?.getD .done) v.files
    (answer, ⟨files, v.fates.tail⟩)

/-- What is left of the files by a step that writes none. -/
def unharmed (_ : Option Bytes) (files : Contents) : Contents := files

/-- The contents of a file. -/
def readFile (path : String) (files : Contents) : Except Fault Bytes × Contents :=
  match files path with
  | some bytes => (.ok bytes, files)
  | none => (.error .notFound, files)

/-- Gives a file another name. -/
def moveFile (path target : String) (files : Contents) : Except Fault Unit × Contents :=
  match files path with
  | some bytes => (.ok (), Function.update (Function.update files path none) target (some bytes))
  | none => (.error .notFound, files)

/-- Takes a file away. -/
def dropFile (path : String) (files : Contents) : Except Fault Unit × Contents :=
  match files path with
  | some _ => (.ok (), Function.update files path none)
  | none => (.error .notFound, files)

/-- The file system of a volume. Directories are of no account to the files, and any answer about them may be given. -/
def system : FileSystem VolumeM where
  read path := take fun fate => step (readFile path) unharmed fate.honest
  write path bytes :=
    take (step (fun files => (.ok (), Function.update files path (some bytes))) fun left files =>
      Function.update files path left)
  makeDirectory _ := take (step (fun files => (.ok (), files)) unharmed)
  isDirectory _ := do
    let answer ← take (step (fun files => (.ok (), files)) unharmed)
    pure answer.isOk
  rename path target := take (step (moveFile path target) unharmed)
  remove path := take fun fate => step (dropFile path) unharmed fate.honest

/-- **A step is done, or it is not**: then it is refused or stopped, and something is left. -/
theorem step_cases (attempt : Contents → Except Fault α × Contents) (ruin : Option Bytes → Contents → Contents)
    (fate : Fate) (files : Contents) :
    step attempt ruin fate files = (.ok (attempt files).1, (attempt files).2)
      ∨ (∃ fault left, fate = .fails fault left ∧ step attempt ruin fate files = (.ok (.error fault), ruin left files))
      ∨ ∃ left, step attempt ruin fate files = (.error ⟨⟩, ruin left files) := by
  cases fate with
  | done => exact Or.inl rfl
  | fails fault left => exact Or.inr (Or.inl ⟨fault, left, rfl, rfl⟩)
  | stops left => exact Or.inr (Or.inr ⟨left, rfl⟩)

/-- An honest refusal is not for want of the file. -/
theorem ne_notFound_of_honest {fate : Fate} {fault : Fault} {left : Option Bytes}
    (h : fate.honest = .fails fault left) : fault ≠ .notFound := by
  rintro rfl
  unfold Fate.honest at h
  split at h
  next => cases h
  next hother => exact hother left h

/-! ## §3. What is done on a volume -/

/-- What is done on a volume comes to an end, or to a crash, and leaves a volume. -/
def exec (x : VolumeM α) (v : Volume) : Except Crash α × Volume := (ExceptT.run x).run v

/-- What comes second is done only if there was no crash. -/
theorem exec_bind (x : VolumeM α) (f : α → VolumeM β) (v : Volume) :
    exec (x >>= f) v
      = match exec x v with
        | (.ok a, w) => exec (f a) w
        | (.error crash, w) => (.error crash, w) := by
  show (ExceptT.run x >>= ExceptT.bindCont fun a => f a).run v = _
  rw [StateT.run_bind]
  unfold exec
  obtain ⟨answer, w⟩ := (ExceptT.run x).run v
  cases answer <;> rfl

theorem exec_take (act : Fate → Contents → Except Crash β × Contents) (v : Volume) :
    exec (take act) v
      = ((act (v.fates.head?.getD .done) v.files).1,
          ⟨(act (v.fates.head?.getD .done) v.files).2, v.fates.tail⟩) := rfl

/-! ## §4. Single steps -/

/-- **Reading** finds the contents, or misses the file if there is none, or fails for another reason. -/
theorem exec_read (path : String) (v : Volume) :
    (exec (system.read path) v).2.files = v.files
      ∧ ((exec (system.read path) v).1 = .ok (readFile path v.files).1
        ∨ (∃ fault, fault ≠ .notFound ∧ (exec (system.read path) v).1 = .ok (.error fault))
        ∨ (exec (system.read path) v).1 = .error ⟨⟩) := by
  have hfiles : (readFile path v.files).2 = v.files := by
    unfold readFile
    split <;> rfl
  rw [show system.read path = take fun fate => step (readFile path) unharmed fate.honest from rfl, exec_take]
  rcases step_cases (readFile path) unharmed (v.fates.head?.getD .done).honest v.files with
    h | ⟨fault, left, hfate, h⟩ | ⟨left, h⟩
  · rw [h]
    exact ⟨hfiles, Or.inl rfl⟩
  · rw [h]
    exact ⟨rfl, Or.inr (Or.inl ⟨fault, ne_notFound_of_honest hfate, rfl⟩)⟩
  · rw [h]
    exact ⟨rfl, Or.inr (Or.inr rfl)⟩

/-- What reading says of a file is told by the file. -/
theorem exec_read_congr {path : String} {files others : Contents} (h : others path = files path) (fates : List Fate) :
    (exec (system.read path) ⟨others, fates⟩).1 = (exec (system.read path) ⟨files, fates⟩).1 := by
  have hdone : (readFile path others).1 = (readFile path files).1 := by
    unfold readFile
    rw [h]
    cases files path <;> rfl
  rw [show system.read path = take fun fate => step (readFile path) unharmed fate.honest from rfl, exec_take, exec_take]
  dsimp only
  generalize (fates.head?.getD .done).honest = fate
  cases fate with
  | done => exact congrArg Except.ok hdone
  | fails fault left => rfl
  | stops left => rfl

/-- **Writing** puts the contents into the file, or leaves anything there. -/
theorem exec_write (path : String) (bytes : Bytes) (v : Volume) :
    ((exec (system.write path bytes) v).1 = .ok (.ok ())
        ∧ (exec (system.write path bytes) v).2.files = Function.update v.files path (some bytes))
      ∨ (exec (system.write path bytes) v).1 ≠ .ok (.ok ())
        ∧ ∃ left, (exec (system.write path bytes) v).2.files = Function.update v.files path left := by
  rw [show system.write path bytes = take (step (fun files => (.ok (), Function.update files path (some bytes)))
    fun left files => Function.update files path left) from rfl, exec_take]
  rcases step_cases (fun files => (.ok (), Function.update files path (some bytes)))
    (fun left files => Function.update files path left) (v.fates.head?.getD .done) v.files with
    h | ⟨fault, left, -, h⟩ | ⟨left, h⟩
  · rw [h]
    exact Or.inl ⟨rfl, rfl⟩
  · rw [h]
    exact Or.inr ⟨nofun, left, rfl⟩
  · rw [h]
    exact Or.inr ⟨nofun, left, rfl⟩

/-- **Renaming** is done as a whole or not at all. -/
theorem exec_rename (path target : String) (v : Volume) :
    ((exec (system.rename path target) v).1 = .ok (.ok ())
        ∧ ∃ bytes, v.files path = some bytes ∧ (exec (system.rename path target) v).2.files
          = Function.update (Function.update v.files path none) target (some bytes))
      ∨ (exec (system.rename path target) v).1 ≠ .ok (.ok ())
        ∧ (exec (system.rename path target) v).2.files = v.files := by
  rw [show system.rename path target = take (step (moveFile path target) unharmed) from rfl, exec_take]
  rcases step_cases (moveFile path target) unharmed (v.fates.head?.getD .done) v.files with
    h | ⟨fault, left, -, h⟩ | ⟨left, h⟩
  · rw [h]
    unfold moveFile
    cases hfile : v.files path with
    | some bytes => exact Or.inl ⟨rfl, bytes, rfl, rfl⟩
    | none => exact Or.inr ⟨nofun, rfl⟩
  · rw [h]
    exact Or.inr ⟨nofun, rfl⟩
  · rw [h]
    exact Or.inr ⟨nofun, rfl⟩

/-- **Removing** is done as a whole or not at all, and misses a file only if there is none. -/
theorem exec_remove (path : String) (v : Volume) :
    ((exec (system.remove path) v).1 = .ok (.ok ())
        ∧ (exec (system.remove path) v).2.files = Function.update v.files path none)
      ∨ ((exec (system.remove path) v).1 = .ok (.error .notFound) ∧ v.files path = none
        ∧ (exec (system.remove path) v).2.files = v.files)
      ∨ ((∃ fault, fault ≠ .notFound ∧ (exec (system.remove path) v).1 = .ok (.error fault))
          ∨ (exec (system.remove path) v).1 = .error ⟨⟩)
        ∧ (exec (system.remove path) v).2.files = v.files := by
  rw [show system.remove path = take fun fate => step (dropFile path) unharmed fate.honest from rfl, exec_take]
  rcases step_cases (dropFile path) unharmed (v.fates.head?.getD .done).honest v.files with
    h | ⟨fault, left, hfate, h⟩ | ⟨left, h⟩
  · rw [h]
    unfold dropFile
    cases hfile : v.files path with
    | some bytes => exact Or.inl ⟨rfl, rfl⟩
    | none => exact Or.inr (Or.inl ⟨rfl, rfl, rfl⟩)
  · rw [h]
    exact Or.inr (Or.inr ⟨Or.inl ⟨fault, ne_notFound_of_honest hfate, rfl⟩, rfl⟩)
  · rw [h]
    exact Or.inr (Or.inr ⟨Or.inr rfl, rfl⟩)

/-! ## §5. Directories -/

/-- The files are as they were, whatever else happens. -/
def Harmless (x : VolumeM α) : Prop := ∀ v, (exec x v).2.files = v.files

theorem harmless_pure (a : α) : Harmless (pure a) := fun _ => rfl

/-- What is harmless in two steps is harmless. -/
theorem Harmless.bind {x : VolumeM α} {f : α → VolumeM β} (hx : Harmless x) (hf : ∀ a, Harmless (f a)) :
    Harmless (x >>= f) := by
  intro v
  have hfirst := hx v
  rw [exec_bind]
  generalize exec x v = ended at hfirst ⊢
  obtain ⟨answer, w⟩ := ended
  cases answer with
  | error crash => exact hfirst
  | ok a => exact (hf a w).trans hfirst

theorem harmless_step (attempt : Except Fault α) :
    Harmless (take (step (fun files => (attempt, files)) unharmed)) := by
  intro v
  rw [exec_take]
  rcases step_cases (fun files => (attempt, files)) unharmed (v.fates.head?.getD .done) v.files with
    h | ⟨fault, left, -, h⟩ | ⟨left, h⟩ <;> rw [h] <;> rfl

theorem harmless_settle (path : String) (result : Except Fault Unit) : Harmless (system.settle path result) := by
  cases result with
  | ok _ => exact harmless_pure _
  | error fault => exact ((harmless_step _).bind fun _ => harmless_pure _).bind fun _ => harmless_pure _

/-- Directories that are created, or not, leave every file alone. -/
theorem harmless_createChain (paths : List String) : Harmless (system.createChain paths) := by
  induction paths with
  | nil => exact harmless_pure _
  | cons path outer ih =>
    unfold FileSystem.createChain
    split
    · exact harmless_pure _
    · refine (harmless_step _).bind fun answer => ?_
      split
      · refine ih.bind fun made => ?_
        cases made with
        | ok _ => exact (harmless_step _).bind fun again => harmless_settle path again
        | error fault => exact harmless_pure _
      · exact harmless_settle path _

/-- **Making directories leaves the files as they are.** -/
theorem files_createAll (root : String) (v : Volume) : (exec (system.createAll root) v).2.files = v.files :=
  harmless_createChain _ v

/-! ## §6. Without mishaps -/

section Untroubled

variable (files : Contents) (path target root : String)

theorem read_untroubled :
    exec (system.read path) ⟨files, []⟩ = (.ok (readFile path files).1, ⟨(readFile path files).2, []⟩) := rfl

theorem write_untroubled (bytes : Bytes) :
    exec (system.write path bytes) ⟨files, []⟩ = (.ok (.ok ()), ⟨Function.update files path (some bytes), []⟩) := rfl

theorem rename_untroubled :
    exec (system.rename path target) ⟨files, []⟩
      = (.ok (moveFile path target files).1, ⟨(moveFile path target files).2, []⟩) := rfl

theorem remove_untroubled :
    exec (system.remove path) ⟨files, []⟩ = (.ok (dropFile path files).1, ⟨(dropFile path files).2, []⟩) := rfl

theorem createChain_untroubled (paths : List String) :
    exec (system.createChain paths) ⟨files, []⟩ = (.ok (.ok ()), ⟨files, []⟩) := by
  cases paths with
  | nil => rfl
  | cons path outer =>
    unfold FileSystem.createChain
    split
    · rfl
    · rw [exec_bind]
      rfl

/-- **Without mishaps directories are made.** -/
theorem createAll_untroubled : exec (system.createAll root) ⟨files, []⟩ = (.ok (.ok ()), ⟨files, []⟩) :=
  createChain_untroubled files _

end Untroubled

end Volume
end HomeWidget
