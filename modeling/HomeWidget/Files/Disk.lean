import HomeWidget.Files.Basic

/-!
# A disk in memory

A file system that is a value: a list of nodes, each at a place, which is the list of names that leads to it from the
root. Steps on it fail as they do on a real one: a place is reached only through directories, a directory cannot be
read, written or removed as a file, and a name has a greatest length.
-/
namespace HomeWidget

/-- The names that lead to a place from the root. -/
abbrev Place := List String

/-- What is at a place. -/
inductive Node where
  | file (bytes : Bytes)
  | directory
  deriving DecidableEq, Repr

/-- The nodes of a disk, and the place that relative paths start from. The root is always a directory. -/
structure Disk where
  current : Place
  nodes : List (Place × Node)
  deriving Repr

namespace Disk

/-! ## §1. Nodes -/

/-- The node at a place. -/
def node? (disk : Disk) (place : Place) : Option Node :=
  -- the root needs no node of its own
  if place.isEmpty then some .directory else disk.nodes.lookup place

/-- The disk with a node at a place. -/
def put (disk : Disk) (place : Place) (node : Node) : Disk :=
  { disk with nodes := (place, node) :: disk.nodes.filter fun (p, _) => p != place }

/-- The disk without the node at a place. -/
def drop (disk : Disk) (place : Place) : Disk :=
  { disk with nodes := disk.nodes.filter fun (p, _) => p != place }

/-- A disk with nothing but the directory that relative paths start from. -/
def empty (current : Place) : Disk :=
  (List.range current.length).foldl (fun disk n => disk.put (current.take (n + 1)) .directory) ⟨current, []⟩

/-! ## §2. Places -/

/-- The greatest length of a name, and of a path, in bytes. -/
def limits : Nat × Nat := (255, 4095)

/-- From a directory to the place of a name in it. -/
def enter (disk : Disk) (place : Place) (name : String) : Except Fault Place :=
  match disk.node? place with
  | none => .error .notFound
  | some (.file _) => .error .notADirectory
  | some .directory =>
    if limits.1 < name.utf8ByteSize then .error .nameTooLong
    -- the name above the root is the root
    else .ok (if name = ".." then place.dropLast else place ++ [name])

/-- The place that a path leads to, whether or not there is a node. -/
def locate (disk : Disk) (path : String) : Except Fault Place :=
  if path.toList.contains '\x00' then .error .zeroInName
  else if path.isEmpty then .error .notFound
  else if limits.2 < path.utf8ByteSize then .error .nameTooLong
  else
    ((FilePath.components path).map String.ofList).foldlM disk.enter
      (if FilePath.isAbsolute path then [] else disk.current)

/-- The names of what lies in a directory, sorted. -/
def names (disk : Disk) (path : String) : List String :=
  match disk.locate path with
  | .error _ => []
  | .ok place =>
    let inside := disk.nodes.filterMap fun (p, _) =>
      if p.dropLast = place ∧ p.length = place.length + 1 then p.getLast? else none
    inside.mergeSort (· ≤ ·)

/-! ## §3. Steps -/

/--
The fault in taking a path for a new file or directory, if its end asks for what is not there: to end with a separator
it would have to be a directory, and to end with the name that leads nowhere it would have to exist.
-/
def missing? (path : String) : Option Fault :=
  if FilePath.endsIdle path then some .notFound
  else if FilePath.endsOpen path then some .isADirectory
  else none

/-- The contents of a file. -/
def read (disk : Disk) (path : String) : Except Fault Bytes := do
  let place ← disk.locate path
  match disk.node? place with
  | none => throw .notFound
  | some .directory => throw .isADirectory
  | some (.file bytes) =>
    if FilePath.endsOpen path ∨ FilePath.endsIdle path then throw .notADirectory else pure bytes

/-- The disk with the contents of a file replaced. -/
def write (disk : Disk) (path : String) (bytes : Bytes) : Except Fault Disk := do
  let place ← disk.locate path
  match disk.node? place, disk.node? place.dropLast with
  | some .directory, _ => throw .isADirectory
  | some (.file _), _ =>
    if FilePath.endsIdle path then throw .notADirectory
    else if FilePath.endsOpen path then throw .isADirectory
    else pure (disk.put place (.file bytes))
  | none, some .directory =>
    match missing? path with
    | some fault => throw fault
    | none => pure (disk.put place (.file bytes))
  | none, _ => throw .notFound

/-- The disk with one more directory. -/
def makeDirectory (disk : Disk) (path : String) : Except Fault Disk := do
  let place ← disk.locate path
  match disk.node? place with
  | some _ => throw .alreadyExists
  | none => if FilePath.endsIdle path then throw .notFound else pure (disk.put place .directory)

/-- Is there a directory? -/
def isDirectory (disk : Disk) (path : String) : Bool :=
  match disk.locate path with
  | .ok place => disk.node? place == some .directory
  | .error _ => false

/-- The disk with a file under another name. -/
def rename (disk : Disk) (path target : String) : Except Fault Disk := do
  let bytes ← disk.read path
  let place ← disk.locate path
  let goal ← disk.locate target
  match disk.node? goal with
  | some .directory => throw .isADirectory
  | _ => pure ((disk.drop place).put goal (.file bytes))

/-- The disk without a file. -/
def remove (disk : Disk) (path : String) : Except Fault Disk := do
  let _ ← disk.read path
  let place ← disk.locate path
  pure (disk.drop place)

/-- A step that changes the disk if it succeeds. -/
def change (step : Disk → Except Fault Disk) : StateM Disk (Except Fault Unit) := fun disk =>
  match step disk with
  | .ok next => (.ok (), next)
  | .error fault => (.error fault, disk)

/-- The file system of a disk in memory. -/
def files : FileSystem (StateM Disk) where
  read path := fun disk => (disk.read path, disk)
  write path bytes := change fun disk => disk.write path bytes
  makeDirectory path := change fun disk => disk.makeDirectory path
  isDirectory path := fun disk => (disk.isDirectory path, disk)
  rename path target := change fun disk => disk.rename path target
  remove path := change fun disk => disk.remove path

end Disk
end HomeWidget
