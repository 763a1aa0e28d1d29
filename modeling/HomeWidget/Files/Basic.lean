import HomeWidget.Text.Utf8

/-!
# Files

What the library asks of a file system, in whatever setting it runs: reading and writing whole files, making
directories one level at a time, renaming and removing. Each step may fail with a fault. `FileSystem.createAll`
makes a directory together with those above it.
-/
namespace HomeWidget

/-! ## §1. Faults -/

/-- Why a step on files failed. -/
inductive Fault where
  | notFound
  | alreadyExists
  | notADirectory
  | isADirectory
  | nameTooLong
  /-- A name holds the character that ends names. -/
  | zeroInName
  /-- Any other reason, in words. -/
  | other (text : String)
  deriving DecidableEq, Repr

/-- A fault in the words of the operating system. -/
def Fault.message : Fault → String
  | notFound => "No such file or directory (os error 2)"
  | alreadyExists => "File exists (os error 17)"
  | notADirectory => "Not a directory (os error 20)"
  | isADirectory => "Is a directory (os error 21)"
  | nameTooLong => "File name too long (os error 36)"
  | zeroInName => "file name contained an unexpected NUL byte"
  | other text => text

/-- The steps that can be taken on files, by path. -/
structure FileSystem (m : Type → Type) where
  read : String → m (Except Fault Bytes)
  /-- Replaces the contents of a file, or makes it. -/
  write : String → Bytes → m (Except Fault Unit)
  /-- Makes one directory, in one that exists. -/
  makeDirectory : String → m (Except Fault Unit)
  isDirectory : String → m Bool
  /-- Gives a file another name; a file that has that name is replaced. -/
  rename : String → String → m (Except Fault Unit)
  /-- Removes a file. -/
  remove : String → m (Except Fault Unit)

/-! ## §2. Paths -/

namespace FilePath

/-- The names in a path, without those that lead nowhere. -/
def components (path : String) : List (List Char) :=
  (path.toList.splitOn '/').filter fun c => !c.isEmpty && c != ['.']

/-- Does the path start at the root? -/
def isAbsolute (path : String) : Bool := path.toList.head? == some '/'

/-- Does the path end with a separator? -/
def endsOpen (path : String) : Bool := path.toList.getLast? == some '/'

/-- Does the path end with the name that leads nowhere? -/
def endsIdle (path : String) : Bool :=
  match path.toList.reverse with
  | ['.'] => true
  | '.' :: '/' :: _ => true
  | _ => false

/-- A name within a directory. -/
def join (directory name : String) : String :=
  if directory.isEmpty ∨ endsOpen directory then directory ++ name else directory ++ "/" ++ name

/--
The path seen from the root, given the directory that relative paths start from. Names that lead nowhere and repeated
separators go, except that two separators at the start, and one at the end, stay. An empty path has no absolute form.
-/
def absolute? (current path : String) : Option String :=
  if path.isEmpty then none
  else
    let base :=
      match path.toList with
      | '/' :: '/' :: '/' :: _ => "/"
      | '/' :: '/' :: _ => "//"
      | '/' :: _ => "/"
      | _ => current
    let whole := (components path).foldl (fun p c => join p (String.ofList c)) base
    some (if endsOpen path ∧ ¬ endsOpen whole then whole ++ "/" else whole)

/-- A path in reverse without the separators, and the names that lead nowhere, at its end. -/
def dropOpenEnd : List Char → List Char
  | ['/'] => ['/']
  | '/' :: rest => dropOpenEnd rest
  | '.' :: '/' :: rest => dropOpenEnd ('/' :: rest)
  | path => path

/-- The path of the directory that a path lies in; empty for a lone name, nothing for the root. -/
def parent? (path : String) : Option String :=
  match dropOpenEnd path.toList.reverse with
  | [] => none
  | ['/'] => none
  | reversed => some (String.ofList (dropOpenEnd (reversed.dropWhile (· != '/'))).reverse)

/-- A path, the directory it lies in, and so on, as far as there are any; `bound` limits how many. -/
def ancestors : Nat → String → List String
  | 0, _ => []
  | bound + 1, path => path :: ((parent? path).map (ancestors bound)).getD []

end FilePath

/-! ## §3. Making directories -/

namespace FileSystem

variable {m : Type → Type} [Monad m]

/-- Accepts a fault in making a directory if the directory is there after all. -/
def settle (files : FileSystem m) (path : String) (result : Except Fault Unit) : m (Except Fault Unit) :=
  match result with
  | .ok () => pure (.ok ())
  | .error fault => do pure (if ← files.isDirectory path then .ok () else .error fault)

/-- Makes the first of a list of directories, after the second if it needs to, and so on. -/
def createChain (files : FileSystem m) : List String → m (Except Fault Unit)
  | [] => pure (.ok ())
  | path :: outer =>
    if path.isEmpty then pure (.ok ())
    else do
      match ← files.makeDirectory path with
      | .error .notFound =>
        match ← files.createChain outer with
        | .ok () => files.settle path (← files.makeDirectory path)
        | .error fault => pure (.error fault)
      | result => files.settle path result

/-- Makes a directory and those above it, where they are not there yet. -/
def createAll (files : FileSystem m) (path : String) : m (Except Fault Unit) :=
  files.createChain (FilePath.ancestors (path.length + 1) path)

end FileSystem
end HomeWidget
