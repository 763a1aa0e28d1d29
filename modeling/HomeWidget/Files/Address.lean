import HomeWidget.Files.Basic
import HomeWidget.Text.Cut
import HomeWidget.Text.Percent

/-!
# Files as addresses

A file on this machine has an address, `file://` and its absolute path with every byte escaped that is not plain. The
host of such an address may also be written out, as `localhost`.
-/
namespace HomeWidget.FilePath

open Text

/-- What every file address starts with. -/
def scheme : List Char := "file://".toList

/-- The address of an absolute path. -/
def toAddress (absolute : String) : String := String.ofList (scheme ++ Percent.encodePath absolute.toList)

/-- The address of a path, given the directory that relative paths start from; an empty path has none. -/
def addressOf? (current path : String) : Option String := (absolute? current path).map toAddress

/-- The path of a file address. -/
def ofAddress? (address : String) : Option String := do
  let rest ← stripStart? scheme address.toList
  let path := (stripStart? "localhost".toList rest).getD rest
  if path.head? = some '/' then pure (String.ofList (Percent.decode path)) else none

end HomeWidget.FilePath
