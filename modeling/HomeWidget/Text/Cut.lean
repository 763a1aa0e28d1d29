/-!
# Cutting texts

A text is cut at the first place where a mark stands (`cut?`), or relieved of a mark at one of its ends
(`stripStart?`, `stripEnd?`). These are the only ways in which links, queries and gradients are taken apart. Colours are
taken apart by offsets, which count bytes (`slice?`): a slice that would divide a character is none.
-/
namespace HomeWidget.Text

/-- What follows `mark` in a text that starts with it. -/
def stripStart? (mark text : List Char) : Option (List Char) := mark.isPrefixOf? text

/-- What precedes `mark` in a text that ends with it. -/
def stripEnd? (mark text : List Char) : Option (List Char) :=
  (stripStart? mark.reverse text.reverse).map List.reverse

/-- The text before and the text after the first occurrence of `mark`. -/
def cut? (mark : List Char) : List Char → Option (List Char × List Char)
  | [] => if mark.isEmpty then some ([], []) else none
  | c :: rest =>
    match stripStart? mark (c :: rest) with
    | some after => some ([], after)
    | none => (cut? mark rest).map fun (before, after) => (c :: before, after)

/-- The text before and after the first `mark`; all of it and nothing when the mark does not occur. -/
def cutOrAll (mark text : List Char) : List Char × List Char := (cut? mark text).getD (text, [])

/-- Without any repetition of `c` at the end. -/
def dropEnd (c : Char) (text : List Char) : List Char := (text.reverse.dropWhile (· == c)).reverse

/-- How many bytes a text has. -/
def byteLength (text : List Char) : Nat := text.foldr (fun c bytes => c.utf8Size + bytes) 0

/-- The first `n` bytes of a text and the rest; nothing if the text is shorter, or no character ends there. -/
def splitBytes? : Nat → List Char → Option (List Char × List Char)
  | 0, text => some ([], text)
  | _, [] => none
  | n, c :: rest =>
    if c.utf8Size ≤ n then (splitBytes? (n - c.utf8Size) rest).map fun (before, after) => (c :: before, after)
    else none

/-- The `count` bytes of a text that follow its first `start` bytes. -/
def slice? (start count : Nat) (text : List Char) : Option (List Char) := do
  let (_, rest) ← splitBytes? start text
  let (piece, _) ← splitBytes? count rest
  pure piece

end HomeWidget.Text
