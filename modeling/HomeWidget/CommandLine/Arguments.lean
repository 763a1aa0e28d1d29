import HomeWidget.Number.Decimal
import HomeWidget.Surface.Placeholder

/-!
# The command line

Five commands, each with one plain argument and options of its own. An option stands anywhere after its command,
takes its value from the next word or after an equals sign, and may be given once; two hyphens end the options. A
word that starts with a hyphen is no value, except for a distance, which may be negative.
-/
namespace HomeWidget.CommandLine

/-! ## §1. Commands -/

/-- Where a definition comes from. -/
structure SourceArguments where
  input : String
  extraLarge : Bool
  /-- The directory that documents are stored in; without it they are stored in memory. -/
  cacheDirectory : Option String
  /-- Prefer a stored document. -/
  cached : Bool
  user : Option String
  password : Option String
  deriving DecidableEq, Repr

/-- What the program is asked to do. -/
inductive Command where
  /-- List the layouts of a definition. -/
  | layouts (source : SourceArguments)
  /-- Draw a layout, as a picture or as JSON. -/
  | render (source : SourceArguments) (layout out : Option String) (json inApp : Bool)
      (appearance : Surface.Appearance)
  /-- Show the carousel of the layouts, after scrolling to a page and dragging by a distance. -/
  | preview (source : SourceArguments) (select : Option String) (drag : Option Float)
  /-- Summarise a definition. -/
  | fetch (source : SourceArguments)
  /-- Read a link, or make one. -/
  | link (text : String) (user password : Option String)
  /-- Say how the program is used. -/
  | help
  /-- Say which version of the program this is. -/
  | version

/-! ## §2. Words -/

/-- What a command takes. -/
structure Shape where
  flags : List String
  options : List String
  /-- Options whose value may start with a hyphen. -/
  signed : List String

/-- What was given to a command: its plain arguments, flags and options. -/
structure Given where
  plain : List String
  flags : List String
  options : List (String × String)
  deriving Repr

namespace Given

/-- Nothing was given. -/
def none : Given := ⟨[], [], []⟩

/-- One more flag, unless it was given before. -/
def addFlag? (g : Given) (name : String) : Option Given :=
  if g.flags.contains name then .none else some { g with flags := g.flags ++ [name] }

/-- One more option, unless it was given before. -/
def addOption? (g : Given) (name value : String) : Option Given :=
  if (g.options.lookup name).isSome then .none else some { g with options := g.options ++ [(name, value)] }

/-- The value of an option. -/
def option? (g : Given) (name : String) : Option String := g.options.lookup name

/-- Was a flag given? -/
def has (g : Given) (name : String) : Bool := g.flags.contains name

end Given

/-- Does a word start with a hyphen and go on? -/
def isDashed (word : String) : Bool := word.toList.head? == some '-' && word != "-"

/-- A long word without its hyphens: its name, and its value if it has one after an equals sign. -/
def long? (word : String) : Option (String × Option String) := do
  let rest ← Text.stripStart? ['-', '-'] word.toList
  match Text.cut? ['='] rest with
  | some (name, value) => pure (String.ofList name, some (String.ofList value))
  | none => pure (String.ofList rest, none)

/-- The flag that asks for more to be logged. -/
def verbose : String := "verbose"

/-- One word of a command, and the words that it leaves; an option may take the next one. -/
def word? (shape : Shape) (g : Given) (word : String) (rest : List String) : Option (Given × List String) :=
  match long? word with
  | some (name, value) =>
    if shape.flags.contains name then if value.isSome then none else (g.addFlag? name).map (·, rest)
    else if shape.options.contains name then
      match value, rest with
      | some value, _ => (g.addOption? name value).map (·, rest)
      | none, next :: rest =>
        if isDashed next ∧ !shape.signed.contains name then none else (g.addOption? name next).map (·, rest)
      | none, [] => none
    else none
  | none =>
    if word = "-v" then (g.addFlag? verbose).map (·, rest)
    else if isDashed word then none
    else some ({ g with plain := g.plain ++ [word] }, rest)

/-- The words of a command; `bound` is at least their number. -/
def words? (shape : Shape) : Nat → Given → List String → Option Given
  | _, g, [] => some g
  | 0, _, _ => none
  | bound + 1, g, word :: rest =>
    if word = "--" then some { g with plain := g.plain ++ rest }
    else do
      let (g, rest) ← word? shape g word rest
      words? shape bound g rest

/-! ## §3. Meaning -/

/-- What every command that needs a definition takes. -/
def sourceShape (flags options signed : List String) : Shape :=
  { flags := [verbose, "extra-large", "cached"] ++ flags,
    options := ["cache-dir", "user", "password"] ++ options, signed }

/-- A path, which may not be empty. -/
def path? (g : Given) (name : String) : Option (Option String) :=
  match g.option? name with
  | some "" => none
  | value => some value

/-- The one plain argument. -/
def only? (g : Given) : Option String :=
  match g.plain with
  | [word] => some word
  | _ => none

/-- Where a definition comes from. -/
def source? (g : Given) : Option SourceArguments := do
  let input ← only? g
  let cacheDirectory ← path? g "cache-dir"
  pure
    { input, extraLarge := g.has "extra-large", cacheDirectory, cached := g.has "cached",
      user := g.option? "user", password := g.option? "password" }

/-- A colour scheme; light where none is given. -/
def appearance? (g : Given) : Option Surface.Appearance :=
  match g.option? "scheme" with
  | none => some .light
  | some "light" => some .light
  | some "dark" => some .dark
  | some _ => none

/-- A distance, if one is given. -/
def distance? (g : Given) : Option (Option Float) :=
  match g.option? "drag" with
  | none => some none
  | some text => (Float.ofPlain? text.toList).map some

/-- The command of a name with the given words. -/
def command? (name : String) (rest : List String) : Option Command :=
  let given (shape : Shape) : Option Given := words? shape rest.length .none rest
  match name with
  | "layouts" => do pure (.layouts (← source? (← given (sourceShape [] [] []))))
  | "render" => do
    let g ← given (sourceShape ["json", "in-app"] ["layout", "out", "scheme"] [])
    pure (.render (← source? g) (g.option? "layout") (← path? g "out") (g.has "json") (g.has "in-app")
      (← appearance? g))
  | "preview" => do
    let g ← given (sourceShape [] ["select", "drag"] ["drag"])
    pure (.preview (← source? g) (g.option? "select") (← distance? g))
  | "fetch" => do pure (.fetch (← source? (← given (sourceShape [] [] []))))
  | "link" => do
    let g ← given ⟨[verbose], ["user", "password"], []⟩
    pure (.link (← only? g) (g.option? "user") (g.option? "password"))
  | "help" => some .help
  | _ => none

/-- What a word asks about the program itself, before any command. -/
def inquiry? (word : String) : Option Command :=
  if word = "-h" ∨ word = "--help" then some .help
  else if word = "-V" ∨ word = "--version" then some .version
  else none

/-- The words after those that ask for more to be logged; nothing if more than one does. -/
def afterVerbose? : List String → Option (List String)
  | word :: rest =>
    if word = "-v" ∨ word = "--verbose" then
      match rest with
      | next :: _ => if next = "-v" ∨ next = "--verbose" then none else some rest
      | [] => none
    else some (word :: rest)
  | [] => none

/-- The command that the words of a command line spell; nothing if they spell none. -/
def parse? (words : List String) : Option Command := do
  match ← afterVerbose? words with
  | word :: rest => inquiry? word <|> command? word rest
  | [] => none

end HomeWidget.CommandLine
