import HomeWidget.Carousel
import HomeWidget.CommandLine.Arguments
import HomeWidget.Fetch.Resolve
import HomeWidget.Json.Writer
import HomeWidget.Link.Address
import HomeWidget.Number.Fixed
import HomeWidget.Surface.Encode
import HomeWidget.Surface.Layout
import HomeWidget.Surface.Png

/-!
# Running commands

Each command resolves its definition, from the file system or from stored documents, and reports what it found: text
for the two output streams, and an exit code. A command that fails reports one error and no output.
-/
namespace HomeWidget.CommandLine

/-! ## §1. Reports -/

/-- How a run ends. -/
structure Report where
  code : Nat
  stdout : String
  stderr : String
  deriving DecidableEq, Repr

/-- Why a command failed, and what was behind it. -/
structure Trouble where
  text : String
  cause : Option String := none
  deriving DecidableEq, Repr

/-- A failure in words. -/
def Trouble.message (t : Trouble) : String :=
  "Error: " ++ t.text ++ ((t.cause.map fun cause => "\n\nCaused by:\n    " ++ cause).getD "") ++ "\n"

/-- What a command puts out: lines for the two streams. -/
structure Output where
  stdout : List String := []
  stderr : List String := []
  deriving DecidableEq, Repr

/-- Lines as a text. -/
def unlines (lines : List String) : String := String.join (lines.map (· ++ "\n"))

/-- The report of a command that ended so. -/
def Report.of : Except Trouble Output → Report
  | .ok output => ⟨0, unlines output.stdout, unlines output.stderr⟩
  | .error trouble => ⟨1, "", trouble.message⟩

/-- How the program is used. -/
def usage : String := "usage: (layouts | render | preview | fetch) INPUT [options] | link TEXT [options]"

/-- The name of the program and its version. -/
def versionLine : String := "wdgt 0.1.0"

/-! ## §2. Definitions -/

/-- The address of the file that a path names, given the directory that relative paths start from. -/
def fileUrl (current path : String) : Except Trouble String :=
  match FilePath.addressOf? current path with
  | some url => .ok url
  | none => .error ⟨"resolve absolute path for " ++ path, some "cannot make an empty path absolute"⟩

/-- The address of an input: itself, if it can be requested, else the address of the file that it names. -/
def inputUrl (current input : String) : Except Trouble String :=
  let text := Text.trimmed input
  if isRequestable text then .ok text else fileUrl current text

/-- A file system within a larger state. -/
def liftFiles {m : Type → Type} [Monad m] {σ : Type} (files : FileSystem m) : FileSystem (StateT σ m) where
  read path := liftM (files.read path)
  write path bytes := liftM (files.write path bytes)
  makeDirectory path := liftM (files.makeDirectory path)
  isDirectory path := liftM (files.isDirectory path)
  rename path target := liftM (files.rename path target)
  remove path := liftM (files.remove path)

/-- The store in memory within a larger setting. -/
def liftMemory {m : Type → Type} [Monad m] : RowStore (StateT RowStore.Rows m) where
  get id := do return (RowStore.memory.get id (← get)).1
  put id bytes := do modify fun rows => (RowStore.memory.put id bytes rows).2; return .ok ()
  delete id := do modify fun rows => (RowStore.memory.delete id rows).2; return .ok ()

section

variable {m : Type → Type} [Monad m]

/-- The outcome of the request that a command makes. -/
def request (files : FileSystem m) (args : SourceArguments) (url : String) : m Outcome := do
  let pipeline := Pipeline.new { FetchOptions.usual with supportsExtraLarge := args.extraLarge }
  let request : Request := ⟨url, args.user, args.password, args.cached, true⟩
  match args.cacheDirectory with
  | some root => do
    let (outcome, _) ← pipeline.resolve (Transport.files files) (RowStore.directory files root) request
    pure outcome
  | none => do
    let ((outcome, _), _) ← (pipeline.resolve (Transport.files (liftFiles files)) liftMemory request).run .empty
    pure outcome

/-- The widget that a command is about, and where it came from. -/
def resolve (files : FileSystem m) (current : String) (args : SourceArguments) :
    m (Except Trouble (Widget Float × Source)) := do
  match inputUrl current args.input with
  | .error trouble => pure (.error trouble)
  | .ok url =>
    let outcome ← request files args url
    match outcome.result with
    | .ok found => pure (.ok found)
    | .error _ => pure (.error ⟨url ++ ": " ++ outcome.errorText, none⟩)

end

/-! ## §3. Commands -/

/-- A line for each layout in display order, after the name of the widget. -/
def layoutLines (w : Widget Float) : List String :=
  let marks (name : String) : List String :=
    (if w.draft.defaultLayoutName? = some name then ["default"] else []) ++
      if w.draft.thumbnailLayoutName? = some name then ["thumbnail"] else []
  let line (name : String) : Option String :=
    (w.layout? name).map fun layout =>
      "  " ++ name ++ "\t" ++ layout.size.name ++
        if (marks name).isEmpty then "" else "\t(" ++ ", ".intercalate (marks name) ++ ")"
  w.draft.name :: w.draft.displayOrder.filterMap line

/-- The carousel of a widget after scrolling to a page and dragging by a distance. -/
def previewCarousel (w : Widget Float) (select : Option String) (drag : Option Float) : Carousel Float :=
  let start := Carousel.ofWidget w .usual
  let scrolled := (select.map fun name => (start.scrollTo name).1).getD start
  (drag.map fun dx => ((scrolled.dragChanged dx).dragEnded dx).1).getD scrolled

/-- A line for each page; a star marks the current one. -/
def pageLines (c : Carousel Float) : List String :=
  let current := c.currentItem?
  c.pages.zipIdx.map fun (page, i) =>
    let v := c.visual i
    (if current = some i then "*" else " ") ++ " " ++ page.name ++ "\t" ++
      (page.size.map SizeClass.name).getD "?" ++ "\tdistance=" ++ Fixed.write 2 v.distance ++
      "\tscale=" ++ Fixed.write 3 v.scale ++ "\tz=" ++ Fixed.write 2 v.zOrder ++
      "\tx=" ++ Fixed.write 1 v.xOffset

/-- The pages of a widget, and a complaint if the one to scroll to does not exist. -/
def preview (w : Widget Float) (select : Option String) (drag : Option Float) : Output :=
  let missing (name : String) : Bool := !(Carousel.pagesOf w).any (·.name == name)
  { stdout := pageLines (previewCarousel w select drag),
    stderr := ((select.filter missing).map fun name => "no page named '" ++ name ++ "'").toList }

/-- The summary of a widget as JSON. -/
def summary (w : Widget Float) (source : Source) : Json :=
  .object [("id", .string w.id), ("name", .string w.draft.name),
    ("version", (w.draft.version.map fun n => Json.number (.whole n)).getD .null),
    ("source", .string source.name), ("layouts", .ofNat w.draft.layouts.size),
    ("content_url", .stringOrNull w.contentUrl?)]

/-- The link in a text, or the link that offers the widget that the text names. -/
def linkOf (text : String) (user password : Option String) : Except Trouble Link :=
  if Link.isAddress (Text.trimStart text.toList) then
    (Link.ofAddress (Text.trimmed text)).mapError fun e => ⟨e.message, none⟩
  else .ok (.subscribe (Link.widgetId text) user password)

section

variable {m : Type → Type} [Monad m]

/-- Writes a picture to a file, in a directory that is made if it has to be. -/
def writePicture (files : FileSystem m) (picture : Surface.Picture) (out : String) : m (Except Trouble Output) := do
  let directory := (FilePath.parent? out).getD ""
  let made ← if directory.isEmpty then pure (.ok ()) else files.createAll directory
  match made with
  | .error fault => pure (.error ⟨"create output dir '" ++ directory ++ "'", some fault.message⟩)
  | .ok () =>
    match ← files.write out (Surface.Png.encode picture) with
    | .error fault => pure (.error ⟨"write png '" ++ out ++ "'", some fault.message⟩)
    | .ok () => pure (.ok { stderr := ["wrote " ++ out] })

/-- Draws a layout of a widget: as JSON if that is asked for, else into a file. -/
def draw (files : FileSystem m) (w : Widget Float) (layout out : Option String) (json inApp : Bool)
    (appearance : Surface.Appearance) : m (Except Trouble Output) := do
  match layout <|> w.draft.defaultLayoutName? with
  | none => pure (.error ⟨"definition has no layouts", none⟩)
  | some name =>
    let size : SizeClass := ((w.layout? name).map Layout.size).getD .small
    let target : Size Float := size.footprint
    let primitives := Surface.render Reading.float w name target ⟨inApp, appearance⟩
    if json then pure (.ok { stdout := [(Json.array (primitives.map Primitive.toJson)).toPretty] })
    else
      match out with
      | none => pure (.error ⟨"either --out or --json is required", none⟩)
      | some out =>
        let pixels (length : Float) : Nat := Scalar.toNat (Scalar.ceil length)
        match Surface.rasterize primitives (pixels target.width) (pixels target.height) .usual with
        | .error e => pure (.error ⟨e.message, none⟩)
        | .ok picture => writePicture files picture out

/-- Does what a command asks for. -/
def perform (files : FileSystem m) (current : String) (command : Command) : m (Except Trouble Output) := do
  let found (source : SourceArguments) (use : Widget Float → Source → m (Except Trouble Output)) :
      m (Except Trouble Output) := do
    match ← resolve files current source with
    | .ok (w, origin) => use w origin
    | .error trouble => pure (.error trouble)
  match command with
  | .layouts source => found source fun w _ => pure (.ok { stdout := layoutLines w })
  | .render source layout out json inApp appearance =>
    found source fun w _ => draw files w layout out json inApp appearance
  | .preview source select drag => found source fun w _ => pure (.ok (preview w select drag))
  | .fetch source => found source fun w origin => pure (.ok { stdout := [(summary w origin).toPretty] })
  | .link text user password =>
    pure ((linkOf text user password).map fun link => { stdout := [link.toJson.toPretty, link.toAddress] })
  | .help => pure (.ok { stdout := [usage] })
  | .version => pure (.ok { stdout := [versionLine] })

/-- The report of a run with the given words. Words that spell no command end it with code 2. -/
def run (files : FileSystem m) (current : String) (words : List String) : m Report := do
  match parse? words with
  | some command => pure (Report.of (← perform files current command))
  | none => pure ⟨2, "", usage ++ "\n"⟩

end
end HomeWidget.CommandLine
