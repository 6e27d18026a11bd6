import GradlePublishing.Table

/-!
What the console shows while a command runs: a table of results for each command, the log lines, and
an error. The tables and the panel of log lines are kept beside what they are made from, and laid out
with the rest as panels, rules and tables. Drawing the layout is left to the terminal.
-/

namespace GradlePublishing

/-- The value of a table row, which may still be worked on. -/
inductive Cell
  | processing
  | text (value : Text)
  deriving DecidableEq, Repr

def Cell.fail : Cell → Cell
  | processing => text "[red]Failed[/red]"
  | text value => text value

abbrev Rows := List (Text × Cell)

def makeTable (content : Rows) : Rows := content.foldl (fun table row => table ++ [row]) []

/-- Results by name, and the table that was made from them last. -/
structure Listing where
  content : Rows
  table : Rows
  deriving DecidableEq, Repr

namespace Listing

def ofContent (content : Rows) : Listing := ⟨content, makeTable content⟩

def update (listing : Listing) (name value : Text) : Listing :=
  ofContent (setEntry name (.text value) listing.content)

def fail (listing : Listing) : Listing :=
  ofContent (listing.content.map fun (name, cell) => (name, cell.fail))

end Listing

/-- How grave a log line is. Any number is a level, not only those with a name. -/
structure Level where
  number : Int
  deriving DecidableEq, Repr

namespace Level

def debug : Level := ⟨10⟩
def info : Level := ⟨20⟩
def warning : Level := ⟨30⟩
def error : Level := ⟨40⟩
def critical : Level := ⟨50⟩

instance : LE Level := ⟨fun level other => level.number ≤ other.number⟩

instance (level other : Level) : Decidable (level ≤ other) :=
  inferInstanceAs (Decidable (level.number ≤ other.number))

def mark (level : Level) : Text :=
  if error ≤ level then "[red][ERROR][/red]"
  else if warning ≤ level then "[yellow][WARNING][/yellow]"
  else if info ≤ level then "[blue][INFO][/blue]"
  else "[dim][DEBUG][/dim]"

end Level

structure Panel where
  title : Text
  text : Text
  border : Text
  deriving DecidableEq, Repr

inductive Piece
  | panel (panel : Panel)
  | rule (title : Text)
  | text (text : Text)
  | table (rows : Rows)
  deriving DecidableEq, Repr

def joinLines (lines : List Text) : Text := Text.joinWith ['\n'] lines

structure Console where
  verbose : Bool
  command : Text := []
  logs : List Text := []
  errorLogs : List Text := []
  deployment : Listing := .ofContent
    [("Working Directory:", .processing), ("Project Version:", .processing),
      ("Snapshot:", .processing), ("Repository Key:", .processing)]
  coordinates : Listing := .ofContent
    [("Group:", .processing), ("Artifact:", .processing), ("Version:", .processing),
      ("Package URL:", .processing)]
  publishing : Listing := .ofContent
    [("Publish Command:", .processing), ("Build File:", .text "Not Specified")]
  packagedCopy : Cell := .processing
  verbosePanel : Panel := ⟨"Verbose Mode", joinLines [], "blue"⟩
  errorMessage : Text := []
  deriving DecidableEq, Repr

namespace Console

def setCommand (console : Console) (command : Text) : Console :=
  { console with command := command }

def log (console : Console) (time : Text) (level : Level) (message : Text) : Console :=
  let line := level.mark ++ ' ' :: time ++ ' ' :: message
  let logs := console.logs ++ [line]
  { console with
    logs := logs
    errorLogs := if .error ≤ level then console.errorLogs ++ [line] else console.errorLogs
    verbosePanel := { console.verbosePanel with text := joinLines logs } }

def setError (console : Console) (message : Text) : Console :=
  { console with errorMessage := message }

def setDeployRow (console : Console) (name value : Text) : Console :=
  { console with deployment := console.deployment.update name value }

def setCoordinateRow (console : Console) (name value : Text) : Console :=
  { console with coordinates := console.coordinates.update name value }

def setPublishRow (console : Console) (name value : Text) : Console :=
  { console with publishing := console.publishing.update name value }

def setPackagedCopy (console : Console) (value : Text) : Console :=
  { console with packagedCopy := .text value }

def markFailed (console : Console) : Console :=
  { console with
    deployment := console.deployment.fail
    coordinates := console.coordinates.fail
    publishing := console.publishing.fail
    packagedCopy := console.packagedCopy.fail }

/-- The results of the command. The table for a copy is made on the spot. -/
def results (console : Console) : List Piece :=
  if console.command = "deploy-repo" then
    [.rule " DEPLOY REPOSITORY", .text [], .table console.deployment.table]
  else if console.command = "coordinates" then
    [.rule " COORDINATES", .text [], .table console.coordinates.table]
  else if console.command = "is-publish" then [.table console.publishing.table]
  else if console.command = "dump-defaults" then
    [.table [("Dump Defaults", console.packagedCopy)]]
  else []

def layout (console : Console) : List Piece :=
  (if console.errorLogs.isEmpty then []
    else [.panel ⟨"Error Logs", joinLines console.errorLogs, "red"⟩]) ++
  console.results ++
  (if console.verbose then [.text [], .panel console.verbosePanel] else []) ++
  (if console.errorMessage.isEmpty then []
    else [.text [], .panel ⟨"Error", console.errorMessage, "red"⟩])

end Console

end GradlePublishing
