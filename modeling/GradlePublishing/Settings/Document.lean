import GradlePublishing.Settings.Basic
import GradlePublishing.Text.Quoted
import GradlePublishing.Text.Utf8

/-!
The written form of settings: headings in square brackets, and options with `=` or `:` between
name and value under them. A value goes on over lines that are indented deeper than its first one.
Lines that start with `#` or `;` are comments. A fault can end a reading early: the values it has
come by then stay unfinished until another reading comes to its end.
-/

namespace GradlePublishing.Settings

/-- Why a document cannot be read, or not all of it. Lines are numbered from one and keep their
line break. -/
inductive DocumentFault
  | undecodable (fault : Text.Utf8Fault)
  | optionBeforeHeading (number : Nat) (line : Text)
  | repeatedHeading (number : Nat) (heading : Text)
  | repeatedOption (number : Nat) (heading option : Text)
  | malformedLines (lines : List (Nat × Text))
  deriving DecidableEq, Repr

def lineNumber (number : Nat) : Text :=
  let digits := Text.ofNat number
  List.replicate (2 - digits.length) ' ' ++ digits

def malformedLine (line : Nat × Text) : Text :=
  "\n\t[line " ++ lineNumber line.1 ++ "]: " ++ Text.quoted line.2

def DocumentFault.message (path : Text) : DocumentFault → Text
  | undecodable fault => fault.message
  | optionBeforeHeading number line =>
    "File contains no section headers.\nfile: " ++ Text.quoted path ++ ", line: " ++
      Text.ofNat number ++ "\n" ++ Text.quoted line
  | repeatedHeading number heading =>
    "While reading from " ++ Text.quoted path ++ " [line " ++ lineNumber number ++ "]: section " ++
      Text.quoted heading ++ " already exists"
  | repeatedOption number heading option =>
    "While reading from " ++ Text.quoted path ++ " [line " ++ lineNumber number ++ "]: option " ++
      Text.quoted option ++ " in section " ++ Text.quoted heading ++ " already exists"
  | malformedLines lines =>
    "Source contains parsing errors: " ++ Text.quoted path ++ lines.flatMap malformedLine

/-- An option of a document, with the lines of its value in reverse. -/
structure Entry where
  heading : Text
  option : Text
  lines : List Text
  deriving DecidableEq, Repr

/-- How far a document has been read. Headings, entries and malformed lines are in reverse. -/
structure Reading where
  headings : List Text := []
  heading? : Option Text := none
  /-- Whether lines that are indented deeper belong to the last entry. -/
  inValue : Bool := false
  indent : Nat := 0
  entries : List Entry := []
  malformed : List (Nat × Text) := []
  deriving DecidableEq, Repr

namespace Reading

def addValueLine (reading : Reading) (line : Text) : Reading :=
  { reading with
    entries := reading.entries.modifyHead fun entry => { entry with lines := line :: entry.lines } }

/-- The heading in a line that starts with one: it ends at the last closing bracket. -/
def headingOf? (value : Text) : Option Text :=
  match value with
  | '[' :: inner =>
    match Text.dropEndWhile (· != ']') inner with
    | [] => none
    | closed => if closed.dropLast.isEmpty then none else some closed.dropLast
  | _ => none

def optionOf? (value : Text) : Option (Text × Text) :=
  let isMark := fun c => c == '=' || c == ':'
  match value.dropWhile (!isMark ·) with
  | [] => none
  | _ :: rest => some (optionName (Text.stripEnd (value.takeWhile (!isMark ·))), Text.strip rest)

def startHeading (reading : Reading) (number : Nat) (heading : Text) :
    Except DocumentFault Reading :=
  if heading = sharedHeading then
    .ok { reading with heading? := some heading, inValue := false }
  else if reading.headings.contains heading then .error (.repeatedHeading number heading)
  else
    .ok { reading with
      headings := heading :: reading.headings, heading? := some heading, inValue := false }

def reject (reading : Reading) (number : Nat) (line : Text) : Reading :=
  { reading with malformed := (number, line) :: reading.malformed }

/-- Reads an option. An option without a name is kept, but counts as malformed. -/
def startOption (reading : Reading) (number : Nat) (line heading : Text) (option : Text × Text) :
    Except DocumentFault Reading :=
  let (name, value) := option
  if reading.entries.any fun entry => entry.heading == heading && entry.option == name then
    .error (.repeatedOption number heading name)
  else
    let reading := if name.isEmpty then reading.reject number line else reading
    .ok { reading with
      entries := ⟨heading, name, [value]⟩ :: reading.entries, inValue := !name.isEmpty }

def addLine (reading : Reading) (number : Nat) (line : Text) : Except DocumentFault Reading :=
  let value := Text.strip line
  let indent := (line.takeWhile Text.isBlank).length
  if reading.inValue && reading.indent < indent then .ok (reading.addValueLine value)
  else
    let reading := { reading with indent := indent }
    match headingOf? value, reading.heading? with
    | some heading, _ => reading.startHeading number heading
    | none, none => .error (.optionBeforeHeading number line)
    | none, some heading =>
      match optionOf? value with
      | some option => reading.startOption number line heading option
      | none => .ok (reading.reject number line)

def isComment (value : Text) : Bool :=
  value.head? == some '#' || value.head? == some ';'

def addLines (reading : Reading) (number : Nat) : List Text → Reading × Option DocumentFault
  | [] => (reading, none)
  | line :: more =>
    let value := Text.strip line
    if isComment value then reading.addLines (number + 1) more
    else if value.isEmpty then
      (if reading.inValue then reading.addValueLine [] else reading).addLines (number + 1) more
    else
      match reading.addLine number line with
      | .ok reading => reading.addLines (number + 1) more
      | .error fault => (reading, some fault)

/-- Enters what was read into the settings, as values that are unfinished. -/
def apply (reading : Reading) (settings : Settings) : Settings :=
  let addHeading := fun (headings : List (Text × Options)) heading =>
    if (headings.lookup heading).isSome then headings else headings ++ [(heading, [])]
  let setOption := fun (settings : Settings) (entry : Entry) =>
    let set := setEntry entry.option (Written.unfinished entry.lines.reverse)
    if entry.heading = sharedHeading then { settings with shared := set settings.shared }
    else
      { settings with
        headings := settings.headings.map fun (heading, options) =>
          (heading, if heading = entry.heading then set options else options) }
  reading.entries.reverse.foldl setOption
    { settings with headings := reading.headings.reverse.foldl addHeading settings.headings }

end Reading

def Options.finished (options : Options) : Options :=
  options.map fun (name, value) => (name, value.finish)

def finished (settings : Settings) : Settings :=
  ⟨settings.shared.finished,
    settings.headings.map fun (heading, options) => (heading, options.finished)⟩

def documentLines (content : Text) : List Text :=
  match (Text.lines content).reverse with
  | [] => []
  | last :: before =>
    (before.map (· ++ ['\n'])).reverse ++ (if last.isEmpty then [] else [last])

/-- Reads a document into the settings, which keep what was read before a fault. -/
def read (settings : Settings) (content : Text) : Settings × Option DocumentFault :=
  let (reading, fault) := Reading.addLines {} 1 (documentLines content)
  match fault with
  | some fault => (reading.apply settings, some fault)
  | none =>
    ((reading.apply settings).finished,
      if reading.malformed.isEmpty then none
      else some (.malformedLines reading.malformed.reverse))

/-- The complete lines in the text before a fault. A carriage return at its end may be the first
half of a line end, so it is left for what follows. -/
def completeLines (content : Text) : List Text :=
  let known := if content.getLast? == some '\r' then content.dropLast else content
  (documentLines (Text.unifyLineEnds known)).filter (·.getLast? == some '\n')

/-- Reads a document given as bytes. Bytes that are not text are noticed only after the complete
lines of the blocks before them were read. -/
def readBytes (settings : Settings) (bytes : List UInt8) : Settings × Option DocumentFault :=
  match Text.decodeBlocks [] bytes with
  | (content, none) => settings.read (Text.unifyLineEnds content)
  | (content, some fault) =>
    let (reading, earlier) := Reading.addLines {} 1 (completeLines content)
    (reading.apply settings, some (earlier.getD (.undecodable fault)))

end GradlePublishing.Settings
