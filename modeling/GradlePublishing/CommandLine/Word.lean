import GradlePublishing.Text.Number

/-!
The words of a command line. A word is an option if it spells one, or the beginning of exactly one;
a word that starts like an option but is a negative number, or holds a space, is not taken for one.
-/

namespace GradlePublishing.CommandLine

inductive Topic
  | help
  | version
  | verbose
  | defaultsPath
  | workingDirectory
  | projectVersion
  | outputDirectory
  deriving DecidableEq, Repr

structure OptionSpec where
  topic : Topic
  spellings : List Text
  takesValue : Bool := false
  deriving DecidableEq, Repr

structure Spelled where
  option : OptionSpec
  spelling : Text
  attached : Option Text
  deriving DecidableEq, Repr

inductive Role
  | positional
  | separator
  | option (spelled : Spelled)
  | unknownOption
  deriving DecidableEq, Repr

/-- Why a command line is not carried out: it is used in a wrong way, or it asks for something that
is answered at once. -/
inductive Stop
  | usage
  | help
  | version
  deriving DecidableEq, Repr

def spellingsOf (options : List OptionSpec) : List (Text × OptionSpec) :=
  options.flatMap fun option => option.spellings.map (·, option)

def isNegativeNumber (word : Text) : Bool :=
  let isDigit := fun c => (Text.digitValue? c).isSome
  let body := if word.getLast? == some '\n' then word.dropLast else word
  match body with
  | '-' :: number =>
    let whole := number.takeWhile isDigit
    match number.dropWhile isDigit with
    | [] => !whole.isEmpty
    | '.' :: fraction => !fraction.isEmpty && fraction.all isDigit
    | _ => false
  | _ => false

/-- The spellings that a word with two dashes begins, with the value after an equals sign. -/
def abbreviated (options : List OptionSpec) (word : Text) : List Spelled :=
  let (start, attached) := match Text.cut? '=' word with
    | some (start, value) => (start, some value)
    | none => (word, none)
  (spellingsOf options).filterMap fun (spelling, option) =>
    if start.isPrefixOf spelling then some ⟨option, spelling, attached⟩ else none

/-- The spellings that a word with one dash begins, or that its first letter is, with the value
attached to the letter. -/
def clustered (options : List OptionSpec) (word : Text) : List Spelled :=
  (spellingsOf options).filterMap fun (spelling, option) =>
    if spelling = word.take 2 then some ⟨option, spelling, some (word.drop 2)⟩
    else if word.isPrefixOf spelling then some ⟨option, spelling, none⟩
    else none

/-- The option that a word spells in full, with the value after an equals sign. -/
def spelledOut? (options : List OptionSpec) (word : Text) : Option Spelled :=
  let find := fun spelling attached =>
    ((spellingsOf options).lookup spelling).map fun option =>
      (⟨option, spelling, attached⟩ : Spelled)
  (find word none).or
    ((Text.cut? '=' word).bind fun (spelling, value) => find spelling (some value))

/-- The role of a word that is not a separator. A word that begins several spellings is an error. -/
def roleOf (options : List OptionSpec) (word : Text) : Except Stop Role :=
  match word with
  | '-' :: second :: _ =>
    match spelledOut? options word with
    | some spelled => .ok (.option spelled)
    | none =>
      match if second = '-' then abbreviated options word else clustered options word with
      | [spelled] => .ok (.option spelled)
      | _ :: _ :: _ => .error .usage
      | [] =>
        if isNegativeNumber word || word.contains ' ' then .ok .positional
        else .ok .unknownOption
  | _ => .ok .positional

/-- The words of a command line with their roles. Every word after a separator is positional. -/
def roles (options : List OptionSpec) : List Text → Except Stop (List (Text × Role))
  | [] => .ok []
  | word :: more =>
    if word = ['-', '-'] then .ok ((word, .separator) :: more.map (·, .positional))
    else do
      let role ← roleOf options word
      return (word, role) :: (← roles options more)

end GradlePublishing.CommandLine
