import GradlePublishing.FileTree
import GradlePublishing.Property.Argument
import GradlePublishing.Script.Pattern

/-!
Where properties come from outside the scripts. The properties files, with one entry a line and `=` or
`:` between the name and the value, lie below the scripts in precedence; the environment, the arguments
and the options variables lie above them.
-/

namespace GradlePublishing.Property

open GradlePublishing.Script

/-- The characters that cannot be part of a name: they start a comment or end the name. -/
def endsName (c : Char) : Bool := c ∈ ['#', '!', '=', ':'] || Text.isBlank c

/-- The entry on a line. Its value loses surrounding blanks and then one pair of quotes. -/
def entry? (line : Text) : Option (Text × Text) :=
  let line := skipGap line
  let name := line.takeWhile fun c => !endsName c
  match skipGap (line.dropWhile fun c => !endsName c) with
  | separator :: value =>
    if !name.isEmpty && (separator == '=' || separator == ':') then
      some (name, Text.unquote (Text.strip value))
    else none
  | [] => none

/-- The table of a properties file. Entries with an empty value are dropped. -/
def ofFile (content : Text) : Table :=
  .ofList (((Text.lines content).filterMap entry?).filter fun entry => !entry.2.isEmpty)

/-- The properties in a file. A file that cannot be read holds none. -/
def load (tree : FileTree) (path : Text) : Except Failure Table := do
  return ((← tree.readText path).map ofFile).getD ∅

/-- The user home of Gradle: the value of its variable, or else a directory in the user's home. -/
def userHome (settings : Settings) (home : Text) (environment : Table) : Except Failure Text := do
  match environment.value? (← settings.text .userHomeVariable) with
  | some path => return path
  | none => return Path.join home (← settings.text .userHomeDirectory)

/-- The properties below the scripts: those of the user home, if it is given, then those of the
project directory, and the names of the project directory itself. -/
def base (settings : Settings) (tree : FileTree) (directory : Text) (userHome : Option Text) :
    Except Failure Table := do
  let file ← settings.text .propertiesFile
  let ofUser ← match userHome.filter (!·.isEmpty) with
    | some home => load tree (Path.join home file)
    | none => pure ∅
  let ofProject ← load tree (Path.join directory file)
  return ((Table.merge [ofUser, ofProject]).setDefault "rootDir" directory).setDefault
    "projectDir" directory

/-- The properties above the scripts: those of the environment, of the arguments, and of the options
variables, of which later ones win. -/
def overriding (settings : Settings) (arguments : List Text) (environment : Table) :
    Except Failure Table := do
  let ofVariables ← ofEnvironment settings environment
  let optionVariables ← settings.list .jvmOptionsVariables
  return Table.merge
    (ofVariables :: ofArguments arguments ::
      (optionVariables.filterMap environment.value?).map ofOptions)

end GradlePublishing.Property
