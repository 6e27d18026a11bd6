import GradlePublishing.CommandLine.Reading

/-!
What a command line asks for.
-/

namespace GradlePublishing.CommandLine

/-- What to do. A directory that is not given is the working directory. -/
inductive Action
  | deployRepository (directory : Option Text) (version : Text) (gradleArguments : List Text)
  | coordinates (directory : Option Text)
  | isPublish (gradleArguments : List Text)
  | dumpDefaults (directory : Option Text)
  deriving DecidableEq, Repr

/-- What to do and how. Without an action only the help is wanted. -/
structure Call where
  verbose : Bool
  defaultsPath : Text
  action : Option Action
  deriving DecidableEq, Repr

def helpOption : OptionSpec := { topic := .help, spellings := ["-h", "--help"] }

def mainOptions : List OptionSpec :=
  [helpOption, { topic := .version, spellings := ["-V", "--version"] },
    { topic := .verbose, spellings := ["-v", "--verbose"] },
    { topic := .defaultsPath, spellings := ["-dp", "--defaults-path"], takesValue := true }]

def workingDirectoryOption : OptionSpec :=
  { topic := .workingDirectory, spellings := ["-wd", "--working-dir"], takesValue := true }

def projectVersionOption : OptionSpec :=
  { topic := .projectVersion, spellings := ["--project-version"], takesValue := true }

def outputDirectoryOption : OptionSpec :=
  { topic := .outputDirectory, spellings := ["-o", "--output-dir"], takesValue := true }

/-- An action, and whether words were left over behind it. -/
abbrev Asked := Action × Bool

def readDeployRepository (words : List Text) : Except Stop Asked := do
  let line ← Line.read [helpOption, workingDirectoryOption, projectVersionOption] .rest words
  let some version := line.value? .projectVersion | throw .usage
  return (.deployRepository (line.value? .workingDirectory) version (line.positionals.getD []),
    line.hasExtras)

def readCoordinates (words : List Text) : Except Stop Asked := do
  let line ← Line.read [helpOption, workingDirectoryOption] .none words
  return (.coordinates (line.value? .workingDirectory), line.hasExtras)

def readIsPublish (words : List Text) : Except Stop Asked := do
  let line ← Line.read [helpOption] .rest words
  return (.isPublish (line.positionals.getD []), line.hasExtras)

def readDumpDefaults (words : List Text) : Except Stop Asked := do
  let line ← Line.read [helpOption, outputDirectoryOption] .none words
  return (.dumpDefaults (line.value? .outputDirectory), line.hasExtras)

def Action.name : Action → Text
  | deployRepository _ _ _ => "deploy-repo"
  | coordinates _ => "coordinates"
  | isPublish _ => "is-publish"
  | dumpDefaults _ => "dump-defaults"

def readAction (name : Text) (words : List Text) : Except Stop Asked :=
  if name = "deploy-repo" then readDeployRepository words
  else if name = "coordinates" then readCoordinates words
  else if name = "is-publish" then readIsPublish words
  else if name = "dump-defaults" then readDumpDefaults words
  else .error .usage

def Call.read (words : List Text) : Except Stop Call := do
  let line ← Line.read mainOptions .atLeastOne words
  let asked ← match line.positionals with
    | some (name :: more) => (readAction name more).map some
    | _ => pure none
  if line.hasExtras || asked.any (·.2) then throw .usage
  return ⟨line.has .verbose, (line.value? .defaultsPath).getD [], asked.map (·.1)⟩

end GradlePublishing.CommandLine
