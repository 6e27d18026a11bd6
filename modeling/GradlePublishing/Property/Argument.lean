import GradlePublishing.Settings.Known
import GradlePublishing.Text.ShellWords

/-!
Properties given to a Gradle run: as `-P` and `-D` arguments, in variables that hold such arguments
for the virtual machine, and in environment variables of their own.
-/

namespace GradlePublishing.Property

def argumentStarts : List Text := ["--project-prop=", "--system-prop=", "-P", "-D"]

def propertyText? (argument start : Text) : Option Text :=
  (Text.after? start argument).filter (!·.isEmpty)

/-- The name and the value in `name=value`. Both lose surrounding blanks, and the value then one
pair of quotes; neither may be empty. -/
def pair? (s : Text) : Option (Text × Text) :=
  match Text.cut? '=' s with
  | some (name, value) =>
    let name := Text.strip name
    let value := Text.unquote (Text.strip value)
    if name.isEmpty || value.isEmpty then none else some (name, value)
  | none => none

def ofArgument? (argument : Text) : Option (Text × Text) :=
  (argumentStarts.findSome? (propertyText? (Text.strip argument))).bind pair?

def ofArguments (arguments : List Text) : Table := .ofList (arguments.filterMap ofArgument?)

/-- The properties in the value of an options variable. A value that cannot be split as a shell
line is split at blanks. -/
def ofOptions (options : Text) : Table :=
  match Text.shellWords options with
  | .ok arguments => ofArguments arguments
  | .error _ => ofArguments (Text.words options)

/-- The property that an environment variable sets, where `start` begins the names of such
variables. -/
def ofVariable? (start : Text) (entry : Text × Text) : Option (Text × Text) :=
  match Text.after? start entry.1 with
  | some name =>
    let name := Text.strip name
    let value := Text.strip entry.2
    if name.isEmpty || value.isEmpty then none else some (name, value)
  | none => none

def ofEnvironment (settings : Settings) (environment : Table) : Except Failure Table := do
  let start ← settings.text .projectPropertyPrefix
  return .ofList (environment.entries.filterMap (ofVariable? start))

end GradlePublishing.Property
