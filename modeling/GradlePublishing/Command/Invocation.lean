import GradlePublishing.Command.ValueOption
import GradlePublishing.Path
import GradlePublishing.Property.Argument

/-!
A Gradle command taken apart: its tasks, the build script it asks for, and the properties it sets.
-/

namespace GradlePublishing.Command

inductive Part
  | property (option : ValueOption) (text : Text)
  | valued (option : ValueOption) (value : Text)
  | flag (argument : Text)
  | task (name : Text)
  deriving DecidableEq, Repr

def firstMatch? (options : List ValueOption) (argument : Text) (next : Option Text) :
    Option (ValueOption × OptionMatch) :=
  options.findSome? fun option => (option.read? argument next).map (option, ·)

/-- The part that starts at an argument, and how many arguments it takes up beyond the first. -/
def readPart (argument : Text) (next : Option Text) : Part × Nat :=
  match firstMatch? propertyOptions argument next with
  | some (option, found) => (.property option found.value, found.count - 1)
  | none =>
    match firstMatch? valueOptions argument next with
    | some (option, found) => (.valued option found.value, found.count - 1)
    | none => if argument.head? == some '-' then (.flag argument, 0) else (.task argument, 0)

def parts : List Text → List Part
  | [] => []
  | argument :: rest =>
    let (part, more) := readPart argument rest.head?
    part :: parts (rest.drop more)
termination_by arguments => arguments.length
decreasing_by
  simp only [List.length_cons, List.length_drop]
  omega

/-- The build script that a command asks for: with the option for it, or by its project directory.
Empty if there is none. -/
def buildFile (settings : Settings) : List Text → Except Failure Text
  | [] => .ok []
  | argument :: rest =>
    match buildFileOption.read? argument rest.head?,
      projectDirOption.read? argument rest.head? with
    | some found, _ => .ok found.value
    | none, some found =>
      if found.value.isEmpty then .ok []
      else do
        let script ← settings.text .buildScript
        return Path.join found.value (script ++ (← settings.text .groovyExtension))
    | none, none => buildFile settings rest

/-- The name of a task without the path of its project. -/
def taskName (task : Text) : Text := Text.afterLast ':' task

def publishes (exact start localEnd name : Text) : Bool :=
  name == exact ||
    ((Text.after? start name).any (!·.isEmpty) && !localEnd.isSuffixOf name)

def isPublishing (settings : Settings) (tasks : List Text) : Except Failure Bool := do
  let exact ← settings.text .publishTask
  let start ← settings.text .publishTaskStart
  let localEnd ← settings.text .localTaskEnd
  return tasks.any fun task => publishes exact start localEnd (taskName task)

structure Invocation where
  tasks : List Text
  buildFile : Text
  properties : Table
  deriving DecidableEq, Repr

def Part.task? : Part → Option Text
  | task name => some name
  | _ => none

/-- The property in a part, as an argument with the short name of its option. -/
def Part.propertyArgument? : Part → Option Text
  | property option text => some (option.short.getD [] ++ text)
  | _ => none

/-- Reads a Gradle command, given without the name of the program. -/
def Invocation.ofArguments (settings : Settings) (arguments : List Text) :
    Except Failure Invocation := do
  let parts := parts arguments
  return {
    tasks := parts.filterMap Part.task?
    buildFile := ← Command.buildFile settings arguments
    properties := Property.ofArguments (parts.filterMap Part.propertyArgument?) }

/-- Whether a command has tasks and none of them publishes. A command without tasks is taken for one
that may publish, whatever the settings say about tasks. -/
def Invocation.isUnrelated (settings : Settings) (invocation : Invocation) : Except Failure Bool :=
  if invocation.tasks.isEmpty then .ok false
  else (isPublishing settings invocation.tasks).map (!·)

end GradlePublishing.Command
