import GradlePublishing.Failure

/-!
Options of the Gradle command line that take a value. The value is the next argument, or it is
attached to the short name, or it follows the long name and an equals sign.
-/

namespace GradlePublishing.Command

/-- An option with a value. Not every option has a short name. -/
structure ValueOption where
  short : Option Text
  long : Text
  deriving DecidableEq, Repr

structure OptionMatch where
  value : Text
  count : Nat
  deriving DecidableEq, Repr

namespace ValueOption

def isNamed (option : ValueOption) (argument : Text) : Bool :=
  option.short == some argument || option.long == argument

/-- The value in an argument that also names the option. -/
def attached? (option : ValueOption) (argument : Text) : Option Text :=
  match Text.after? (option.long ++ ['=']) argument with
  | some value => some value
  | none =>
    match option.short with
    | some (c :: short) =>
      if (Text.after? "--" argument).isSome then none else Text.after? (c :: short) argument
    | _ => none

/-- Reads an option at an argument, given the argument after it. The last argument has an empty
value. -/
def read? (option : ValueOption) (argument : Text) (next : Option Text) : Option OptionMatch :=
  if option.isNamed argument then
    match next with
    | some value => some ⟨value, 2⟩
    | none => some ⟨[], 1⟩
  else (option.attached? argument).map (⟨·, 1⟩)

/-- Reads an option at an index, where a negative index counts from the end. -/
def readAt (option : ValueOption) (arguments : List Text) (index : Int) :
    Except Failure (Option OptionMatch) :=
  match Index.get? arguments index with
  | none => .error .indexOutOfRange
  | some argument =>
    let next := if index + 1 < arguments.length then Index.get? arguments (index + 1) else none
    .ok (option.read? argument next)

end ValueOption

def buildFileOption : ValueOption := ⟨some "-b", "--build-file"⟩
def projectDirOption : ValueOption := ⟨some "-p", "--project-dir"⟩
def systemPropertyOption : ValueOption := ⟨some "-D", "--system-prop"⟩
def projectPropertyOption : ValueOption := ⟨some "-P", "--project-prop"⟩

def propertyOptions : List ValueOption := [projectPropertyOption, systemPropertyOption]

def valueOptions : List ValueOption :=
  [buildFileOption, ⟨some "-c", "--settings-file"⟩, ⟨none, "--configuration-cache-problems"⟩,
    ⟨none, "--console"⟩, ⟨some "-F", "--dependency-verification"⟩,
    ⟨some "-g", "--gradle-user-home"⟩, ⟨some "-I", "--init-script"⟩, ⟨none, "--include-build"⟩,
    ⟨some "-M", "--write-verification-metadata"⟩, ⟨none, "--max-workers"⟩, projectDirOption,
    ⟨none, "--priority"⟩, ⟨none, "--project-cache-dir"⟩, ⟨none, "--update-locks"⟩,
    ⟨none, "--warning-mode"⟩, ⟨some "-x", "--exclude-task"⟩]

end GradlePublishing.Command
