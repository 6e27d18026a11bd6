import GradlePublishing.Script.Mask
import GradlePublishing.Script.Pattern

/-!
Coordinates that a script assigns at its top level, one a line. Assignments inside blocks and
comments do not count; neither do blank values.
-/

namespace GradlePublishing.Coordinates

open GradlePublishing.Script

inductive Field
  | group
  | version
  | artifact
  deriving DecidableEq, Repr

def fieldNames : List (Text × Field) :=
  [("group", .group), ("version", .version), ("name", .artifact), ("artifactId", .artifact)]

structure Assigned where
  group : Option Text := none
  version : Option Text := none
  artifact : Option Text := none
  deriving DecidableEq, Repr

namespace Assigned

def get? (assigned : Assigned) : Field → Option Text
  | .group => assigned.group
  | .version => assigned.version
  | .artifact => assigned.artifact

def set (assigned : Assigned) (field : Field) (value : Text) : Assigned :=
  match field with
  | .group => { assigned with group := some value }
  | .version => { assigned with version := some value }
  | .artifact => { assigned with artifact := some value }

def orElse (assigned other : Assigned) : Assigned :=
  ⟨assigned.group.or other.group, assigned.version.or other.version,
    assigned.artifact.or other.artifact⟩

end Assigned

def fieldName? (s : Text) : Option (Field × Text) :=
  fieldNames.findSome? fun (name, field) => do
    let rest ← Text.after? "=" (skipGap (← Text.after? name s))
    return (field, skipGap rest)

/-- `name = "value"`, also behind `project.` or `rootProject.`. -/
def assignment? (s : Text) : Option ((Field × Text) × Text) := do
  let unqualified :=
    ((Text.after? "rootProject." s).or (Text.after? "project." s)).getD s
  let (field, rest) ← fieldName? unqualified
  let (value, rest) ← quotedPiece? rest
  return ((field, value), rest)

/-- `rootProject.name = "value"`. -/
def rootName? (s : Text) : Option (Text × Text) := do
  let rest ← Text.after? "=" (skipGap (← Text.after? "rootProject.name" s))
  quotedPiece? (skipGap rest)

/-- The coordinates that a script assigns. The last assignment of a coordinate wins. -/
def ofScript (content : Text) : Assigned :=
  (statements assignment? (mask content)).foldl
    (fun assigned found =>
      let value := Text.strip found.value.2
      if value.isEmpty then assigned else assigned.set found.value.1 value) {}

def rootNameOf? (content : Text) : Option Text :=
  ((statements rootName? (mask content)).head?).map fun found => Text.strip found.value

end GradlePublishing.Coordinates
