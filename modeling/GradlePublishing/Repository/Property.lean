import GradlePublishing.Repository.Candidate

/-!
Repositories that Gradle properties name. The name of such a property holds a keyword; its value is
a URL or path with a repository key in it, or the key itself.
-/

namespace GradlePublishing.Repository

structure NameRules where
  keywords : List Text
  /-- The kind of version being deployed. -/
  kind : Text
  /-- The other kind of version. -/
  opposite : Text
  deriving DecidableEq, Repr

def nameRules (settings : Settings) (isSnapshot : Bool) : Except Failure NameRules := do
  let keywords ← settings.list .propertyNameKeywords
  let snapshot ← settings.text .snapshotKeyword
  let release ← settings.text .releaseKeyword
  let keywords := keywords.map Text.lower
  return if isSnapshot then ⟨keywords, Text.lower snapshot, Text.lower release⟩
    else ⟨keywords, Text.lower release, Text.lower snapshot⟩

def NameRules.admits (rules : NameRules) (name : Text) : Bool :=
  let name := Text.lower (Text.strip name)
  !name.isEmpty && rules.keywords.any (Text.has · name) &&
    (!Text.has rules.opposite name || Text.has rules.kind name)

def isDotted (path : Text) : Bool :=
  (Text.after? "./" path).isSome || (Text.after? "../" path).isSome

def admitsValue (value : Text) : Bool :=
  !value.isEmpty && !(["true", "false"] : List Text).contains (Text.lower value) && !isDotted value

def keyOfValue? (settings : Settings) (value : Text) : Except Failure (Option Text) :=
  if value.contains '/' || value.contains ':' then keyOfUrl? settings value else .ok (some value)

def candidate? (settings : Settings) (rules : NameRules) (entry : Text × Text) :
    Except Failure (Option Candidate) := do
  let value := Text.strip entry.2
  if rules.admits entry.1 && admitsValue value then
    return (← keyOfValue? settings value).map fun key => ⟨key, entry.1⟩
  else return none

def distinctKeys (candidates : List Candidate) : List Candidate :=
  candidates.eraseDupsBy fun a b => a.key == b.key

/-- The best key among the properties, which are looked at in the order of their names. -/
def selectProperty (settings : Settings) (isSnapshot : Bool) (table : Table) :
    Except Failure Text := do
  let rules ← nameRules settings isSnapshot
  let entries := table.entries.mergeSort fun a b => Text.le a.1 b.1
  let found := (← entries.mapM (candidate? settings rules)).filterMap id
  select settings isSnapshot "the Gradle properties" (distinctKeys found)

end GradlePublishing.Repository
