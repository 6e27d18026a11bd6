import GradlePublishing.Table
import GradlePublishing.Script.Block
import GradlePublishing.Script.Pattern

/-!
Extra properties that a build script declares. They are declared one by one on lines of their own,
or as assignments in an `ext` block. Only quoted values count, and a declaration that starts in a
comment or a literal does not.
-/

namespace GradlePublishing.Property

open GradlePublishing.Script

structure Declaration where
  name : Text
  value : Text
  deriving DecidableEq, Repr

def propertyName? (s : Text) : Option (Text × Text) := name? (· == '.') s

/-- The quoted name of a property, which holds no quote of either kind. -/
def quotedName? (s : Text) : Option (Text × Text) :=
  (quotedValue? s).filter fun (name, _) => !name.any Text.isQuote

/-- A value after `mark`, with optional space before and after the mark. -/
def valueAfter? (mark s : Text) : Option (Text × Text) := do
  quotedValue? (skipGap (← Text.after? mark (skipGap s)))

/-- `name = "value"`. -/
def assignment? (s : Text) : Option (Declaration × Text) := do
  let (name, rest) ← propertyName? s
  let (value, rest) ← valueAfter? "=" rest
  return (⟨name, value⟩, rest)

/-- `ext.name = "value"`. -/
def dottedAssignment? (s : Text) : Option (Declaration × Text) := do
  assignment? (← Text.after? "ext." (skipOptional "project." s))

/-- `extra["name"] = "value"`. -/
def indexedAssignment? (s : Text) : Option (Declaration × Text) := do
  let rest ← Text.after? "extra[" (skipOptional "project." s)
  let (name, rest) ← quotedName? (skipGap rest)
  let rest ← Text.after? "]" (skipGap rest)
  let (value, rest) ← valueAfter? "=" rest
  return (⟨name, value⟩, rest)

/-- `extra.set("name", "value")`. -/
def setterCall? (s : Text) : Option (Declaration × Text) := do
  let rest ← Text.after? "extra.set(" (skipOptional "project." s)
  let (name, rest) ← quotedName? (skipGap rest)
  let (value, rest) ← valueAfter? "," rest
  return (⟨name, value⟩, rest)

/-- The assignments in the `ext` blocks of a script, at their offsets in the script. -/
def blockDeclarations (content : Text) : List (Found Declaration) :=
  (blocks "ext" content).flatMap fun block =>
    (statements assignment? block.body).map fun found =>
      { found with offset := block.bodyStart + found.offset }

/-- All lines of a script that declare a property in some form, in the order of their offsets. -/
def candidates (content : Text) : List (Found Declaration) :=
  (blockDeclarations content ++ statements dottedAssignment? content ++
    statements indexedAssignment? content ++ statements setterCall? content).mergeSort
    fun a b => a.offset ≤ b.offset

def declarations (content : Text) : List Declaration :=
  let kinds := classify content
  ((candidates content).filter fun found => kinds[found.offset]? == some .code).map (·.value)

/-- The extra properties of a script. The last declaration of a name wins. -/
def extra (content : Text) : Table :=
  .ofList ((declarations content).map fun declared => (Text.strip declared.name, declared.value))

end GradlePublishing.Property
