import GradlePublishing.Property.Reference
import GradlePublishing.Script.Block
import GradlePublishing.Script.File

/-!
The scripts that a script applies. Remote scripts and paths that cannot be resolved are left out;
relative paths start at the directory of the applying script.
-/

namespace GradlePublishing.Script

/-- Passes over `(` and the space after it, or over space. -/
def skipCallStart? (s : Text) : Option Text :=
  match skipGap s with
  | '(' :: rest => some (skipGap rest)
  | rest => if s.head?.any isGap then some rest else none

/-- `apply from: "…"` or `apply(from: "…")`. -/
def groovyApply? (s : Text) : Option (Text × Text) := do
  let rest ← skipCallStart? (← Text.after? "apply" s)
  let rest ← Text.after? ":" (skipGap (← Text.after? "from" rest))
  quotedValue? (skipGap rest)

/-- `apply(from = "…")`. -/
def kotlinApply? (s : Text) : Option (Text × Text) := do
  let rest ← Text.after? "(" (skipGap (← Text.after? "apply" s))
  let rest ← Text.after? "=" (skipGap (← Text.after? "from" (skipGap rest)))
  quotedValue? (skipGap rest)

/-- The path in an apply statement at the head of `s`, which must start a word. -/
def appliedPath? (dialect : Dialect) (before : Option Char) (s : Text) : Option (Text × Text) :=
  if Text.startsWord before then
    match dialect with
    | .groovy => groovyApply? s
    | .kotlin => kotlinApply? s
  else none

def writtenPaths (dialect : Dialect) (content : Text) : List Text :=
  let applied := (occurrences (appliedPath? dialect) content).filter fun found =>
    isKeywordOccurrence content found.offset (found.offset + "apply".length)
  applied.map fun found => Text.strip found.value

/-- The path of an applied script below the directory of the applying one, unless it is remote or
not resolved. -/
def localPath? (directory path : Text) : Option Text :=
  if Text.has "://" path || Property.hasReference path then none
  else
    some (Path.normalize
      (if Path.isAbsolute path || directory.isEmpty then path else Path.join directory path))

def appliedPaths (settings : Settings) (dialect : Dialect) (content : Text) (table : Table)
    (path : Text) : Except Failure (List Text) := do
  let resolved ← (writtenPaths dialect content).mapM (Property.resolve settings table)
  return resolved.filterMap (localPath? (Path.directory path))

end GradlePublishing.Script
