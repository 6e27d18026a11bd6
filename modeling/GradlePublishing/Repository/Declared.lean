import GradlePublishing.Script.Block
import GradlePublishing.Script.File
import GradlePublishing.Script.Pattern

/-!
The URLs of the repositories that a script declares. A repository block stands in a `repositories`
block, and that in a parent block; each dialect has its own ways to assign a URL.
-/

namespace GradlePublishing.Repository

open GradlePublishing.Script

structure Family where
  parent : Text
  repository : Text
  deriving DecidableEq, Repr

/-- Reads `parent:repository`. -/
def Family.ofEntry (entry : Text) : Except Failure Family :=
  match Text.cut? ':' entry with
  | some (parent, repository) =>
    let parent := Text.strip parent
    let repository := Text.strip repository
    if parent.isEmpty || repository.isEmpty then .error (.malformedFamily entry)
    else .ok ⟨parent, repository⟩
  | none => .error (.malformedFamily entry)

def families (settings : Settings) : Except Failure (List Family) := do
  (← settings.list .repositoryBlocks).mapM Family.ofEntry

/-- Passes over `uri(` and the space after it. -/
def skipUriCall (s : Text) : Text :=
  match (Text.after? "uri" s).bind fun rest => Text.after? "(" (skipGap rest) with
  | some rest => skipGap rest
  | none => s

/-- Passes over `:` or `=` and the space after it. -/
def skipAssign (s : Text) : Text :=
  match s with
  | c :: rest => if c == ':' || c == '=' then skipGap rest else s
  | [] => []

/-- `url "…"`, `url = "…"` or `url: "…"`, also with `uri(…)` around the literal. -/
def groovyUrl? (s : Text) : Option (Text × Text) := do
  quotedValue? (skipUriCall (skipAssign (skipGap (← Text.after? "url" s))))

/-- `url = "…"`, `url("…")` or `url.set("…")`, also with `uri(…)` around the literal. -/
def kotlinUrl? (s : Text) : Option (Text × Text) := do
  match skipGap (skipOptional ".set" (← Text.after? "url" s)) with
  | c :: rest =>
    if c == '(' || c == '=' then quotedValue? (skipUriCall (skipGap rest)) else none
  | [] => none

/-- The text of an assigned URL at the head of `s`, which must start a word. -/
def assignedUrl? (dialect : Dialect) (before : Option Char) (s : Text) : Option (Text × Text) :=
  if Text.startsWord before then
    match dialect with
    | .groovy => groovyUrl? s
    | .kotlin => kotlinUrl? s
  else none

def urlsInBlock (dialect : Dialect) (body : Text) : List Text :=
  let kinds := Script.classify body
  let assigned := (occurrences (assignedUrl? dialect) body).filter fun found =>
    kinds[found.offset]? == some .code
  (assigned.map fun found => Text.strip found.value).filter (!·.isEmpty)

def urlsOfFamily (dialect : Dialect) (content : Text) (family : Family) : List Text :=
  (bodies family.parent content).flatMap fun parent =>
    (bodies "repositories" parent).flatMap fun repositories =>
      (bodies family.repository repositories).flatMap (urlsInBlock dialect)

/-- The URLs of the repositories that a script declares, by family and then in document order. -/
def declaredUrls (settings : Settings) (dialect : Dialect) (content : Text) :
    Except Failure (List Text) := do
  if content.isEmpty then return []
  return (← families settings).flatMap (urlsOfFamily dialect content)

end GradlePublishing.Repository
