import GradlePublishing.Failure
import GradlePublishing.Table
import GradlePublishing.Text.Case

/-!
Settings are options under headings. Options under the heading `DEFAULT` are seen under every other
heading too. A value may refer to other options as `%(name)s`; references are replaced when the
value is asked for, and a doubled per cent sign stands for one. Values that were not read to their
end cannot be asked for.
-/

namespace GradlePublishing

/-- The value of an option as it is written: a text, or the lines read so far by a reading that was
ended by a fault. -/
inductive Settings.Written
  | finished (value : Text)
  | unfinished (lines : List Text)
  deriving DecidableEq, Repr

/-- Options with their values as they are written, in the order in which they were first read. -/
abbrev Settings.Options := List (Text × Settings.Written)

/-- The shared options, and the options under each heading in the order in which the headings were
first read. -/
structure Settings where
  shared : Settings.Options
  headings : List (Text × Settings.Options)
  deriving DecidableEq, Repr

namespace Settings

def empty : Settings := ⟨[], []⟩

instance : Inhabited Settings := ⟨empty⟩

def sharedHeading : Text := "DEFAULT"

namespace Written

def text? : Written → Option Text
  | finished value => some value
  | unfinished _ => none

/-- All that was read of a value. -/
def joined : Written → Text
  | finished value => value
  | unfinished lines => Text.joinWith "\n" lines

/-- The value once it is read to its end: without blanks there. -/
def finish : Written → Written
  | finished value => finished value
  | unfinished lines => finished (Text.stripEnd (unfinished lines).joined)

/-- Whether the value calls for being composed. Of an unfinished value only whole lines are looked
at. -/
def isComposed : Written → Bool
  | finished value => value.contains '%'
  | unfinished lines => lines.contains ['%']

end Written

/-- The names of options are not sensitive to case. -/
def optionName (name : Text) : Text := Text.lower name

/-- The options written under a heading itself. The shared heading always exists. -/
def own? (settings : Settings) (heading : Text) : Option Options :=
  match settings.headings.lookup heading with
  | some options => some options
  | none => if heading = sharedHeading then some [] else none

/-- The value of an option under a heading, or among the shared ones, as it is written. -/
def written? (settings : Settings) (heading option : Text) : Option Written := do
  let own ← settings.own? heading
  (own.lookup (optionName option)).or (settings.shared.lookup (optionName option))

inductive Piece
  | plain (c : Char)
  | reference (name : Text)
  | malformed
  deriving DecidableEq, Repr

def referenceName? (s : Text) : Option (Text × Text) :=
  match s.takeWhile (· != ')'), s.dropWhile (· != ')') with
  | c :: name, ')' :: 's' :: rest => some (c :: name, rest)
  | _, _ => none

theorem length_referenceName? {s name rest : Text} (found : referenceName? s = some (name, rest)) :
    rest.length < s.length := by
  unfold referenceName? at found
  split at found
  · rename_i same
    cases found
    have shorter := (List.dropWhile_suffix (l := s) (· != ')')).length_le
    rw [same] at shorter
    simp only [List.length_cons] at shorter
    omega
  · cases found

/-- Cuts a written value into pieces. Nothing is read after a malformed piece. -/
def pieces : Text → List Piece
  | [] => []
  | '%' :: '%' :: s => .plain '%' :: pieces s
  | '%' :: '(' :: s =>
    match _ : referenceName? s with
    | some (name, rest) => .reference name :: pieces rest
    | none => [.malformed]
  | '%' :: _ => [.malformed]
  | c :: s => .plain c :: pieces s
termination_by s => s.length
decreasing_by
  · simp only [List.length_cons]
    omega
  · have := length_referenceName? ‹_›
    simp only [List.length_cons]
    omega
  · simp

/-- Replaces the references in a value, at most `levels` deep. Gives nothing if a value that is
referred to is unfinished. -/
def compose (settings : Settings) (heading option : Text) :
    Nat → Written → Except Failure (Option Text)
  | 0, _ => .error (.composition .tooDeep heading option)
  | _ + 1, .unfinished _ => .error (.composition .unfinished heading option)
  | levels + 1, .finished value => do
    let parts ← (pieces value).mapM fun piece =>
      match piece with
      | .plain c => pure (some [c])
      | .malformed => throw (.composition .malformedReference heading option)
      | .reference name =>
        match settings.written? heading name with
        | some other =>
          if other.isComposed then compose settings heading option levels other
          else pure other.text?
        | none => throw (.composition (.unknownOption (optionName name)) heading option)
    return (parts.mapM id).map List.flatten

def maxLevels : Nat := 10

def value? (settings : Settings) (heading option : Text) : Except Failure (Option Text) := do
  match settings.written? heading option with
  | none => return none
  | some written =>
    match ← settings.compose heading option maxLevels written with
    | some value => return some value
    | none => throw (.composition .unfinishedReference heading option)

inductive Separator
  | blanks
  | text (separator : Text)
  deriving DecidableEq, Repr

structure ListFormat where
  separator : Separator := .text "\n"
  strip : Bool := true
  distinct : Bool := true
  deriving DecidableEq, Repr

/-- The elements of a list value. Empty elements never count. -/
def ListFormat.elements (format : ListFormat) (value : Text) : Except Failure (List Text) := do
  let raw ← match format.separator with
    | .blanks => pure (Text.words value)
    | .text [] => throw .emptySeparator
    | .text separator => pure (Text.splitOnText separator value)
  let stripped := if format.strip then raw.map Text.strip else raw
  let present := stripped.filter (!·.isEmpty)
  return if format.distinct then present.eraseDups else present

def listOr (settings : Settings) (heading option : Text) (format : ListFormat)
    (fallback : List Text) : Except Failure (List Text) := do
  match ← settings.value? heading option with
  | some value => format.elements value
  | none => return fallback

end Settings

end GradlePublishing
