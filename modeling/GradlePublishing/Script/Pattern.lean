import GradlePublishing.Script.Token
import GradlePublishing.Text.Word

/-!
Readers for the statements of a build script that fit on one line. A reader takes a piece from the
head of a text and gives what it read and what follows.
-/

namespace GradlePublishing.Script

def isGap (c : Char) : Bool := c == ' ' || c == '\t'

def skipGap (s : Text) : Text := s.dropWhile isGap

/-- The interior of a quoted piece of a line, possibly empty. -/
def quotedPiece? : Text → Option (Text × Text)
  | [] => none
  | quote :: s =>
    let isInside := fun c => c != quote && c != '\n'
    match Text.isQuote quote, s.dropWhile isInside with
    | true, close :: rest => if close = quote then some (s.takeWhile isInside, rest) else none
    | _, _ => none

def quotedValue? (s : Text) : Option (Text × Text) :=
  match quotedPiece? s with
  | some (c :: value, rest) => some (c :: value, rest)
  | _ => none

def skipOptional (piece s : Text) : Text := (Text.after? piece s).getD s

/-- A name of letters, digits and underscores that does not start with a digit. `more` are further
characters allowed after the first. -/
def name? (more : Char → Bool) : Text → Option (Text × Text)
  | [] => none
  | c :: s =>
    let continues := fun d => d.isAlphanum || d == '_' || more d
    if c.isAlpha || c == '_' then some (c :: s.takeWhile continues, s.dropWhile continues) else none

theorem length_name? {more : Char → Bool} {s name rest : Text}
    (found : name? more s = some (name, rest)) : rest.length < s.length := by
  unfold name? at found
  split at found
  · cases found
  · split at found
    · cases found
      have shorter := (List.dropWhile_suffix (l := ‹Text›)
        fun d => d.isAlphanum || d == '_' || more d).length_le
      simp only [List.length_cons]
      omega
    · cases found

structure Found (α : Type) where
  offset : Nat
  value : α
  deriving DecidableEq, Repr

def linesFrom (offset : Nat) : List Text → List (Found Text)
  | [] => []
  | line :: more => ⟨offset, line⟩ :: linesFrom (offset + line.length + 1) more

/-- Reads a statement at the head of every line, after its indentation. The offset is that of the
first character of the statement. -/
def statements (reader : Text → Option (α × Text)) (content : Text) : List (Found α) :=
  (linesFrom 0 (Text.lines content)).filterMap fun line =>
    (reader (skipGap line.value)).map fun (value, _) =>
      ⟨line.offset + (line.value.takeWhile isGap).length, value⟩

/-- All matches of a reader in a text from left to right, where a match hides those that start
inside it. The reader is told the character before the place it looks at. The first argument counts
the characters still hidden. -/
def occurrencesFrom (reader : Option Char → Text → Option (α × Text)) :
    Nat → Option Char → Nat → Text → List (Found α)
  | _, _, _, [] => []
  | hidden + 1, _, offset, c :: s => occurrencesFrom reader hidden (some c) (offset + 1) s
  | 0, before, offset, c :: s =>
    match reader before (c :: s) with
    | some (value, rest) =>
      ⟨offset, value⟩ :: occurrencesFrom reader (s.length - rest.length) (some c) (offset + 1) s
    | none => occurrencesFrom reader 0 (some c) (offset + 1) s

def occurrences (reader : Option Char → Text → Option (α × Text)) (content : Text) :
    List (Found α) :=
  occurrencesFrom reader 0 none 0 content

end GradlePublishing.Script
