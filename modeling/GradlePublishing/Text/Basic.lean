/-!
A text is the list of its characters, so that a position in a text is a list position and a
statement about a text is a statement about a list. This module holds the text operations shared
by all readers: blanks, cutting at a separator, and searching for a piece.
-/

namespace GradlePublishing

abbrev Text := List Char

instance : Coe String Text := ⟨String.toList⟩

namespace Text

def inRanges (ranges : List (Nat × Nat)) (code : Nat) : Bool :=
  ranges.any fun range => range.1 ≤ code && code ≤ range.2

def isBlank (c : Char) : Bool :=
  inRanges [(0x09, 0x0D), (0x1C, 0x20), (0x85, 0x85), (0xA0, 0xA0), (0x1680, 0x1680),
    (0x2000, 0x200A), (0x2028, 0x2029), (0x202F, 0x202F), (0x205F, 0x205F), (0x3000, 0x3000)]
    c.toNat

def dropEndWhile (p : Char → Bool) (s : Text) : Text :=
  (s.reverse.dropWhile p).reverse

def stripStart (s : Text) : Text := s.dropWhile isBlank

def stripEnd (s : Text) : Text := dropEndWhile isBlank s

def strip (s : Text) : Text := stripEnd (stripStart s)

def words (s : Text) : List Text :=
  (s.splitOnP isBlank).filter (!·.isEmpty)

def lines (s : Text) : List Text := s.splitOn '\n'

def cut? (c : Char) (s : Text) : Option (Text × Text) :=
  match s.dropWhile (· != c) with
  | [] => none
  | _ :: after => some (s.takeWhile (· != c), after)

/-- The text after the last `c`, which is the whole text when there is none. -/
def afterLast (c : Char) (s : Text) : Text :=
  (s.splitOn c).getLastD []

/-- What follows `lead` in a text that starts with it. -/
def after? : Text → Text → Option Text
  | [], s => some s
  | _ :: _, [] => none
  | l :: lead, c :: s => if l = c then after? lead s else none

def has (piece : Text) : Text → Bool
  | [] => piece.isEmpty
  | c :: s => (after? piece (c :: s)).isSome || has piece s

/-- Whether a text comes before another one in the order of code points, or is the same. -/
def le : Text → Text → Bool
  | [], _ => true
  | _ :: _, [] => false
  | a :: s, b :: t => a.toNat < b.toNat || a == b && le s t

/-- The text up to and including the first `stop`, and what follows it. Without a `stop` everything
is taken. -/
def through (stop : Text) : Text → Text × Text
  | [] => ([], [])
  | c :: s =>
    match after? stop (c :: s) with
    | some rest => (stop, rest)
    | none => (c :: (through stop s).1, (through stop s).2)

def splitFrom (separator : Text) : Nat → Text → List Text
  | _, [] => [[]]
  | skip + 1, _ :: s => splitFrom separator skip s
  | 0, c :: s =>
    if (after? separator (c :: s)).isSome then [] :: splitFrom separator (separator.length - 1) s
    else (splitFrom separator 0 s).modifyHead (c :: ·)

/-- The pieces between the occurrences of a separator, taken from the left without overlap. -/
def splitOnText (separator s : Text) : List Text := splitFrom separator 0 s

def joinWith (separator : Text) (pieces : List Text) : Text := separator.intercalate pieces

def ofNat (n : Nat) : Text := Nat.toDigits 10 n

def isQuote (c : Char) : Bool := c == '"' || c == '\''

def unquote (s : Text) : Text :=
  match s with
  | quote :: inner =>
    if isQuote quote && inner.getLast? == some quote then inner.dropLast else s
  | [] => []

theorem after?_eq_some_iff {lead s rest : Text} : after? lead s = some rest ↔ s = lead ++ rest := by
  induction lead generalizing s with
  | nil => simp [after?, eq_comm]
  | cons l lead ih =>
    cases s with
    | nil => simp [after?]
    | cons c s => by_cases same : l = c <;> simp [after?, same, ih, eq_comm]

theorem through_append (stop s : Text) : (through stop s).1 ++ (through stop s).2 = s := by
  induction s with
  | nil => rfl
  | cons c s ih =>
    unfold through
    split
    · rename_i found
      exact (after?_eq_some_iff.mp found).symm
    · simpa using ih

end Text

/-! Indices that may be negative count from the end, so that the last element has index -1. -/

namespace Index

def get? (xs : List α) (index : Int) : Option α :=
  if 0 ≤ index then xs[index.toNat]?
  else if -index ≤ xs.length then xs[(xs.length + index).toNat]?
  else none

def position (xs : List α) (index : Int) : Nat :=
  if 0 ≤ index then index.toNat else (xs.length + index).toNat

def slice (xs : List α) (start stop : Int) : List α :=
  (xs.take (position xs stop)).drop (position xs start)

theorem get?_natCast (xs : List α) (index : Nat) : get? xs (index : Int) = xs[index]? := by
  simp [get?]

theorem slice_natCast (xs : List α) (start stop : Nat) :
    slice xs (start : Int) (stop : Int) = (xs.take stop).drop start := by
  simp [slice, position]

end Index

end GradlePublishing
