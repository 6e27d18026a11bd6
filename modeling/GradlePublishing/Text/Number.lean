import GradlePublishing.Text.Basic

/-!
Integers as people write them in settings: an optional sign and decimal digits of any script, with
single underscores between digits and blanks around the whole. The digits come in runs of ten
consecutive code points, from zero to nine.
-/

namespace GradlePublishing.Text

namespace DigitTable

/-- The code points of the digit zero in every script. -/
def zeros : List Nat := [
  0x30, 0x660, 0x6F0, 0x7C0, 0x966, 0x9E6, 0xA66, 0xAE6, 0xB66, 0xBE6, 0xC66, 0xCE6, 0xD66,
  0xDE6, 0xE50, 0xED0, 0xF20, 0x1040, 0x1090, 0x17E0, 0x1810, 0x1946, 0x19D0, 0x1A80, 0x1A90,
  0x1B50, 0x1BB0, 0x1C40, 0x1C50, 0xA620, 0xA8D0, 0xA900, 0xA9D0, 0xA9F0, 0xAA50, 0xABF0, 0xFF10,
  0x104A0, 0x10D30, 0x11066, 0x110F0, 0x11136, 0x111D0, 0x112F0, 0x11450, 0x114D0, 0x11650,
  0x116C0, 0x11730, 0x118E0, 0x11950, 0x11C50, 0x11D50, 0x11DA0, 0x16A60, 0x16AC0, 0x16B50,
  0x1D7CE, 0x1D7D8, 0x1D7E2, 0x1D7EC, 0x1D7F6, 0x1E140, 0x1E2F0, 0x1E950, 0x1FBF0]

end DigitTable

def digitValue? (c : Char) : Option Nat :=
  (DigitTable.zeros.find? fun start => start ≤ c.toNat && c.toNat < start + 10).map (c.toNat - ·)

/-- The blanks allowed around a number: the information separators are not among them. -/
def isNumberBlank (c : Char) : Bool := isBlank c && !(0x1C ≤ c.toNat && c.toNat ≤ 0x1F)

/-- The digits of a number, where every underscore stands between two digits. -/
def digits? : Text → Option (List Nat)
  | [] => none
  | [c] => (digitValue? c).map ([·])
  | c :: '_' :: s => do return (← digitValue? c) :: (← digits? s)
  | c :: s => do return (← digitValue? c) :: (← digits? s)

def maxDigits : Nat := 4300

def natural? (s : Text) : Option Nat := do
  let digits ← digits? s
  if maxDigits < digits.length then none
  else some (digits.foldl (fun value digit => 10 * value + digit) 0)

def integer? (s : Text) : Option Int :=
  match dropEndWhile isNumberBlank (s.dropWhile isNumberBlank) with
  | '-' :: s => (natural? s).map fun n => -(n : Int)
  | '+' :: s => (natural? s).map fun n => (n : Int)
  | s => (natural? s).map fun n => (n : Int)

end GradlePublishing.Text
