import GradlePublishing.Text.Basic

/-!
Hosts written as numbers. An address of version 4 is four octets between dots. One of version 6 is
eight groups of hexadecimal digits between colons, of which a run may be left out once; its last two
groups may be written as an address of version 4. A later version says its number itself.
-/

namespace GradlePublishing.Url.Address

/-- A number up to 255 in decimal digits, without zeros in front of it. -/
def isOctet (s : Text) : Bool :=
  let value := s.foldl (fun value c => 10 * value + (c.toNat - '0'.toNat)) 0
  !s.isEmpty && s.all Char.isDigit && s.length ≤ 3 && value ≤ 255 &&
    (s.length == 1 || s.head? != some '0')

def isVersion4 (s : Text) : Bool :=
  let octets := s.splitOn '.'
  octets.length == 4 && octets.all isOctet

def isHexDigit (c : Char) : Bool :=
  c.isDigit || ('a' ≤ c && c ≤ 'f') || ('A' ≤ c && c ≤ 'F')

def isGroup (s : Text) : Bool := !s.isEmpty && s.length ≤ 4 && s.all isHexDigit

/-- The number of groups between the colons of a text that ends an address. An address of version 4
in the last place counts as two. -/
def groupCount? : List Text → Option Nat
  | [] => some 0
  | [last] => if isGroup last then some 1 else if isVersion4 last then some 2 else none
  | group :: more => if isGroup group then (groupCount? more).map (· + 1) else none

def betweenColons (s : Text) : List Text := if s.isEmpty then [] else s.splitOn ':'

/-- Whether a text is eight groups, or fewer with a doubled colon in the place of the others. -/
def isGroups (s : Text) : Bool :=
  match Text.splitOnText "::" s with
  | [whole] => groupCount? (betweenColons whole) == some 8
  | [left, right] =>
    let before := betweenColons left
    before.all isGroup && (groupCount? (betweenColons right)).any fun count =>
      before.length + count < 8
  | _ => false

/-- Whether a text is an address of version 6. A scope may follow it after a per cent sign. -/
def isVersion6 (s : Text) : Bool :=
  match Text.cut? '%' s with
  | some (address, scope) => isGroups address && !scope.isEmpty && !scope.contains '%'
  | none => isGroups s

/-- Whether a text is an address of a later version: its number in hexadecimal digits after the
letter `v`, a dot, and the address. -/
def isLaterVersion (s : Text) : Bool :=
  match s with
  | 'v' :: s =>
    !(s.takeWhile isHexDigit).isEmpty &&
      (match s.dropWhile isHexDigit with
      | '.' :: address => !address.isEmpty
      | _ => false)
  | _ => false

end GradlePublishing.Url.Address
