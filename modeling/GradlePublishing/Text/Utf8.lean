import GradlePublishing.Text.Basic
import GradlePublishing.Text.Quoted

/-!
Bytes as text. Decoding is strict and tells where and why it stops, either for all bytes at once or
block by block; line ends of all three kinds are read as one.
-/

namespace GradlePublishing.Text

inductive Utf8Reason
  | invalidStart
  | invalidContinuation
  | unexpectedEnd
  deriving DecidableEq, Repr

structure Utf8Fault where
  position : Nat
  bytes : List UInt8
  reason : Utf8Reason
  deriving DecidableEq, Repr

def Utf8Reason.message : Utf8Reason → Text
  | .invalidStart => "invalid start byte"
  | .invalidContinuation => "invalid continuation byte"
  | .unexpectedEnd => "unexpected end of data"

def Utf8Fault.message (fault : Utf8Fault) : Text :=
  let place :=
    match fault.bytes with
    | [byte] =>
      "byte 0x" ++ hexadecimal 2 byte.toNat ++ " in position " ++ ofNat fault.position
    | bytes =>
      "bytes in position " ++ ofNat fault.position ++ "-" ++
        ofNat (fault.position + bytes.length - 1)
  "'utf-8' codec can't decode " ++ place ++ ": " ++ fault.reason.message

/-- How many bytes follow a leading byte, and which range the first of them must lie in. -/
def leadingByte? (b : Nat) : Option (Nat × Nat × Nat) :=
  if 0xC2 ≤ b && b ≤ 0xDF then some (1, 0x80, 0xBF)
  else if b = 0xE0 then some (2, 0xA0, 0xBF)
  else if b = 0xED then some (2, 0x80, 0x9F)
  else if 0xE1 ≤ b && b ≤ 0xEF then some (2, 0x80, 0xBF)
  else if b = 0xF0 then some (3, 0x90, 0xBF)
  else if b = 0xF4 then some (3, 0x80, 0x8F)
  else if 0xF1 ≤ b && b ≤ 0xF3 then some (3, 0x80, 0xBF)
  else none

/-- Reads `count` continuation bytes, of which the first lies between `low` and `high`. On failure
gives the bytes accepted so far and whether the data ended. -/
def continuation (count low high : Nat) (bytes : List UInt8) :
    Except (List UInt8 × Utf8Reason) (List UInt8) :=
  match count, bytes with
  | 0, _ => .ok []
  | _ + 1, [] => .error ([], .unexpectedEnd)
  | count + 1, b :: rest =>
    if low ≤ b.toNat && b.toNat ≤ high then
      match continuation count 0x80 0xBF rest with
      | .ok more => .ok (b :: more)
      | .error (accepted, reason) => .error (b :: accepted, reason)
    else .error ([], .invalidContinuation)

def codePoint (lead : Nat) (more : List UInt8) : Nat :=
  let top := match more.length with
    | 1 => lead - 0xC0
    | 2 => lead - 0xE0
    | _ => lead - 0xF0
  more.foldl (fun code b => 64 * code + (b.toNat - 0x80)) top

/-- Decodes the rest of the bytes, of which the next is number `position`: the text up to the first
fault, and the fault. The first argument counts continuation bytes that were read already. -/
def decodeFrom : Nat → Nat → List UInt8 → Text × Option Utf8Fault
  | _, _, [] => ([], none)
  | skip + 1, position, _ :: rest => decodeFrom skip (position + 1) rest
  | 0, position, b :: rest =>
    if b.toNat < 0x80 then
      let (text, fault) := decodeFrom 0 (position + 1) rest
      (Char.ofNat b.toNat :: text, fault)
    else
      match leadingByte? b.toNat with
      | none => ([], some ⟨position, [b], .invalidStart⟩)
      | some (count, low, high) =>
        match continuation count low high rest with
        | .error (accepted, reason) => ([], some ⟨position, b :: accepted, reason⟩)
        | .ok more =>
          let (text, fault) := decodeFrom count (position + 1) rest
          (Char.ofNat (codePoint b.toNat more) :: text, fault)

def decodeAll (bytes : List UInt8) : Text × Option Utf8Fault := decodeFrom 0 0 bytes

/-- How many bytes are decoded at a time when a text is read line by line. -/
def blockSize : Nat := 8192

/-- Decodes bytes block by block, where `held` are the bytes of a character that the block before
has cut off: the text of the blocks before the first fault, and the fault with its position counted
from the first byte held. -/
def decodeBlocks (held : List UInt8) : List UInt8 → Text × Option Utf8Fault
  | [] => ([], (decodeAll held).2)
  | byte :: bytes =>
    let after := bytes.drop (blockSize - 1)
    match decodeAll (held ++ byte :: bytes.take (blockSize - 1)) with
    | (text, none) =>
      let (more, fault) := decodeBlocks [] after
      (text ++ more, fault)
    | (text, some fault) =>
      if fault.reason = .unexpectedEnd then
        let (more, later) := decodeBlocks fault.bytes after
        (text ++ more, later)
      else ([], some fault)
termination_by bytes => bytes.length
decreasing_by
  all_goals
    simp only [List.length_cons, List.length_drop]
    omega

/-- Reads every line end, be it one of two characters or one, as a line feed. -/
def unifyLineEnds : Text → Text
  | [] => []
  | '\r' :: '\n' :: s => '\n' :: unifyLineEnds s
  | '\r' :: s => '\n' :: unifyLineEnds s
  | c :: s => c :: unifyLineEnds s

def ofBytes? (bytes : List UInt8) : Option Text :=
  match decodeAll bytes with
  | (text, none) => some (unifyLineEnds text)
  | (_, some _) => none

def toBytes (s : Text) : List UInt8 := (String.ofList s).toUTF8.toList

end GradlePublishing.Text
