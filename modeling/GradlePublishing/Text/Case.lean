import GradlePublishing.Text.Basic
import GradlePublishing.Text.CaseTable

/-!
Upper and lower case of a text in all scripts. A character may become several, and a capital sigma
at the end of a word has its own lower case form.
-/

namespace GradlePublishing.Text

def shift? (runs : List CaseTable.Run) (code : Nat) : Option Nat :=
  (runs.find? fun run =>
    run.first ≤ code && code ≤ run.last && (code - run.first) % run.step == 0).map
    fun run => run.target + (code - run.first)

def isCased (c : Char) : Bool := inRanges CaseTable.casedRanges c.toNat

def isCaseTransparent (c : Char) : Bool := inRanges CaseTable.transparentRanges c.toNat

def facesCased (s : Text) : Bool := (s.find? fun c => !isCaseTransparent c).any isCased

/-- The lower case of a character that is not a capital sigma. -/
def lowerChar (c : Char) : Text :=
  if c.toNat < 128 then [c.toLower]
  else if c.toNat = 0x130 then ['i', Char.ofNat 0x307]
  else [((shift? CaseTable.lowerRuns c.toNat).map Char.ofNat).getD c]

/-- Lower case of the rest of a text after the characters `before`, given from the nearest on. -/
def lowerFrom (before : Text) : Text → Text
  | [] => []
  | c :: s =>
    if c.toNat = 0x3A3 then
      let atWordEnd := facesCased before && !facesCased s
      Char.ofNat (if atWordEnd then 0x3C2 else 0x3C3) :: lowerFrom (c :: before) s
    else lowerChar c ++ lowerFrom (c :: before) s

def lower (s : Text) : Text := lowerFrom [] s

def upperChar (c : Char) : Text :=
  if c.toNat < 128 then [c.toUpper]
  else
    match CaseTable.upperSpecial.lookup c.toNat with
    | some codes => codes.map Char.ofNat
    | none => [((shift? CaseTable.upperRuns c.toNat).map Char.ofNat).getD c]

def upper (s : Text) : Text := s.flatMap upperChar

end GradlePublishing.Text
