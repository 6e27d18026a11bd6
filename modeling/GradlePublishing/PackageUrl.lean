import GradlePublishing.Text.Utf8

/-!
A writer of package URLs for Maven artifacts: `pkg:maven/group/artifact@version`, where a group or a
version that is empty is left out with its separator. The program takes a writer as a parameter
(`CommandLine.Surroundings.writePackageUrl`) and this one stands in for the library when it is
executed; nothing that is proved about a run depends on it.
-/

namespace GradlePublishing.PackageUrl

def isPlain (b : UInt8) : Bool :=
  let c := Char.ofNat b.toNat
  b.toNat < 0x80 && (c.isAlphanum || c ∈ ['-', '.', '_', '~', ':', '/'])

def encodeByte (b : UInt8) : Text :=
  if isPlain b then [Char.ofNat b.toNat] else '%' :: (Text.hexadecimal 2 b.toNat).map Char.toUpper

def encode (s : Text) : Text := s.toBytes.flatMap encodeByte

def trim (s : Text) : Text :=
  Text.dropEndWhile (· == '/') ((Text.strip s).dropWhile (· == '/'))

def groupParts (group : Text) : List Text :=
  (trim group).splitOn '/' |>.filter fun part => !(Text.strip part).isEmpty

/-- The group without blanks and slashes around it and without empty parts. -/
def cleanGroup (group : Text) : Text := Text.joinWith ['/'] (groupParts group)

def groupText (group : Text) : Text :=
  match groupParts (cleanGroup group) with
  | [] => []
  | parts => Text.joinWith ['/'] (parts.map encode) ++ ['/']

def versionText (version : Text) : Text :=
  match Text.strip version with
  | [] => []
  | version => '@' :: encode version

inductive Refusal
  | empty
  | blank
  deriving DecidableEq, Repr

def Refusal.message : Refusal → Text
  | empty => "The artifact of a package URL is empty."
  | blank => "The artifact of a package URL is blank."

/-- The package URL of an artifact, whose name cannot be empty or consist of blanks and slashes. -/
def render (group artifact version : Text) : Except Refusal Text :=
  match trim artifact with
  | [] => .error (if artifact.isEmpty then .empty else .blank)
  | artifact => .ok ("pkg:maven/" ++ groupText group ++ encode artifact ++ versionText version)

end GradlePublishing.PackageUrl
