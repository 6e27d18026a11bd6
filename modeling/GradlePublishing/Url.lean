import GradlePublishing.Text.Quoted
import GradlePublishing.Url.Address

/-!
The parts of a URL: `scheme:`, `//authority`, the path, `?query` and `#fragment`, of which all but
the path may be absent. A URL is refused for brackets that do not enclose an address, and for
characters in its authority that a reader could take for separators.
-/

namespace GradlePublishing

inductive UrlFault
  | brackets
  | notAnAddress (host : Text)
  | bracketedVersion4
  | malformedVersion
  | lookalike (authority : Text)
  deriving DecidableEq, Repr

def UrlFault.message : UrlFault → Text
  | .brackets => "Invalid IPv6 URL"
  | .notAnAddress host => Text.quoted host ++ " does not appear to be an IPv4 or IPv6 address"
  | .bracketedVersion4 => "An IPv4 address cannot be in brackets"
  | .malformedVersion => "IPvFuture address is invalid"
  | .lookalike authority =>
    "netloc '" ++ authority ++ "' contains invalid characters under NFKC normalization"

structure Url where
  scheme : Text
  authority : Text
  path : Text
  query : Text
  fragment : Text
  deriving DecidableEq, Repr

namespace Url

/-- Removes leading controls and spaces, then line breaks and tabs everywhere. -/
def clean (s : Text) : Text :=
  (s.dropWhile fun c => c.toNat ≤ 0x20).filter fun c => c != '\t' && c != '\n' && c != '\r'

def isSchemeChar (c : Char) : Bool := c.isAlphanum || c == '+' || c == '-' || c == '.'

def cutScheme (s : Text) : Text × Text :=
  match Text.cut? ':' s with
  | some (c :: scheme, rest) =>
    if c.isAlpha && scheme.all isSchemeChar then ((c :: scheme).map Char.toLower, rest)
    else ([], s)
  | _ => ([], s)

def endsAuthority (c : Char) : Bool := c == '/' || c == '?' || c == '#'

def cutAuthority (s : Text) : Text × Text :=
  match Text.after? "//" s with
  | some rest =>
    (rest.takeWhile (!endsAuthority ·), rest.dropWhile (!endsAuthority ·))
  | none => ([], s)

def cutAt (mark : Char) (s : Text) : Text × Text := (Text.cut? mark s).getD (s, [])

/-- The characters outside ASCII whose compatibility form holds one of `/?#@:`. -/
def lookalikes : List Nat :=
  [0x2047, 0x2048, 0x2049, 0x2100, 0x2101, 0x2105, 0x2106, 0x2A74, 0xFE13, 0xFE16, 0xFE55, 0xFE56,
    0xFE5F, 0xFE6B, 0xFF03, 0xFF0F, 0xFF1A, 0xFF1F, 0xFF20]

/-- The host in an authority with brackets, which follows the last `@`. Nothing stands before the
opening bracket, and nothing but a port behind the closing one. -/
def bracketedHost? (authority : Text) : Option Text :=
  let hostAndPort := Text.afterLast '@' authority
  match Text.cut? '[' hostAndPort with
  | some ([], bracketed) =>
    match cutAt ']' bracketed with
    | (host, []) => some host
    | (host, ':' :: _) => some host
    | _ => none
  | some _ => none
  | none => some (cutAt ':' hostAndPort).1

/-- The fault in a host for which there are brackets: it is an address of version 6 or later. -/
def hostFault? (host : Text) : Option UrlFault :=
  if host.head? == some 'v' then
    if Address.isLaterVersion host then none else some .malformedVersion
  else if Address.isVersion4 host then some .bracketedVersion4
  else if Address.isVersion6 host then none
  else some (.notAnAddress host)

def bracketFault? (authority : Text) : Option UrlFault :=
  match authority.contains '[', authority.contains ']' with
  | false, false => none
  | true, true =>
    match bracketedHost? authority with
    | some host => hostFault? host
    | none => some .brackets
  | _, _ => some .brackets

def authorityFault? (authority : Text) : Option UrlFault :=
  (bracketFault? authority).or
    (if authority.any (lookalikes.contains ·.toNat) then some (.lookalike authority) else none)

def split (s : Text) : Except UrlFault Url :=
  let (scheme, rest) := cutScheme (clean s)
  let (authority, rest) := cutAuthority rest
  match authorityFault? authority with
  | some fault => .error fault
  | none =>
    let (rest, fragment) := cutAt '#' rest
    let (path, query) := cutAt '?' rest
    .ok ⟨scheme, authority, path, query, fragment⟩

def segments (path : Text) : List Text := (path.splitOn '/').filter (!·.isEmpty)

end Url

end GradlePublishing
