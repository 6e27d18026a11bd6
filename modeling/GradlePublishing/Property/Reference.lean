import GradlePublishing.Script.Pattern
import GradlePublishing.Settings.Known

/-!
References to properties in a value: `${name}` and `$name`. A value is cut into plain characters
and references, the references are replaced by property values, and these are resolved in turn, up
to a limit. What cannot be replaced stays as it is written.
-/

namespace GradlePublishing.Property

open GradlePublishing.Script

inductive Piece (α : Type)
  | plain (c : Char)
  | reference (target : α)
  deriving DecidableEq, Repr

def bracedBody? (s : Text) : Option (Text × Text) :=
  match s with
  | '{' :: s =>
    match s.takeWhile (· != '}'), s.dropWhile (· != '}') with
    | c :: body, '}' :: rest => some (c :: body, rest)
    | _, _ => none
  | _ => none

theorem length_bracedBody? {s body rest : Text} (found : bracedBody? s = some (body, rest)) :
    rest.length < s.length := by
  unfold bracedBody? at found
  split at found
  · rename_i s
    split at found
    · rename_i same
      cases found
      have shorter := (List.dropWhile_suffix (l := s) (· != '}')).length_le
      rw [same] at shorter
      simp only [List.length_cons] at shorter ⊢
      omega
    · cases found
  · cases found

/-- Cuts a value at its references of the form `${body}`. -/
def bracedPieces : Text → List (Piece Text)
  | [] => []
  | '$' :: s =>
    match _ : bracedBody? s with
    | some (body, rest) => .reference body :: bracedPieces rest
    | none => .plain '$' :: bracedPieces s
  | c :: s => .plain c :: bracedPieces s
termination_by s => s.length
decreasing_by
  · have := length_bracedBody? ‹_›
    simp only [List.length_cons]
    omega
  all_goals simp

def dottedNames (s : Text) : List Text × Text :=
  match _ : name? (fun _ => false) s with
  | none => ([], s)
  | some (name, '.' :: rest) =>
    match dottedNames rest with
    | ([], _) => ([name], '.' :: rest)
    | (more, after) => (name :: more, after)
  | some (name, rest) => ([name], rest)
termination_by s.length
decreasing_by
  have := length_name? ‹_›
  simp only [List.length_cons] at this
  omega

theorem length_dottedNames (s : Text) : (dottedNames s).2.length ≤ s.length := by
  fun_induction dottedNames s with
  | case1 => simp
  | case2 s name rest found after same ih =>
    have := length_name? found
    exact Nat.le_of_lt this
  | case3 s name rest found more after same ih =>
    have := length_name? found
    simp only [List.length_cons] at this
    simp_all
    omega
  | case4 s name rest found other =>
    have := length_name? (by assumption)
    exact Nat.le_of_lt this

/-- Cuts a value at its references of the form `$name`. -/
def namePieces : Text → List (Piece (List Text))
  | [] => []
  | '$' :: s =>
    match _ : dottedNames s with
    | ([], _) => .plain '$' :: namePieces s
    | (names, rest) => .reference names :: namePieces rest
  | c :: s => .plain c :: namePieces s
termination_by s => s.length
decreasing_by
  · simp
  · have shorter := length_dottedNames s
    rw [‹dottedNames s = _›] at shorter
    simp only [List.length_cons] at shorter ⊢
    omega
  · simp

/-- The prefixes that name the project itself and do not count. -/
def projectPrefixes : List Text := ["project.", "rootProject."]

def dropProject (name : Text) : Text :=
  (projectPrefixes.findSome? (Text.after? · name)).getD name

/-- The name in a call `findProperty("name")`. -/
def soughtName? (s : Text) : Option Text :=
  match Text.after? "findProperty(" s with
  | some (quote :: inner) =>
    match inner.reverse with
    | ')' :: close :: name =>
      if Text.isQuote quote && close = quote && !name.isEmpty && !name.contains '\n' then
        some name.reverse
      else none
    | _ => none
  | _ => none

def bracedKey (body : Text) : Text :=
  let key := dropProject (Text.strip body)
  (soughtName? key).getD key

def bracedText (body : Text) : Text := '$' :: '{' :: body ++ ['}']

def nameText (names : List Text) : Text := '$' :: Text.joinWith ['.'] names

/-- The value that replaces a braced reference. A reference to itself is not replaced. -/
def bracedValue? (table : Table) (body : Text) : Option Text :=
  let key := bracedKey body
  if key.head? == some '$' then none
  else if key.isEmpty then none
  else (table.value? key).filter (· != bracedText body)

/-- The value of the longest known name that starts with `known` names or fewer, and the names
behind it. -/
def longestKnown? (table : Table) (names : List Text) : Nat → Option (Text × List Text)
  | 0 => none
  | count + 1 =>
    let name := Text.joinWith ['.'] (names.take (count + 1))
    match (table.value? name).filter (· != '$' :: name) with
    | some value => some (value, names.drop (count + 1))
    | none => longestKnown? table names count

/-- The value that replaces a plain reference, and the names that stay behind it. The full name
counts first, then the name without a project prefix, then its longest known beginning. -/
def nameValue? (table : Table) (names : List Text) : Option (Text × List Text) :=
  let full := Text.joinWith ['.'] names
  let keys := full :: projectPrefixes.filterMap (Text.after? · full)
  match keys.findSome? table.value? with
  | some value => if value = nameText names then none else some (value, [])
  | none => longestKnown? table names (names.length - 1)

def replaceBraced (table : Table) (resolve : Text → Text) (value : Text) : Text :=
  (bracedPieces value).flatMap fun piece =>
    match piece with
    | .plain c => [c]
    | .reference body =>
      match bracedValue? table body with
      | some replacement => resolve replacement
      | none => bracedText body

def replaceNames (table : Table) (resolve : Text → Text) (value : Text) : Text :=
  (namePieces value).flatMap fun piece =>
    match piece with
    | .plain c => [c]
    | .reference names =>
      match nameValue? table names with
      | some (replacement, rest) => resolve replacement ++ rest.flatMap ('.' :: ·)
      | none => nameText names

/-- Resolves the references in a value, at most `levels` deep. -/
def expand (table : Table) : Nat → Text → Text
  | 0, value => value
  | levels + 1, value =>
    replaceNames table (expand table levels) (replaceBraced table (expand table levels) value)

/-- Resolves the references in a value. Replacements may hold references themselves, down to
`depth`. -/
def resolveTo (depth : Int) (table : Table) (value : Text) : Text :=
  if value.contains '$' then expand table (depth + 1).toNat value else value

def resolve (settings : Settings) (table : Table) (value : Text) : Except Failure Text :=
  if value.contains '$' then
    settings.maxPropertyDepth.map fun depth => resolveTo depth table value
  else .ok value

/-- Whether what follows a `$` makes it a reference: a name, or a pair of braces. -/
def opensReference : Text → Bool
  | '{' :: s => s.contains '}'
  | c :: _ => c.isAlpha || c == '_'
  | [] => false

def hasReference : Text → Bool
  | [] => false
  | '$' :: s => opensReference s || hasReference s
  | _ :: s => hasReference s

end GradlePublishing.Property
