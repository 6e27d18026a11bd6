import GradlePublishing.Text.Basic

/-!
File paths with slashes. Joining and normalising work on the text alone; exactly two leading
slashes are kept apart from one.
-/

namespace GradlePublishing

namespace Path

def isAbsolute (path : Text) : Bool := path.head? == some '/'

/-- The leading slashes that normalising keeps. -/
def root (path : Text) : Text :=
  match path with
  | '/' :: '/' :: '/' :: _ => ['/']
  | '/' :: '/' :: _ => ['/', '/']
  | '/' :: _ => ['/']
  | _ => []

/-- Puts `path` behind `base`, unless it is absolute. -/
def join (base path : Text) : Text :=
  if isAbsolute path then path
  else if base.isEmpty || base.getLast? == some '/' then base ++ path
  else base ++ '/' :: path

/-- Adds a component to components that are kept in reverse. A `..` takes one away, and stays only
where there is none above it. -/
def addComponent (isRooted : Bool) (above : List Text) (component : Text) : List Text :=
  if component.isEmpty || component = ['.'] then above
  else if component = ['.', '.'] then
    match above with
    | [] => if isRooted then [] else [component]
    | last :: rest => if last = ['.', '.'] then component :: above else rest
  else component :: above

def components (path : Text) : List Text :=
  ((path.splitOn '/').foldl (addComponent (isAbsolute path)) []).reverse

def normalize (path : Text) : Text :=
  match root path ++ Text.joinWith ['/'] (components path) with
  | [] => ['.']
  | normal => normal

def directory (path : Text) : Text :=
  let head := Text.dropEndWhile (· != '/') path
  if head.all (· == '/') then head else Text.dropEndWhile (· == '/') head

def name (path : Text) : Text := Text.afterLast '/' path

end Path

/-- A normalised absolute path. It may start with two slashes, which makes it a path of its own
that leads to the same place. -/
structure AbsolutePath where
  doubled : Bool
  components : List Text
  deriving DecidableEq, Repr

namespace AbsolutePath

/-- The normalised form of a path that starts at `base` unless it is absolute. -/
def ofText (base : AbsolutePath) (path : Text) : AbsolutePath :=
  if Path.isAbsolute path then ⟨Path.root path == ['/', '/'], Path.components path⟩
  else
    ⟨base.doubled,
      ((path.splitOn '/').foldl (Path.addComponent true) base.components.reverse).reverse⟩

def toText (path : AbsolutePath) : Text :=
  (if path.doubled then ['/', '/'] else ['/']) ++ Text.joinWith ['/'] path.components

def commonLength : List Text → List Text → Nat
  | a :: as, b :: bs => if a = b then commonLength as bs + 1 else 0
  | _, _ => 0

def relativeTo (start path : AbsolutePath) : Text :=
  let shared := commonLength start.components path.components
  let steps := List.replicate (start.components.length - shared) (['.', '.'] : Text) ++
    path.components.drop shared
  if steps.isEmpty then ['.'] else Text.joinWith ['/'] steps

end AbsolutePath

end GradlePublishing
