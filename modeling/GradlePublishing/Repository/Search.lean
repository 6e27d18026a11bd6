import GradlePublishing.Property.Declaration
import GradlePublishing.Repository.Declared
import GradlePublishing.Repository.Property
import GradlePublishing.Script.Applied

/-!
The search for a repository in a script and in the scripts it applies. A script that declares no
usable repository hands the search on to the scripts it applies, one after the other, with its own
extra properties below theirs. Every path is read at most once in a search, so it ends.
-/

namespace GradlePublishing.Repository

structure Search where
  settings : Settings
  tree : FileTree
  /-- The properties below those of the scripts. -/
  base : Table
  /-- The properties above those of the scripts. -/
  overriding : Table
  isSnapshot : Bool

structure Pending where
  path : Text
  inherited : Table
  deriving DecidableEq, Repr

/-- What a script contributes to a search: a repository key, or the scripts to go on with. -/
inductive Finding
  | key (key : Text)
  | applied (pending : List Pending)
  deriving DecidableEq, Repr

structure Outcome where
  visited : List AbsolutePath
  result : Except Failure (Option Text)

namespace Search

def isUsable (url : Text) : Bool := !Property.hasReference url && !isDotted url

/-- The extra properties of a script over those it inherits. -/
def extraOf (inherited : Table) (script : Script) : Table :=
  Table.merge [inherited, Property.extra script.content]

def tableOf (search : Search) (inherited : Table) (script : Script) : Table :=
  Table.merge [search.base, extraOf inherited script, search.overriding]

def appliedBy (search : Search) (inherited : Table) (script : Script) :
    Except Failure (List Pending) := do
  let table := search.tableOf inherited script
  let paths ← Script.appliedPaths search.settings script.dialect script.content table script.path
  return paths.map (⟨·, extraOf inherited script⟩)

/-- Looks for a repository in a script alone. A single URL that cannot be resolved is an error. -/
def inspect (search : Search) (inherited : Table) (script : Script) : Except Failure Finding := do
  let table := search.tableOf inherited script
  let written ← declaredUrls search.settings script.dialect script.content
  let urls ← written.mapM (Property.resolve search.settings table)
  let usable := urls.filter isUsable
  if !usable.isEmpty then
    return .key (← selectUrl search.settings search.isSnapshot script.path usable)
  match written.eraseDups, urls.filter Property.hasReference with
  | [_], url :: _ => throw (.unresolvedUrl url script.path)
  | _, _ => return .applied (← search.appliedBy inherited script)

/-- The files that a search has not come by, each under both forms of its path. -/
def unread (tree : FileTree) (visited : List AbsolutePath) : List AbsolutePath :=
  (tree.files.flatMap fun components => [⟨false, components⟩, ⟨true, components⟩]).filter
    (· ∉ visited)

theorem unread_cons (tree : FileTree) (visited : List AbsolutePath) (path : AbsolutePath) :
    unread tree (path :: visited) = (unread tree visited).filter (· ≠ path) := by
  simp [unread, List.filter_filter, not_or]

theorem length_unread_cons (tree : FileTree) (visited : List AbsolutePath) (path : AbsolutePath) :
    (unread tree (path :: visited)).length ≤ (unread tree visited).length := by
  rw [unread_cons]
  exact List.length_filter_le _ _

theorem mem_unread {tree : FileTree} {visited : List AbsolutePath} {path : AbsolutePath}
    (held : path.components ∈ tree.files) (fresh : path ∉ visited) :
    path ∈ unread tree visited := by
  refine List.mem_filter.mpr ⟨List.mem_flatMap.mpr ⟨path.components, held, ?_⟩, by simpa⟩
  obtain ⟨doubled, components⟩ := path
  cases doubled <;> simp

theorem length_unread_of_load? {tree : FileTree} {visited : List AbsolutePath} {path : Text}
    {script : Script} (fresh : tree.absolute path ∉ visited)
    (loaded : Script.load? tree path = .ok (some script)) :
    (unread tree (tree.absolute path :: visited)).length < (unread tree visited).length := by
  have held : (tree.absolute path).components ∈ tree.files := by
    obtain ⟨bytes, found⟩ := Script.bytes?_of_load? loaded
    exact FileTree.mem_files_of_bytes? found
  rw [unread_cons]
  exact List.length_filter_lt_length_iff_exists.mpr
    ⟨tree.absolute path, mem_unread held fresh, by simp⟩

/-- Goes on with the pending scripts. One that was visited before, or that cannot be read, is passed
over, and so is one that declares repositories without a key. -/
def follow (search : Search) (visited : List AbsolutePath) : List Pending → Outcome
  | [] => ⟨visited, .ok none⟩
  | next :: rest =>
    let path := search.tree.absolute next.path
    if path ∈ visited then follow search visited rest
    else
      match _ : Script.load? search.tree next.path with
      | .error failure => ⟨path :: visited, .error failure⟩
      | .ok none => follow search (path :: visited) rest
      | .ok (some script) =>
        match search.inspect next.inherited script with
        | .error failure =>
          if failure.isAbsence then follow search (path :: visited) rest
          else ⟨path :: visited, .error failure⟩
        | .ok (.key key) => ⟨path :: visited, .ok (some key)⟩
        | .ok (.applied pending) => follow search (path :: visited) (pending ++ rest)
termination_by pending => ((unread search.tree visited).length, pending.length)
decreasing_by
  · exact .right _ (by simp)
  · exact Prod.Lex.right' _ (length_unread_cons _ _ _) (by simp)
  · exact Prod.Lex.right' _ (length_unread_cons _ _ _) (by simp)
  · exact .left _ _ (length_unread_of_load? ‹_› ‹_›)

def run (search : Search) (inherited : Table) (script : Script) : Outcome :=
  let visited := [search.tree.absolute script.path]
  match search.inspect inherited script with
  | .error failure => ⟨visited, .error failure⟩
  | .ok (.key key) => ⟨visited, .ok (some key)⟩
  | .ok (.applied pending) => search.follow visited pending

def keyOfScript (search : Search) (inherited : Table) (script : Script) : Except Failure Text := do
  match ← (search.run inherited script).result with
  | some key => return key
  | none => throw (.noRepository script.path)

end Search

end GradlePublishing.Repository
