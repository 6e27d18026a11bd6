import GradlePublishing.Proofs.Failure
import GradlePublishing.Proofs.FileTree
import GradlePublishing.Script.Applied

/-!
Scripts by their places in a file tree. The same place can be written in several ways, but the scripts
read there say the same, and what they apply is at the same places (`exists_load?_of_absolute`,
`map_absolute_appliedPaths`).
-/

namespace GradlePublishing.Script

theorem localPath?_eq (directory path : Text) :
    localPath? directory path =
      if Text.has "://" path || Property.hasReference path then none
      else some (Path.normalize (Path.join directory path)) := by
  unfold localPath?
  split
  · rfl
  · congr 2
    unfold Path.join
    by_cases rooted : Path.isAbsolute path = true
    · simp [rooted]
    · by_cases empty : directory = [] <;> simp [rooted, empty]

theorem isNormal_of_mem_appliedPaths {settings : Settings} {dialect : Dialect}
    {content path : Text} {table : Table} {paths : List Text}
    (applied : appliedPaths settings dialect content table path = .ok paths) {next : Text}
    (member : next ∈ paths) : Path.IsNormal next := by
  obtain ⟨resolved, -, found⟩ := bind_eq_ok_iff.mp applied
  cases found
  obtain ⟨text, -, found⟩ := List.mem_filterMap.mp member
  rw [localPath?_eq] at found
  split at found
  · cases found
  · exact ⟨_, (Option.some.inj found).symm⟩

theorem appliedPaths_congr {settings : Settings} {dialect : Dialect} {content path : Text}
    {table other : Table} (alike : ∀ written ∈ writtenPaths dialect content,
      Property.resolve settings table written = Property.resolve settings other written) :
    appliedPaths settings dialect content table path =
      appliedPaths settings dialect content other path := by
  rw [appliedPaths, appliedPaths, mapM_congr alike]

theorem appliedPaths_of_unwritten {dialect : Dialect} {content : Text}
    (unwritten : writtenPaths dialect content = []) (settings : Settings) (table : Table) (path : Text) :
    appliedPaths settings dialect content table path = .ok [] := by
  rw [appliedPaths, unwritten]
  rfl

theorem dialectOf_name (path : Text) : dialectOf path = dialectOf (Path.name path) := by
  rcases Path.cases_lastSlash path with whole | ⟨front, last, rfl, whole⟩
  · rw [Path.name_of_notMem whole]
  · have same : ".kts".toList <:+ front ++ '/' :: last ↔ ".kts".toList <:+ last := by
      constructor
      · intro ends
        have slash : ¬ ('/' :: last) <:+ ".kts".toList := fun inside =>
          absurd (inside.subset List.mem_cons_self) (by decide)
        have inside := (List.suffix_or_suffix_of_suffix ends (List.suffix_append front _)).resolve_right
          slash
        exact (List.suffix_cons_iff.mp inside).resolve_left fun same => slash (same ▸ List.suffix_rfl)
      · exact fun ends => (ends.trans (List.suffix_cons _ _)).trans (List.suffix_append _ _)
    rw [Path.name_slash front whole, dialectOf, dialectOf]
    simp only [List.isSuffixOf_iff_suffix, same]

theorem load?_of_notMem {tree : FileTree} {path : Text} (plain : FileTree.nullChar ∉ path) :
    load? tree path = .ok (((tree.bytes? path).bind Text.ofBytes?).map
      fun content => ⟨path, content, dialectOf path⟩) := by
  rw [load?, FileTree.readText, if_neg (by simpa using plain)]
  rfl

theorem load?_eq_ok_some_iff {tree : FileTree} {path : Text} {script : Script} :
    load? tree path = .ok (some script) ↔ FileTree.nullChar ∉ path ∧
      ∃ content bytes, tree.at? path = some (.file bytes) ∧ Text.ofBytes? bytes = some content ∧
        ⟨path, content, dialectOf path⟩ = script := by
  by_cases null : FileTree.nullChar ∈ path
  · have fails : load? tree path = .error .nullInPath := by
      rw [load?, FileTree.readText, if_pos (by simpa using null)]
      rfl
    simp [fails, null]
  · have file (bytes : List UInt8) :
        tree.bytes? path = some bytes ↔ tree.at? path = some (.file bytes) := by
      unfold FileTree.bytes?
      split <;> simp_all
    rw [load?_of_notMem null]
    simp only [Except.ok.injEq, Option.map_eq_some_iff, Option.bind_eq_some_iff, file, null,
      not_false_eq_true, true_and]
    constructor
    · rintro ⟨content, ⟨bytes, found, text⟩, same⟩
      exact ⟨content, bytes, found, text, same⟩
    · rintro ⟨content, bytes, found, text, same⟩
      exact ⟨content, ⟨bytes, found, text⟩, same⟩

theorem path_of_load? {tree : FileTree} {path : Text} {script : Script}
    (loaded : load? tree path = .ok (some script)) : script.path = path := by
  obtain ⟨-, content, bytes, -, -, rfl⟩ := load?_eq_ok_some_iff.mp loaded
  rfl

theorem isFile_of_load? {tree : FileTree} {path : Text} {script : Script}
    (loaded : load? tree path = .ok (some script)) : tree.isFile path = true := by
  obtain ⟨-, content, bytes, found, -, -⟩ := load?_eq_ok_some_iff.mp loaded
  rw [FileTree.isFile, found]

/-- Where the scripts are that a script applies depends on its own place, not on how its path is
written. -/
theorem map_absolute_appliedPaths (tree : FileTree) (settings : Settings) (dialect : Dialect)
    (content : Text) (table : Table) {path other : Text} (named : Path.IsName (Path.name path))
    (alsoNamed : Path.IsName (Path.name other)) (same : tree.absolute path = tree.absolute other) :
    (appliedPaths settings dialect content table path).map (List.map tree.absolute) =
      (appliedPaths settings dialect content table other).map (List.map tree.absolute) := by
  have below (text : Text) :
      (localPath? (Path.directory path) text).map tree.absolute =
        (localPath? (Path.directory other) text).map tree.absolute := by
    rw [localPath?_eq, localPath?_eq]
    split
    · rfl
    · exact congrArg some ((AbsolutePath.ofText_below tree.current named text).trans
        ((congrArg (fun place => AbsolutePath.ofText place.parent text) same).trans
          (AbsolutePath.ofText_below tree.current alsoNamed text).symm))
  unfold appliedPaths
  cases (writtenPaths dialect content).mapM (Property.resolve settings table) with
  | error failure => rfl
  | ok resolved =>
    change Except.ok _ = Except.ok _
    rw [List.map_filterMap, List.map_filterMap]
    exact congrArg _ (congrArg (List.filterMap · resolved) (funext below))

structure IsIn (tree : FileTree) (script : Script) : Prop where
  normal : Path.IsNormal script.path
  loaded : load? tree script.path = .ok (some script)

/-- A script applies another one if that can be read at one of its applied paths. -/
def Applies (settings : Settings) (tree : FileTree) (table : Table) (script next : Script) : Prop :=
  ∃ paths, appliedPaths settings script.dialect script.content table script.path = .ok paths ∧
    next.path ∈ paths ∧ load? tree next.path = .ok (some next)

section

variable {settings : Settings} {tree : FileTree} {table : Table} {script next : Script}

theorem applies_of_load? {paths : List Text} {path : Text}
    (applied : appliedPaths settings script.dialect script.content table script.path = .ok paths)
    (member : path ∈ paths) (loaded : load? tree path = .ok (some next)) :
    Applies settings tree table script next := by
  obtain rfl := path_of_load? loaded
  exact ⟨paths, applied, member, loaded⟩

theorem Applies.isIn (applies : Applies settings tree table script next) : next.IsIn tree := by
  obtain ⟨paths, applied, member, loaded⟩ := applies
  exact ⟨isNormal_of_mem_appliedPaths applied member, loaded⟩

variable (settled : tree.IsSettled)

include settled

theorem IsIn.isName (inside : script.IsIn tree) : Path.IsName (Path.name script.path) :=
  settled.isName_of_isFile inside.normal (isFile_of_load? inside.loaded)

theorem IsIn.exists_load? (plain : tree.HasPlainNames) (inside : script.IsIn tree) {path : Text}
    (normal : Path.IsNormal path) (same : tree.absolute path = tree.absolute script.path) :
    ∃ twin, load? tree path = .ok (some twin) ∧ twin.content = script.content ∧
      twin.dialect = script.dialect := by
  obtain ⟨-, content, bytes, found, text, whole⟩ := load?_eq_ok_some_iff.mp inside.loaded
  have there := settled.at?_of_absolute normal inside.normal same
  rw [found] at there
  have file : tree.isFile path = true := by rw [FileTree.isFile, there]
  have name : Path.name path = Path.name script.path := by
    apply Option.some.inj
    rw [← AbsolutePath.getLast?_ofText tree.current (inside.isName settled),
      ← AbsolutePath.getLast?_ofText tree.current (settled.isName_of_isFile normal file)]
    exact congrArg _ (congrArg _ same)
  refine ⟨⟨path, content, dialectOf path⟩, load?_eq_ok_some_iff.mpr
    ⟨plain.null_notMem_of_isFile file, content, bytes, there, text, rfl⟩, ?_, ?_⟩
  · rw [← whole]
  · rw [dialectOf_name, name, ← dialectOf_name, ← whole]

/-- What cannot be read under one path cannot be read under any other path to the same place. -/
theorem IsIn.absolute_ne (plain : tree.HasPlainNames) (inside : script.IsIn tree) {path : Text}
    (normal : Path.IsNormal path) (unreadable : ∀ twin, load? tree path ≠ .ok (some twin)) :
    tree.absolute script.path ≠ tree.absolute path := by
  intro same
  obtain ⟨twin, loaded, -⟩ := inside.exists_load? settled plain normal same.symm
  exact unreadable twin loaded

/-- Scripts that say the same at one place apply the same, up to how the paths are written. -/
theorem IsIn.exists_applies (plain : tree.HasPlainNames) {twin : Script}
    (inside : script.IsIn tree) (twinInside : twin.IsIn tree)
    (same : tree.absolute script.path = tree.absolute twin.path)
    (applies : Applies settings tree table script next) :
    ∃ other, Applies settings tree table twin other ∧
      tree.absolute other.path = tree.absolute next.path := by
  obtain ⟨content, dialect⟩ : twin.content = script.content ∧ twin.dialect = script.dialect := by
    obtain ⟨copy, loaded, content, dialect⟩ :=
      inside.exists_load? settled plain twinInside.normal same.symm
    rw [twinInside.loaded] at loaded
    cases loaded
    exact ⟨content, dialect⟩
  obtain ⟨paths, applied, member, loaded⟩ := applies
  have places := map_absolute_appliedPaths tree settings script.dialect script.content table
    (inside.isName settled) (twinInside.isName settled) same
  rw [applied, ← content, ← dialect] at places
  cases further : appliedPaths settings twin.dialect twin.content table twin.path with
  | error failure =>
    rw [further] at places
    cases places
  | ok others =>
    rw [further] at places
    have places : paths.map tree.absolute = others.map tree.absolute := Except.ok.inj places
    have there : tree.absolute next.path ∈ others.map tree.absolute :=
      places ▸ List.mem_map_of_mem member
    obtain ⟨other, listed, place⟩ := List.mem_map.mp there
    have nextInside : next.IsIn tree := ⟨isNormal_of_mem_appliedPaths applied member, loaded⟩
    obtain ⟨copy, loaded, -, -⟩ := nextInside.exists_load? settled plain
      (isNormal_of_mem_appliedPaths further listed) place
    refine ⟨copy, applies_of_load? further listed loaded, ?_⟩
    rw [path_of_load? loaded, place]

end

end GradlePublishing.Script
