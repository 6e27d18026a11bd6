import GradlePublishing.FileTree
import GradlePublishing.Proofs.Path
import Mathlib.Data.List.Infix

/-!
Paths in a file tree. A path that leads somewhere holds no character that the names in the tree do not
hold (`null_notMem_of_at?`).
-/

namespace GradlePublishing

namespace FileTree

def HasPlainNames (tree : FileTree) : Prop :=
  ∀ node ∈ tree.nodes, ∀ name ∈ node.1, nullChar ∉ name

instance (tree : FileTree) : Decidable tree.HasPlainNames :=
  inferInstanceAs (Decidable (∀ node ∈ tree.nodes, ∀ name ∈ node.1, nullChar ∉ name))

variable {tree : FileTree}

theorem HasPlainNames.notMem_of_node? (plain : tree.HasPlainNames) {components : List Text}
    {node : Node} (found : tree.node? components = some node) :
    ∀ name ∈ components, nullChar ∉ name := by
  intro name member
  unfold node? at found
  split at found
  · rename_i empty
    rw [List.isEmpty_iff.mp empty] at member
    cases member
  · obtain ⟨before, after, same, -⟩ := List.lookup_eq_some_iff.mp found
    have inside : (components, node) ∈ tree.nodes := by
      rw [same]
      exact List.mem_append_right _ List.mem_cons_self
    exact plain _ inside name member

/-- The components of a path that can be followed are in the tree one after the other. -/
theorem HasPlainNames.notMem_of_obstacleFrom? (plain : tree.HasPlainNames) {path above : List Text}
    {node : Node} (unobstructed : tree.obstacleFrom? above path = none)
    (found : tree.node? (path.foldl (Path.addComponent true) above).reverse = some node) :
    ∀ component ∈ path, nullChar ∉ component := by
  induction path generalizing above with
  | nil => exact nofun
  | cons component rest ih =>
    rw [obstacleFrom?] at unobstructed
    split at unobstructed
    · cases unobstructed
    · cases unobstructed
    · have next : ∃ node, tree.node? (Path.addComponent true above component).reverse = some node := by
        cases rest with
        | nil => exact ⟨node, found⟩
        | cons other rest =>
          unfold obstacleFrom? at unobstructed
          split at unobstructed
          · cases unobstructed
          · cases unobstructed
          · exact ⟨_, ‹_›⟩
      obtain ⟨passed, held⟩ := next
      intro name member
      rcases List.mem_cons.mp member with rfl | later
      · intro null
        have added : Path.addComponent true above name = name :: above := by
          unfold Path.addComponent
          have filled : name ≠ [] := List.ne_nil_of_mem null
          have notDot : name ≠ ['.'] := by rintro rfl; revert null; decide
          have notDots : name ≠ ['.', '.'] := by rintro rfl; revert null; decide
          simp [filled, notDot, notDots]
        rw [added] at held
        exact plain.notMem_of_node? held name (by simp) null
      · exact ih unobstructed found name later

theorem at?_eq_some {path : Text} {node : Node} (found : tree.at? path = some node) :
    ∃ above, tree.obstacleFrom? above (path.splitOn '/') = none ∧
      tree.node? ((path.splitOn '/').foldl (Path.addComponent true) above).reverse = some node := by
  unfold at? obstacle? at found
  split at found
  · cases found
  · rename_i unobstructed
    split at unobstructed
    · cases unobstructed
    · refine ⟨_, unobstructed, ?_⟩
      rw [absolute, AbsolutePath.ofText] at found
      split at found
      · rename_i rooted
        rw [if_pos rooted]
        rwa [Path.components, rooted] at found
      · rename_i relative
        rwa [if_neg relative]

theorem HasPlainNames.null_notMem_of_at? (plain : tree.HasPlainNames) {path : Text} {node : Node}
    (found : tree.at? path = some node) : nullChar ∉ path := by
  intro null
  obtain ⟨above, unobstructed, last⟩ := at?_eq_some found
  obtain ⟨piece, inside, held⟩ : ∃ piece ∈ path.splitOn '/', nullChar ∈ piece :=
    Text.exists_mem_splitOn null (by decide)
  exact plain.notMem_of_obstacleFrom? unobstructed last piece inside held

theorem HasPlainNames.null_notMem_of_isFile (plain : tree.HasPlainNames) {path : Text}
    (file : tree.isFile path = true) : nullChar ∉ path := by
  unfold isFile at file
  split at file
  · exact plain.null_notMem_of_at? ‹_›
  · cases file

theorem HasPlainNames.null_notMem_of_isDirectory (plain : tree.HasPlainNames) {path : Text}
    (directory : tree.isDirectory path = true) : nullChar ∉ path :=
  plain.null_notMem_of_at? (beq_iff_eq.mp directory)

/-! Normalised paths. -/

/-- A directory, in reverse, that is there with all those above it. -/
structure Stands (tree : FileTree) (above : List Text) : Prop where
  named : ∀ name ∈ above, Path.IsName name
  held : ∀ upper ∈ above.tails, tree.node? upper.reverse = some .directory

instance (tree : FileTree) (above : List Text) : Decidable (tree.Stands above) :=
  decidable_of_iff ((∀ name ∈ above, Path.IsName name) ∧
      ∀ upper ∈ above.tails, tree.node? upper.reverse = some .directory)
    ⟨fun both => ⟨both.1, both.2⟩, fun stands => ⟨stands.named, stands.held⟩⟩

/-- The working directory is there. -/
def IsSettled (tree : FileTree) : Prop := tree.Stands tree.current.components.reverse

instance (tree : FileTree) : Decidable tree.IsSettled :=
  inferInstanceAs (Decidable (tree.Stands _))

theorem stands_root (tree : FileTree) : tree.Stands [] := by
  refine ⟨nofun, fun upper member => ?_⟩
  rw [List.suffix_nil.mp ((List.mem_tails _ _).mp member)]
  rfl

theorem Stands.of_suffix {above upper : List Text} (stands : tree.Stands above)
    (further : upper <:+ above) : tree.Stands upper := by
  refine ⟨fun name member => stands.named name (further.subset member), fun other member => ?_⟩
  exact stands.held other
    ((List.mem_tails _ _).mpr (((List.mem_tails _ _).mp member).trans further))

theorem Stands.node? {above : List Text} (stands : tree.Stands above) :
    tree.node? above.reverse = some .directory :=
  stands.held above ((List.mem_tails _ _).mpr List.suffix_rfl)

theorem obstacleFrom?_append (tree : FileTree) (above first rest : List Text) :
    tree.obstacleFrom? above (first ++ rest) = (tree.obstacleFrom? above first).or
      (tree.obstacleFrom? (first.foldl (Path.addComponent true) above) rest) := by
  induction first generalizing above with
  | nil => rfl
  | cons component first ih =>
    rw [List.cons_append, obstacleFrom?, obstacleFrom?]
    cases tree.node? above.reverse with
    | none => rfl
    | some node =>
      cases node with
      | file bytes => rfl
      | directory => exact ih _

theorem Stands.obstacleFrom?_cons {above : List Text} (stands : tree.Stands above)
    (component : Text) (rest : List Text) :
    tree.obstacleFrom? above (component :: rest) =
      tree.obstacleFrom? (Path.addComponent true above component) rest := by
  rw [obstacleFrom?, stands.node?]

theorem Stands.obstacleFrom?_still {above still : List Text} (stands : tree.Stands above)
    (stays : ∀ piece ∈ still, (piece.isEmpty || piece = ['.']) = true) :
    tree.obstacleFrom? above still = none := by
  induction still with
  | nil => rfl
  | cons piece still ih =>
    rw [stands.obstacleFrom?_cons, Path.addComponent_stay true _ (stays piece List.mem_cons_self)]
    exact ih fun other later => stays other (List.mem_cons_of_mem _ later)

/-- From a directory that is there every step up leads to another one, or stays at the root. -/
theorem Stands.obstacleFrom?_stepsUp {above : List Text} (stands : tree.Stands above) (count : Nat) :
    tree.obstacleFrom? above (Path.stepsUp count) = none ∧
      (Path.stepsUp count).foldl (Path.addComponent true) above = above.drop count := by
  induction count generalizing above with
  | zero => exact ⟨rfl, rfl⟩
  | succ count ih =>
    have step : Path.addComponent true above Path.up = above.tail := by
      cases above with
      | nil => rfl
      | cons last above => exact Path.addComponent_up true above (stands.named last List.mem_cons_self)
    change tree.obstacleFrom? above (Path.up :: Path.stepsUp count) = none ∧
      (Path.stepsUp count).foldl _ (Path.addComponent true above Path.up) = _
    rw [stands.obstacleFrom?_cons, step, ← List.drop_tail]
    exact ih (stands.of_suffix (List.tail_suffix above))

theorem Stands.obstacleFrom?_reverse {above : List Text} (stands : tree.Stands above) :
    tree.obstacleFrom? [] above.reverse = none := by
  induction above with
  | nil => rfl
  | cons last above ih =>
    have upper := stands.of_suffix (List.suffix_cons last above)
    have down : above.reverse.foldl (Path.addComponent true) [] = above := by
      rw [Path.foldl_names true [] fun name member => upper.named name (List.mem_reverse.mp member),
        List.reverse_reverse, List.append_nil]
    rw [List.reverse_cons, obstacleFrom?_append, ih upper, down, Option.none_or,
      upper.obstacleFrom?_cons]
    rfl

/-- The directory, in reverse, where a path starts. -/
def startOf (tree : FileTree) (path : Text) : List Text :=
  if Path.isAbsolute path then [] else tree.current.components.reverse

theorem IsSettled.stands_startOf (settled : tree.IsSettled) (path : Text) :
    tree.Stands (tree.startOf path) := by
  unfold startOf
  split
  · exact stands_root tree
  · exact settled

theorem components_absolute (tree : FileTree) (path : Text) :
    (tree.absolute path).components =
      ((Path.components path).foldl (Path.addComponent true) (tree.startOf path)).reverse := by
  have start : Path.isAbsolute path = true → tree.startOf path = [] := fun rooted => if_pos rooted
  rw [Path.foldl_components start, absolute, AbsolutePath.ofText_eq, AbsolutePath.startOf, startOf]
  split <;> rfl

theorem absolute_normalize (tree : FileTree) (path : Text) :
    tree.absolute (Path.normalize path) = tree.absolute path :=
  AbsolutePath.ofText_normalize tree.current path

/-- A normalised path goes up from where it starts, and then down along names. -/
theorem IsSettled.exists_way (settled : tree.IsSettled) (path : Text) :
    ∃ above names, tree.Stands above ∧ (∀ name ∈ names, Path.IsName name) ∧
      (tree.absolute path).components = above.reverse ++ names ∧
      tree.obstacle? (Path.normalize path) = tree.obstacleFrom? above names ∧
      ∃ before, (Path.normalize path).splitOn '/' = before ++ names := by
  obtain ⟨count, names, parts, named, -⟩ := Path.exists_components_eq path
  obtain ⟨still, stays, pieces⟩ := Path.splitOn_normalize path
  have stands := settled.stands_startOf path
  obtain ⟨free, upward⟩ := stands.obstacleFrom?_stepsUp count
  refine ⟨(tree.startOf path).drop count, names, stands.of_suffix (List.drop_suffix _ _), named, ?_, ?_,
    still ++ Path.stepsUp count, by rw [pieces, parts, List.append_assoc]⟩
  · rw [components_absolute, parts, List.foldl_append, upward, Path.foldl_names true _ named,
      List.reverse_append, List.reverse_reverse]
  · rw [obstacle?, if_neg (by simp [Path.normalize_ne_nil path]), Path.isAbsolute_normalize, ← startOf,
      pieces, parts, obstacleFrom?_append, stands.obstacleFrom?_still stays,
      Path.foldl_still true _ stays, obstacleFrom?_append, free, upward, Option.none_or, Option.none_or]

/-- What keeps a normalised path from being followed depends only on what it stands for. -/
theorem IsSettled.obstacle?_normalize (settled : tree.IsSettled) (path : Text) :
    tree.obstacle? (Path.normalize path) =
      tree.obstacleFrom? [] (tree.absolute path).components := by
  obtain ⟨above, names, stands, -, same, obstacle, -⟩ := settled.exists_way path
  have down : above.reverse.foldl (Path.addComponent true) [] = above := by
    rw [Path.foldl_names true [] fun name member => stands.named name (List.mem_reverse.mp member),
      List.reverse_reverse, List.append_nil]
  rw [obstacle, same, obstacleFrom?_append, stands.obstacleFrom?_reverse, down, Option.none_or]

theorem IsSettled.at?_of_absolute (settled : tree.IsSettled) {path other : Text}
    (normal : Path.IsNormal path) (otherNormal : Path.IsNormal other)
    (same : tree.absolute path = tree.absolute other) : tree.at? path = tree.at? other := by
  obtain ⟨written, rfl⟩ := normal
  obtain ⟨text, rfl⟩ := otherNormal
  rw [at?, at?, settled.obstacle?_normalize, settled.obstacle?_normalize, same,
    ← absolute_normalize, ← absolute_normalize tree text, same]

theorem IsSettled.isName_of_isFile (settled : tree.IsSettled) {path : Text}
    (normal : Path.IsNormal path) (file : tree.isFile path = true) : Path.IsName (Path.name path) := by
  obtain ⟨written, rfl⟩ := normal
  obtain ⟨above, names, stands, named, same, obstacle, before, pieces⟩ := settled.exists_way written
  cases names using List.reverseRecOn with
  | nil =>
    rw [List.append_nil] at same
    have directory : tree.at? (Path.normalize written) = some .directory := by
      rw [at?, obstacle, absolute_normalize, same]
      exact stands.node?
    rw [isFile, directory] at file
    cases file
  | append_singleton front last _ =>
    rw [Path.name, Text.afterLast, pieces, ← List.append_assoc, List.getLastD_concat]
    exact named last (by simp)

end FileTree

end GradlePublishing
