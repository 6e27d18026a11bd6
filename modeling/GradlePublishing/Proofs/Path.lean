import GradlePublishing.Path
import GradlePublishing.Proofs.Text.Split
import Mathlib.Data.List.DropRight

/-!
What a path stands for does not change when it is normalised (`ofText_normalize`), and what a path below
the directory of another one stands for depends only on what that one stands for (`ofText_below`).
-/

namespace GradlePublishing

namespace Path

/-- A component that leads down, not one that stays or goes up. -/
def IsName (component : Text) : Prop :=
  component ≠ [] ∧ component ≠ ['.'] ∧ component ≠ ['.', '.']

instance (component : Text) : Decidable (IsName component) :=
  inferInstanceAs (Decidable (_ ∧ _ ∧ _))

/-- The components that remain, in reverse, where a path is followed from those above it. -/
def stack (isRooted : Bool) (above : List Text) (path : Text) : List Text :=
  (path.splitOn '/').foldl (addComponent isRooted) above

def up : Text := ['.', '.']

/-- Steps up, as they stand at the start of a relative path. -/
def stepsUp (count : Nat) : List Text := List.replicate count up

theorem cases_component (component : Text) :
    (component.isEmpty || component = ['.']) = true ∨ component = up ∨ IsName component := by
  by_cases stays : (component.isEmpty || component = ['.']) = true
  · exact .inl stays
  · by_cases upward : component = up
    · exact .inr (.inl upward)
    · simp only [Bool.or_eq_true, List.isEmpty_iff, decide_eq_true_eq, not_or] at stays
      exact .inr (.inr ⟨stays.1, stays.2, upward⟩)

section Components

variable (isRooted : Bool) (above : List Text)

theorem addComponent_stay {component : Text}
    (stays : (component.isEmpty || component = ['.']) = true) :
    addComponent isRooted above component = above := by
  unfold addComponent
  rw [if_pos stays]

theorem addComponent_name {component : Text} (named : IsName component) :
    addComponent isRooted above component = component :: above := by
  unfold addComponent
  rw [if_neg (by simp [named.1, named.2.1]), if_neg named.2.2]

theorem addComponent_up {last : Text} (named : IsName last) :
    addComponent isRooted (last :: above) up = above := by
  change (if last = ['.', '.'] then up :: last :: above else above) = above
  rw [if_neg named.2.2]

theorem addComponent_stepsUp (count : Nat) :
    addComponent false (stepsUp count) up = stepsUp (count + 1) := by
  cases count <;> rfl

theorem foldl_names {names : List Text} (named : ∀ name ∈ names, IsName name) :
    names.foldl (addComponent isRooted) above = names.reverse ++ above := by
  induction names generalizing above with
  | nil => rfl
  | cons name names ih =>
    rw [List.foldl_cons, addComponent_name isRooted above (named name List.mem_cons_self),
      ih _ fun other later => named other (List.mem_cons_of_mem _ later), List.reverse_cons,
      List.append_assoc, List.singleton_append]

theorem stack_slash (front rest : Text) :
    stack isRooted above (front ++ '/' :: rest) =
      stack isRooted (stack isRooted above front) rest := by
  unfold stack
  rw [List.splitOn_append_cons_of_beq front rest (by simp), List.foldl_append]

theorem stack_nil : stack isRooted above [] = above := rfl

theorem stack_of_notMem {component : Text} (whole : '/' ∉ component) :
    stack isRooted above component = addComponent isRooted above component := by
  rw [stack, List.splitOn_eq_singleton whole]
  rfl

theorem stack_concat_slash (front : Text) :
    stack isRooted above (front ++ ['/']) = stack isRooted above front :=
  stack_slash isRooted above front []

theorem stack_dropSlashes (path : Text) :
    stack isRooted above (Text.dropEndWhile (· == '/') path) = stack isRooted above path := by
  induction path using List.reverseRecOn with
  | nil => rfl
  | append_singleton front c ih =>
    change stack isRooted above ((front ++ [c]).rdropWhile (· == '/')) = _
    rw [List.rdropWhile_concat]
    split
    · rename_i slash
      rw [beq_iff_eq.mp slash, stack_concat_slash]
      exact ih
    · rfl

theorem stack_join {base path : Text} (relative : isAbsolute path = false) :
    stack isRooted above (join base path) = stack isRooted (stack isRooted above base) path := by
  unfold join
  rw [if_neg (by simp [relative])]
  split
  · rename_i joined
    rcases (Bool.or_eq_true _ _).mp joined with empty | closed
    · rw [List.isEmpty_iff.mp empty, stack_nil]
      rfl
    · obtain ⟨front, rfl⟩ := List.getLast?_eq_some_iff.mp (beq_iff_eq.mp closed)
      rw [List.append_assoc, List.singleton_append, stack_slash, stack_concat_slash]
  · exact stack_slash isRooted above base path

end Components

/-- Joining puts some of the base in front of a path, if anything, and perhaps a slash between them. -/
theorem exists_front_join (base path : Text) :
    ∃ front, join base path = front ++ path ∧ front ⊆ base ++ ['/'] := by
  unfold join
  split
  · exact ⟨[], rfl, List.nil_subset _⟩
  · split
    · exact ⟨base, rfl, List.subset_append_left base ['/']⟩
    · refine ⟨base ++ ['/'], ?_, List.Subset.refl _⟩
      rw [List.append_assoc, List.singleton_append]

/-! What remains of a path: steps up, which no absolute path has, and then names. -/

/-- Names over steps up, in reverse. -/
structure Climbs (isRooted : Bool) (count : Nat) (names : List Text) : Prop where
  named : ∀ name ∈ names, IsName name
  rooted : isRooted = true → count = 0

theorem Climbs.tail {isRooted : Bool} {count : Nat} {last : Text} {names : List Text}
    (climbs : Climbs isRooted count (last :: names)) : Climbs isRooted count names :=
  ⟨fun name later => climbs.named name (List.mem_cons_of_mem _ later), climbs.rooted⟩

theorem exists_climbs_addComponent {isRooted : Bool} {count : Nat} {names : List Text}
    (climbs : Climbs isRooted count names) (component : Text) :
    ∃ count' names', addComponent isRooted (names ++ stepsUp count) component =
      names' ++ stepsUp count' ∧ Climbs isRooted count' names' := by
  rcases cases_component component with stays | rfl | named
  · exact ⟨count, names, addComponent_stay isRooted _ stays, climbs⟩
  · cases names with
    | nil =>
      cases isRooted with
      | true =>
        rw [climbs.rooted rfl]
        exact ⟨0, [], rfl, ⟨nofun, fun _ => rfl⟩⟩
      | false => exact ⟨count + 1, [], addComponent_stepsUp count, ⟨nofun, nofun⟩⟩
    | cons last names =>
      exact ⟨count, names, addComponent_up isRooted _ (climbs.named last List.mem_cons_self),
        climbs.tail⟩
  · refine ⟨count, component :: names, addComponent_name isRooted _ named, ⟨?_, climbs.rooted⟩⟩
    exact List.forall_mem_cons.mpr ⟨named, climbs.named⟩

theorem climbs_start (isRooted : Bool) : Climbs isRooted 0 [] := ⟨nofun, fun _ => rfl⟩

theorem exists_climbs_foldl {isRooted : Bool} {count : Nat} {names : List Text}
    (climbs : Climbs isRooted count names) (components : List Text) :
    ∃ count' names', components.foldl (addComponent isRooted) (names ++ stepsUp count) =
      names' ++ stepsUp count' ∧ Climbs isRooted count' names' := by
  induction components generalizing count names with
  | nil => exact ⟨count, names, rfl, climbs⟩
  | cons component components ih =>
    obtain ⟨next, left, same, further⟩ := exists_climbs_addComponent climbs component
    rw [List.foldl_cons, same]
    exact ih further

theorem exists_components_eq (path : Text) :
    ∃ count names, components path = stepsUp count ++ names ∧ (∀ name ∈ names, IsName name) ∧
      (isAbsolute path = true → count = 0) := by
  obtain ⟨count, names, same, climbs⟩ :=
    exists_climbs_foldl (climbs_start (isAbsolute path)) (path.splitOn '/')
  refine ⟨count, names.reverse, ?_, fun name member => ?_, climbs.rooted⟩
  · rw [components]
    change (List.foldl (addComponent (isAbsolute path)) ([] ++ stepsUp 0) _).reverse = _
    rw [same, List.reverse_append, stepsUp, List.reverse_replicate]
  · exact climbs.named name (List.mem_reverse.mp member)

/-- It makes no difference whether one more component is added to a path before that is followed from
somewhere, or after. -/
theorem foldl_addComponent {isRooted : Bool} {above names : List Text} {count : Nat}
    (start : isRooted = true → above = []) (climbs : Climbs isRooted count names) (component : Text) :
    (addComponent isRooted (names ++ stepsUp count) component).reverse.foldl (addComponent true) above =
      addComponent true ((names ++ stepsUp count).reverse.foldl (addComponent true) above)
        component := by
  rcases cases_component component with stays | rfl | named
  · rw [addComponent_stay isRooted _ stays, addComponent_stay true _ stays]
  · cases names with
    | nil =>
      cases isRooted with
      | true =>
        rw [climbs.rooted rfl, start rfl]
        rfl
      | false =>
        rw [List.nil_append, addComponent_stepsUp, stepsUp, stepsUp, List.reverse_replicate,
          List.reverse_replicate, List.replicate_succ', List.foldl_append]
        rfl
    | cons last names =>
      have named := climbs.named last List.mem_cons_self
      rw [List.cons_append, addComponent_up isRooted _ named, List.reverse_cons, List.foldl_append,
        List.foldl_cons, List.foldl_nil, addComponent_name true _ named, addComponent_up true _ named]
  · rw [addComponent_name isRooted _ named, List.reverse_cons, List.foldl_append]
    rfl

theorem foldl_components {path : Text} {above : List Text}
    (start : isAbsolute path = true → above = []) :
    (components path).foldl (addComponent true) above = stack true above path := by
  unfold components stack
  generalize path.splitOn '/' = pieces
  induction pieces using List.reverseRecOn with
  | nil => rfl
  | append_singleton pieces piece ih =>
    obtain ⟨count, names, same, climbs⟩ :=
      exists_climbs_foldl (climbs_start (isAbsolute path)) pieces
    change pieces.foldl (addComponent (isAbsolute path)) [] = _ at same
    rw [List.foldl_append, List.foldl_append, ← ih, same]
    exact foldl_addComponent start climbs piece

theorem addComponent_sublist (isRooted : Bool) (above : List Text) (component : Text) :
    (addComponent isRooted above component).Sublist (component :: above) := by
  rcases cases_component component with stays | rfl | named
  · rw [addComponent_stay isRooted above stays]
    exact List.sublist_cons_self component above
  · cases above with
    | nil => cases isRooted <;> simp [addComponent, up]
    | cons last above =>
      change (if last = ['.', '.'] then up :: last :: above else above).Sublist _
      split
      · exact List.Sublist.refl _
      · exact (List.sublist_cons_self last above).trans (List.sublist_cons_self up _)
  · rw [addComponent_name isRooted above named]

/-- What is kept are some of the pieces that were followed, in their order. -/
theorem foldl_addComponent_sublist (isRooted : Bool) (pieces above : List Text) :
    (pieces.foldl (addComponent isRooted) above).Sublist (pieces.reverse ++ above) := by
  induction pieces generalizing above with
  | nil => exact List.Sublist.refl above
  | cons piece pieces ih =>
    rw [List.foldl_cons, List.reverse_cons, List.append_assoc, List.singleton_append]
    exact (ih _).trans ((addComponent_sublist isRooted above piece).append_left pieces.reverse)

theorem components_sublist (path : Text) : (components path).Sublist (path.splitOn '/') := by
  have kept := (foldl_addComponent_sublist (isAbsolute path) (path.splitOn '/') []).reverse
  rwa [List.append_nil, List.reverse_reverse] at kept

theorem mem_of_mem_stack {isRooted : Bool} {pieces above : List Text} {component : Text}
    (member : component ∈ pieces.foldl (addComponent isRooted) above) :
    component ∈ above ∨ component ∈ pieces := by
  have held := (foldl_addComponent_sublist isRooted pieces above).subset member
  rw [List.mem_append, List.mem_reverse] at held
  exact held.symm

theorem notMem_of_mem_components {path component : Text} (member : component ∈ components path) :
    '/' ∉ component := by
  rcases mem_of_mem_stack (List.mem_reverse.mp member) with nothing | piece
  · cases nothing
  · exact Text.not_mem_of_mem_splitOn piece

/-! Roots. -/

theorem root_append {front : Text} (rest : Text) (filled : front ≠ [])
    (parted : (∀ c ∈ front, c = '/') → rest.head? ≠ some '/') : root (front ++ rest) = root front := by
  match front with
  | [] => exact absurd rfl filled
  | [a] =>
    by_cases slash : a = '/'
    · have parted := parted (by simp [slash])
      cases rest <;> simp_all [root]
    · simp [root, slash]
  | [a, b] =>
    by_cases slashes : a = '/' ∧ b = '/'
    · have parted := parted (by simp [slashes])
      cases rest <;> simp_all [root]
    · by_cases first : a = '/' <;> by_cases second : b = '/' <;> simp_all [root]
  | a :: b :: c :: front =>
    by_cases first : a = '/' <;> by_cases second : b = '/' <;> by_cases third : c = '/' <;>
      simp [root, first, second, third]

theorem isAbsolute_append {front : Text} (rest : Text) (filled : front ≠ []) :
    isAbsolute (front ++ rest) = isAbsolute front := by
  rw [isAbsolute, isAbsolute, List.head?_append_of_ne_nil front filled]

theorem root_cases {path : Text} (rooted : isAbsolute path = true) :
    root path = ['/'] ∨ root path = ['/', '/'] := by
  obtain ⟨rest, rfl⟩ := List.head?_eq_some_iff.mp (beq_iff_eq.mp rooted)
  unfold root
  split <;> simp_all

theorem root_of_relative {path : Text} (relative : isAbsolute path = false) : root path = [] := by
  unfold root
  split <;> simp_all [isAbsolute]

/-! Normal forms. -/

theorem filled_of_mem_components {path component : Text} (member : component ∈ components path) :
    component ≠ [] := by
  obtain ⟨count, names, same, named, -⟩ := exists_components_eq path
  rw [same] at member
  rcases List.mem_append.mp member with upward | name
  · rw [List.eq_of_mem_replicate upward]
    exact List.cons_ne_nil _ _
  · exact (named component name).1

theorem head?_components (path : Text) :
    (Text.joinWith ['/'] (components path)).head? ≠ some '/' := by
  cases parts : components path with
  | nil => exact nofun
  | cons first more =>
    have member : first ∈ components path := parts ▸ List.mem_cons_self
    obtain ⟨rest, begins⟩ : first <+: Text.joinWith ['/'] (first :: more) :=
      Text.prefix_joinWith ['/'] first more
    rw [← begins, List.head?_append_of_ne_nil first (filled_of_mem_components member)]
    intro slash
    exact notMem_of_mem_components member (List.mem_of_mem_head? slash)

theorem normalize_of_filled {path : Text}
    (filled : root path ++ Text.joinWith ['/'] (components path) ≠ []) :
    normalize path = root path ++ Text.joinWith ['/'] (components path) := by
  unfold normalize
  split
  · rename_i empty
    exact absurd empty filled
  · rfl

theorem normalize_ne_nil (path : Text) : normalize path ≠ [] := by
  unfold normalize
  split
  · exact List.cons_ne_nil _ _
  · assumption

theorem splitOn_root (path rest : Text) :
    ∃ slashes, (∀ piece ∈ slashes, piece = []) ∧
      (root path ++ rest).splitOn '/' = slashes ++ rest.splitOn '/' := by
  have split (rest : Text) : ('/' :: rest).splitOn '/' = [[]] ++ rest.splitOn '/' :=
    List.splitOn_append_cons_of_beq [] rest (by simp)
  cases rooted : isAbsolute path with
  | true =>
    rcases root_cases rooted with single | double
    · exact ⟨[[]], by simp, by rw [single]; exact split rest⟩
    · refine ⟨[[], []], by simp, ?_⟩
      rw [double]
      exact (split ('/' :: rest)).trans (congrArg _ (split rest))
  | false => exact ⟨[], nofun, by rw [root_of_relative rooted]; rfl⟩

theorem splitOn_normalize (path : Text) :
    ∃ still, (∀ piece ∈ still, (piece.isEmpty || piece = ['.']) = true) ∧
      (normalize path).splitOn '/' = still ++ components path := by
  obtain ⟨slashes, empty, same⟩ := splitOn_root path (Text.joinWith ['/'] (components path))
  have still : ∀ piece ∈ slashes, (piece.isEmpty || piece = ['.']) = true := by
    intro piece member
    rw [empty piece member]
    rfl
  unfold normalize
  split
  · rename_i nothing
    have none : components path = [] := by
      cases parts : components path with
      | nil => rfl
      | cons first more =>
        have member : first ∈ components path := parts ▸ List.mem_cons_self
        have begins := Text.prefix_joinWith ['/'] first more
        rw [← parts, (List.append_eq_nil_iff.mp nothing).2] at begins
        exact absurd (List.prefix_nil.mp begins) (filled_of_mem_components member)
    rw [none]
    exact ⟨[['.']], by simp, rfl⟩
  · rw [same]
    by_cases none : components path = []
    · rw [none]
      exact ⟨slashes ++ [[]], List.forall_mem_append.mpr ⟨still, by simp⟩, by simp [Text.joinWith]⟩
    · have whole : ∀ component ∈ components path, '/' ∉ component := fun _ => notMem_of_mem_components
      rw [Text.joinWith, List.splitOn_intercalate '/' whole none]
      exact ⟨slashes, still, rfl⟩

theorem foldl_still (isRooted : Bool) (above : List Text) {still : List Text}
    (stays : ∀ piece ∈ still, (piece.isEmpty || piece = ['.']) = true) :
    still.foldl (addComponent isRooted) above = above := by
  induction still with
  | nil => rfl
  | cons piece still ih =>
    rw [List.foldl_cons, addComponent_stay isRooted above (stays piece List.mem_cons_self)]
    exact ih fun other later => stays other (List.mem_cons_of_mem _ later)

theorem stack_normalize (isRooted : Bool) (above : List Text) (path : Text) :
    stack isRooted above (normalize path) =
      (components path).foldl (addComponent isRooted) above := by
  obtain ⟨still, stays, same⟩ := splitOn_normalize path
  rw [stack, same, List.foldl_append, foldl_still isRooted above stays]

theorem isAbsolute_normalize (path : Text) : isAbsolute (normalize path) = isAbsolute path := by
  cases rooted : isAbsolute path with
  | true =>
    have filled : root path ≠ [] := by
      rcases root_cases rooted with single | double
      · exact single ▸ List.cons_ne_nil _ _
      · exact double ▸ List.cons_ne_nil _ _
    rw [normalize_of_filled (List.append_ne_nil_of_left_ne_nil filled _),
      isAbsolute_append _ filled]
    rcases root_cases rooted with single | double
    · rw [single]
      rfl
    · rw [double]
      rfl
  | false =>
    unfold normalize
    split
    · rfl
    · rw [root_of_relative rooted, List.nil_append]
      exact beq_eq_false_iff_ne.mpr (head?_components path)

theorem root_normalize (path : Text) : root (normalize path) = root path := by
  cases rooted : isAbsolute path with
  | true =>
    obtain ⟨filled, same⟩ : root path ≠ [] ∧ root (root path) = root path := by
      rcases root_cases rooted with single | double
      · rw [single]
        decide
      · rw [double]
        decide
    rw [normalize_of_filled (List.append_ne_nil_of_left_ne_nil filled _),
      root_append _ filled fun _ => head?_components path, same]
  | false =>
    have relative : isAbsolute (normalize path) = false := by rw [isAbsolute_normalize, rooted]
    rw [root_of_relative rooted, root_of_relative relative]

theorem foldl_stepsUp (count : Nat) : (stepsUp count).foldl (addComponent false) [] = stepsUp count := by
  induction count with
  | zero => rfl
  | succ count ih =>
    calc (stepsUp (count + 1)).foldl (addComponent false) []
      _ = addComponent false ((stepsUp count).foldl (addComponent false) []) up := by
        rw [stepsUp, List.replicate_succ', List.foldl_append]
        rfl
      _ = stepsUp (count + 1) := by rw [ih, addComponent_stepsUp]

theorem components_normalize (path : Text) : components (normalize path) = components path := by
  obtain ⟨count, names, same, named, rooted⟩ := exists_components_eq path
  have climbed : (stepsUp count).foldl (addComponent (isAbsolute path)) [] = stepsUp count := by
    cases absolute : isAbsolute path with
    | true =>
      rw [rooted absolute]
      rfl
    | false => exact foldl_stepsUp count
  calc components (normalize path)
    _ = ((components path).foldl (addComponent (isAbsolute path)) []).reverse := by
      rw [components, isAbsolute_normalize]
      exact congrArg List.reverse (stack_normalize _ [] path)
    _ = (names.reverse ++ stepsUp count).reverse := by rw [same, List.foldl_append, climbed, foldl_names _ _ named]
    _ = components path := by rw [List.reverse_append, List.reverse_reverse, stepsUp, List.reverse_replicate, same,
        stepsUp]

def IsNormal (path : Text) : Prop := ∃ written, path = normalize written

theorem IsNormal.normalize_eq {path : Text} (normal : IsNormal path) : normalize path = path := by
  obtain ⟨written, rfl⟩ := normal
  rw [normalize, root_normalize, components_normalize]
  rfl

/-! The directory and the name. -/

theorem cases_lastSlash (path : Text) :
    '/' ∉ path ∨ ∃ front last, path = front ++ '/' :: last ∧ '/' ∉ last := by
  by_cases member : '/' ∈ path.reverse
  · obtain ⟨last, front, same, whole⟩ := List.eq_append_cons_of_mem member
    refine .inr ⟨front.reverse, last.reverse, ?_, by simpa using whole⟩
    rw [← path.reverse_reverse, same]
    simp
  · exact .inl (by simpa using member)

theorem name_of_notMem {path : Text} (whole : '/' ∉ path) : name path = path := by
  rw [name, Text.afterLast, List.splitOn_eq_singleton whole]
  rfl

theorem name_slash (front : Text) {last : Text} (whole : '/' ∉ last) :
    name (front ++ '/' :: last) = last := by
  rw [name, Text.afterLast, List.splitOn_append_cons_of_beq front last (by simp),
    List.splitOn_eq_singleton whole, List.getLastD_concat]

theorem directory_of_notMem {path : Text} (whole : '/' ∉ path) : directory path = [] := by
  have nothing : Text.dropEndWhile (· != '/') path = [] := by
    rw [Text.dropEndWhile, List.reverse_eq_nil_iff, List.dropWhile_eq_nil_iff]
    intro c member
    exact bne_iff_ne.mpr fun same => whole (same ▸ List.mem_reverse.mp member)
  rw [directory, nothing]
  rfl

/-- The directory is what stands before the last slash, with that one if it is the root. -/
theorem directory_slash (front : Text) {last : Text} (whole : '/' ∉ last) :
    directory (front ++ '/' :: last) =
      if front.all (· == '/') then front ++ ['/'] else Text.dropEndWhile (· == '/') front := by
  have head : Text.dropEndWhile (· != '/') (front ++ '/' :: last) = front ++ ['/'] := by
    have passed : ∀ c ∈ last.reverse, (c != '/') = true := by
      intro c member
      exact bne_iff_ne.mpr fun same => whole (same ▸ List.mem_reverse.mp member)
    rw [Text.dropEndWhile, List.reverse_append, List.reverse_cons, List.append_assoc,
      List.dropWhile_append_of_pos passed, List.singleton_append,
      List.dropWhile_cons_of_neg (by simp), List.reverse_cons, List.reverse_reverse]
  have closed : Text.dropEndWhile (· == '/') (front ++ ['/']) =
      Text.dropEndWhile (· == '/') front :=
    List.rdropWhile_concat_pos _ _ _ (by simp)
  rw [directory, head]
  simp only [List.all_append, closed]
  simp

theorem stack_directory (isRooted : Bool) (above : List Text) (front : Text) {last : Text}
    (whole : '/' ∉ last) :
    stack isRooted above (directory (front ++ '/' :: last)) = stack isRooted above front := by
  rw [directory_slash front whole]
  split
  · exact stack_concat_slash isRooted above front
  · exact stack_dropSlashes isRooted above front

theorem isAbsolute_join (base path : Text) :
    isAbsolute (join base path) = (isAbsolute base || isAbsolute path) := by
  cases rooted : isAbsolute path with
  | true => rw [join, if_pos rooted, rooted, Bool.or_true]
  | false =>
    rw [join, rooted, if_neg Bool.false_ne_true, Bool.or_false]
    by_cases empty : base = []
    · rw [empty]
      exact rooted
    · split
      · exact isAbsolute_append path empty
      · exact isAbsolute_append _ empty

theorem exists_directory_append (front : Text) {last : Text} (whole : '/' ∉ last) :
    ∃ rest, directory (front ++ '/' :: last) ++ rest = front ++ '/' :: last ∧
      directory (front ++ '/' :: last) ≠ [] ∧
      ((∀ c ∈ directory (front ++ '/' :: last), c = '/') → rest.head? ≠ some '/') := by
  rw [directory_slash front whole]
  split
  · exact ⟨last, by simp, by simp, fun _ slash => whole (List.mem_of_mem_head? slash)⟩
  · rename_i other
    have filled : Text.dropEndWhile (· == '/') front ≠ [] := by
      intro empty
      exact other (List.all_eq_true.mpr (List.rdropWhile_eq_nil_iff.mp empty))
    obtain ⟨gap, same⟩ : Text.dropEndWhile (· == '/') front <+: front :=
      List.rdropWhile_prefix _ _
    refine ⟨gap ++ '/' :: last, by rw [← List.append_assoc, same], filled, fun slashes => ?_⟩
    have slash := slashes _ (List.getLast_mem filled)
    exact absurd (beq_iff_eq.mpr slash) (List.rdropWhile_last_not (· == '/') front filled)

theorem isAbsolute_directory {path : Text} (rooted : isAbsolute path = true) :
    isAbsolute (directory path) = true := by
  rcases cases_lastSlash path with whole | ⟨front, last, rfl, whole⟩
  · exact absurd (List.mem_of_mem_head? (beq_iff_eq.mp rooted)) whole
  · obtain ⟨rest, same, filled, -⟩ := exists_directory_append front whole
    rwa [← same, isAbsolute_append rest filled] at rooted

end Path

namespace AbsolutePath

open GradlePublishing.Path

def parent (path : AbsolutePath) : AbsolutePath := ⟨path.doubled, path.components.dropLast⟩

def startOf (base : AbsolutePath) (path : Text) : AbsolutePath :=
  if isAbsolute path then ⟨root path == ['/', '/'], []⟩ else base

variable (base : AbsolutePath)

theorem ofText_eq (path : Text) :
    ofText base path = ⟨(startOf base path).doubled,
      (stack true (startOf base path).components.reverse path).reverse⟩ := by
  unfold ofText startOf
  split
  · rename_i rooted
    rw [Path.components]
    simp only [rooted]
    rfl
  · rfl

theorem ofText_of_relative {path : Text} (relative : isAbsolute path = false) :
    ofText base path = ⟨base.doubled, (stack true base.components.reverse path).reverse⟩ := by
  rw [ofText_eq, startOf, relative]
  rfl

theorem ofText_of_isAbsolute {path : Text} (rooted : isAbsolute path = true) (other : AbsolutePath) :
    ofText base path = ofText other path := by
  rw [ofText, ofText, if_pos rooted, if_pos rooted]

theorem ofText_nil : ofText base [] = base := by
  rw [ofText_of_relative base rfl, stack_nil, List.reverse_reverse]

theorem startOf_append {front : Text} (rest : Text) (filled : front ≠ [])
    (parted : (∀ c ∈ front, c = '/') → rest.head? ≠ some '/') :
    startOf base (front ++ rest) = startOf base front := by
  rw [startOf, startOf, isAbsolute_append rest filled, root_append rest filled parted]

/-- A path that is joined to another one is followed from where that leads. -/
theorem ofText_join (front path : Text) :
    ofText base (join front path) = ofText (ofText base front) path := by
  cases rooted : isAbsolute path with
  | true =>
    rw [join, if_pos rooted]
    exact ofText_of_isAbsolute base rooted _
  | false =>
    by_cases empty : front = []
    · rw [empty, ofText_nil, join, if_neg (by simp [rooted])]
      rfl
    · have start : startOf base (join front path) = startOf base front := by
        unfold join
        rw [rooted]
        split
        · exact absurd ‹_› Bool.false_ne_true
        · split
          · apply startOf_append base path empty
            intro _ slash
            rw [isAbsolute, slash] at rooted
            cases rooted
          · rename_i unclosed
            apply startOf_append base _ empty
            intro slashes
            rw [Bool.or_eq_true, not_or] at unclosed
            have last := slashes _ (List.getLast_mem empty)
            rw [beq_iff_eq, List.getLast?_eq_some_getLast empty, last] at unclosed
            exact absurd rfl unclosed.2
      rw [ofText_of_relative _ rooted, ofText_eq base front, ofText_eq base (join front path), start,
        stack_join true _ rooted, List.reverse_reverse]

theorem startOf_normalize (path : Text) : startOf base (normalize path) = startOf base path := by
  rw [startOf, startOf, isAbsolute_normalize, root_normalize]

theorem ofText_normalize (path : Text) : ofText base (normalize path) = ofText base path := by
  have start : isAbsolute path = true → (startOf base path).components.reverse = [] := by
    intro rooted
    rw [startOf, if_pos rooted]
    rfl
  rw [ofText_eq, ofText_eq, startOf_normalize, stack_normalize, foldl_components start]

theorem ofText_of_notMem {name : Text} (whole : '/' ∉ name) (named : IsName name) :
    ofText base name = ⟨base.doubled, base.components ++ [name]⟩ := by
  have relative : isAbsolute name = false := by
    cases rooted : isAbsolute name with
    | true => exact absurd (List.mem_of_mem_head? (beq_iff_eq.mp rooted)) whole
    | false => rfl
  rw [ofText_of_relative base relative, stack_of_notMem true _ whole, addComponent_name true _ named,
    List.reverse_cons, List.reverse_reverse]

theorem ofText_slash {front name : Text} (whole : '/' ∉ name) (named : IsName name) :
    ofText base (front ++ '/' :: name) =
      ⟨(startOf base (front ++ '/' :: name)).doubled,
        (stack true (startOf base (front ++ '/' :: name)).components.reverse front).reverse ++
          [name]⟩ := by
  rw [ofText_eq, stack_slash, stack_of_notMem true _ whole, addComponent_name true _ named,
    List.reverse_cons]

theorem startOf_directory (front : Text) {last : Text} (whole : '/' ∉ last) :
    startOf base (directory (front ++ '/' :: last)) = startOf base (front ++ '/' :: last) := by
  obtain ⟨rest, same, filled, parted⟩ := exists_directory_append front whole
  calc startOf base (directory (front ++ '/' :: last))
    _ = startOf base (directory (front ++ '/' :: last) ++ rest) := (startOf_append base rest filled parted).symm
    _ = startOf base (front ++ '/' :: last) := by rw [same]

/-- The directory of a path that ends in a name is one level above it. -/
theorem ofText_directory {path : Text} (named : IsName (name path)) :
    ofText base (directory path) = (ofText base path).parent := by
  rcases cases_lastSlash path with whole | ⟨front, last, rfl, whole⟩
  · rw [name_of_notMem whole] at named
    rw [directory_of_notMem whole, ofText_nil, ofText_of_notMem base whole named, parent,
      List.dropLast_concat]
  · rw [name_slash front whole] at named
    rw [ofText_slash base whole named, parent, List.dropLast_concat, ofText_eq]
    rw [startOf_directory base front whole, stack_directory true _ front whole]

/-- A path below the directory of another one, which itself ends in a name. -/
theorem ofText_below {path : Text} (named : IsName (name path)) (below : Text) :
    ofText base (normalize (join (directory path) below)) =
      ofText (ofText base path).parent below := by
  rw [ofText_normalize, ofText_join, ofText_directory base named]

/-- The name of a path is the last component of what it stands for. -/
theorem getLast?_ofText {path : Text} (named : IsName (name path)) :
    (ofText base path).components.getLast? = some (name path) := by
  rcases cases_lastSlash path with whole | ⟨front, last, rfl, whole⟩
  · rw [name_of_notMem whole] at named ⊢
    rw [ofText_of_notMem base whole named, List.getLast?_concat]
  · rw [name_slash front whole] at named ⊢
    rw [ofText_slash base whole named, List.getLast?_concat]

end AbsolutePath

end GradlePublishing
