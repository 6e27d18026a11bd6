import GradlePublishing.Property.Source
import GradlePublishing.Script.File
import GradlePublishing.Proofs.Failure

/-!
What a computation asks a file tree. A computation here carries its questions with it, and its result
depends on nothing but their answers; so it comes to the same on every tree that gives those.
-/

namespace GradlePublishing

namespace Text

theorem le_trans (a b c : Text) (first : le a b = true) (second : le b c = true) : le a c = true := by
  induction a generalizing b c with
  | nil => rfl
  | cons x a ih =>
    match b, c with
    | y :: b, z :: c =>
      simp only [le, Bool.or_eq_true, Bool.and_eq_true, decide_eq_true_eq, beq_iff_eq] at first second ⊢
      rcases first with below | ⟨rfl, first⟩
      · rcases second with further | ⟨rfl, -⟩
        · exact .inl (Nat.lt_trans below further)
        · exact .inl below
      · rcases second with further | ⟨rfl, second⟩
        · exact .inl further
        · exact .inr ⟨rfl, ih b c first second⟩

theorem le_total (a b : Text) : (le a b || le b a) = true := by
  induction a generalizing b with
  | nil => rfl
  | cons x a ih =>
    cases b with
    | nil => rfl
    | cons y b =>
      have either := ih b
      simp only [le, Bool.or_eq_true, Bool.and_eq_true, decide_eq_true_eq, beq_iff_eq] at either ⊢
      rcases Nat.lt_trichotomy x.toNat y.toNat with below | same | above
      · exact .inl (.inl below)
      · have equal : x = y := Char.toNat_inj.mp same
        subst equal
        rcases either with first | second
        · exact .inl (.inr ⟨rfl, first⟩)
        · exact .inr (.inr ⟨rfl, second⟩)
      · exact .inr (.inl above)

theorem le_antisymm (a b : Text) (first : le a b = true) (second : le b a = true) : a = b := by
  induction a generalizing b with
  | nil =>
    cases b with
    | nil => rfl
    | cons y b => cases second
  | cons x a ih =>
    cases b with
    | nil => cases first
    | cons y b =>
      simp only [le, Bool.or_eq_true, Bool.and_eq_true, decide_eq_true_eq, beq_iff_eq] at first second
      rcases first with below | ⟨rfl, first⟩
      · rcases second with above | ⟨rfl, -⟩
        · omega
        · omega
      · rcases second with above | ⟨-, second⟩
        · omega
        · rw [ih b first second]

theorem mergeSort_eq_of_perm {names others : List Text} (same : names.Perm others) :
    (names.mergeSort fun a b => le b a) = others.mergeSort fun a b => le b a := by
  have sorted : ∀ texts : List Text,
      (texts.mergeSort fun a b => le b a).Pairwise fun a b => le b a = true :=
    List.pairwise_mergeSort (fun a b c first second => le_trans c b a second first)
      (fun a b => le_total b a)
  apply List.Perm.eq_of_pairwise _ (sorted names) (sorted others)
  · exact (List.mergeSort_perm names _).trans (same.trans (List.mergeSort_perm others _).symm)
  · intro a b _ _ first second
    exact le_antisymm a b second first

end Text

inductive Query
  | isDirectory (path : Text)
  | isFile (path : Text)
  | names (directory : Text)
  | text (path : Text)
  deriving DecidableEq

/-- Whether two trees give the same answer. The order of the names in a directory does not count. -/
def Query.Agrees (tree other : FileTree) : Query → Prop
  | .isDirectory path => other.isDirectory path = tree.isDirectory path
  | .isFile path => other.isFile path = tree.isFile path
  | .names directory => ((other.names? directory).getD []).Perm ((tree.names? directory).getD [])
  | .text path => other.readText path = tree.readText path

instance (tree other : FileTree) : DecidablePred (Query.Agrees tree other)
  | .isDirectory path => inferInstanceAs (Decidable (other.isDirectory path = tree.isDirectory path))
  | .isFile path => inferInstanceAs (Decidable (other.isFile path = tree.isFile path))
  | .names directory => inferInstanceAs
      (Decidable (((other.names? directory).getD []).Perm ((tree.names? directory).getD [])))
  | .text path => inferInstanceAs (Decidable (other.readText path = tree.readText path))

/-- A computation with what it asks of a tree. What it asks may depend on what it was told before. -/
structure Asking (α : Type) where
  asked : FileTree → List Query
  result : FileTree → Except Failure α
  determined : ∀ {tree other : FileTree}, other.current = tree.current →
    (∀ query ∈ asked tree, query.Agrees tree other) → result other = result tree

namespace Asking

variable {α β : Type}

def given (result : Except Failure α) : Asking α where
  asked _ := []
  result _ := result
  determined _ _ := rfl

def andThen (first : Asking α) (next : α → Asking β) : Asking β where
  asked tree := first.asked tree ++
    match first.result tree with
    | .ok value => (next value).asked tree
    | .error _ => []
  result tree := first.result tree >>= fun value => (next value).result tree
  determined := by
    intro tree other same agrees
    have before := first.determined same fun query member =>
      agrees query (List.mem_append_left _ member)
    rw [before]
    cases come : first.result tree with
    | error failure => rfl
    | ok value =>
      apply (next value).determined same
      intro query member
      apply agrees query
      rw [come]
      exact List.mem_append_right _ member

instance : Monad Asking where
  pure value := given (.ok value)
  bind := andThen

@[simp] theorem result_given (result : Except Failure α) (tree : FileTree) :
    (given result).result tree = result := rfl

@[simp] theorem result_pure (value : α) (tree : FileTree) :
    (pure value : Asking α).result tree = .ok value := rfl

@[simp] theorem result_bind (first : Asking α) (next : α → Asking β) (tree : FileTree) :
    (first >>= next).result tree = first.result tree >>= fun value => (next value).result tree := rfl

theorem asked_bind_of_ok {first : Asking α} {tree : FileTree} {value : α}
    (come : first.result tree = .ok value) (next : α → Asking β) :
    (first >>= next).asked tree = first.asked tree ++ (next value).asked tree := by
  change first.asked tree ++ _ = _
  rw [come]

/-- What a computation asks does not grow if all that comes after it asks nothing. -/
theorem mem_asked_of_quiet {first : Asking α} {next : α → Asking β} {tree : FileTree} {query : Query}
    (quiet : ∀ value, first.result tree = .ok value → (next value).asked tree = [])
    (member : query ∈ (first >>= next).asked tree) : query ∈ first.asked tree := by
  change query ∈ first.asked tree ++ _ at member
  rcases List.mem_append.mp member with inside | later
  · exact inside
  · cases come : first.result tree with
    | error failure =>
      rw [come] at later
      cases later
    | ok value =>
      rw [come] at later
      dsimp only at later
      rw [quiet value come] at later
      cases later

def isDirectory (path : Text) : Asking Bool where
  asked _ := [.isDirectory path]
  result tree := .ok (tree.isDirectory path)
  determined _ agrees := congrArg Except.ok (agrees (.isDirectory path) (List.mem_singleton_self _))

def isFile (path : Text) : Asking Bool where
  asked _ := [.isFile path]
  result tree := .ok (tree.isFile path)
  determined _ agrees := congrArg Except.ok (agrees (.isFile path) (List.mem_singleton_self _))

def text (path : Text) : Asking (Option Text) where
  asked _ := [.text path]
  result tree := tree.readText path
  determined _ agrees := agrees (.text path) (List.mem_singleton_self _)

def names (directory : Text) : Asking (List Text) where
  asked _ := [.names directory]
  result tree := .ok (((tree.names? directory).getD []).mergeSort fun a b => Text.le b a)
  determined _ agrees :=
    congrArg Except.ok (Text.mergeSort_eq_of_perm (agrees (.names directory) (List.mem_singleton_self _)))

@[simp] theorem result_isDirectory (path : Text) (tree : FileTree) :
    (isDirectory path).result tree = .ok (tree.isDirectory path) := rfl

@[simp] theorem result_isFile (path : Text) (tree : FileTree) :
    (isFile path).result tree = .ok (tree.isFile path) := rfl

@[simp] theorem result_text (path : Text) (tree : FileTree) :
    (text path).result tree = tree.readText path := rfl

@[simp] theorem result_names (directory : Text) (tree : FileTree) :
    (names directory).result tree =
      .ok (((tree.names? directory).getD []).mergeSort fun a b => Text.le b a) := rfl

/-! What is looked for among files. -/

/-- The first of some paths at which there is a file. Those behind it are not asked for. -/
def firstFile : List Text → Asking (Option Text)
  | [] => pure none
  | path :: more => do
    if ← isFile path then return some path
    firstFile more

theorem result_firstFile (paths : List Text) (tree : FileTree) :
    (firstFile paths).result tree = .ok (paths.find? tree.isFile) := by
  induction paths with
  | nil => rfl
  | cons path more ih =>
    rw [firstFile, result_bind, List.find?_cons, result_isFile]
    cases held : tree.isFile path with
    | true => rfl
    | false => exact ih

def files : List Text → Asking (List Text)
  | [] => pure []
  | path :: more => do
    let held ← isFile path
    let later ← files more
    return if held then path :: later else later

theorem result_files (paths : List Text) (tree : FileTree) :
    (files paths).result tree = .ok (paths.filter tree.isFile) := by
  induction paths with
  | nil => rfl
  | cons path more ih =>
    rw [files, result_bind, result_isFile, List.filter_cons]
    change (files more).result tree >>= _ = _
    rw [ih]
    rfl

def script (path : Text) : Asking (Option Script) := do
  return (← text path).map fun content => ⟨path, content, Script.dialectOf path⟩

theorem result_script (path : Text) (tree : FileTree) :
    (script path).result tree = Script.load? tree path := rfl

def findScript (settings : Settings) (directory baseName : Text) : Asking (Option Text) := do
  let extensions ← given (Script.extensions settings)
  firstFile (extensions.map fun extension => Path.join directory (baseName ++ extension))

theorem result_findScript (settings : Settings) (directory baseName : Text) (tree : FileTree) :
    (findScript settings directory baseName).result tree =
      Script.find? settings tree directory baseName := by
  unfold findScript
  simp only [result_bind, result_firstFile]
  rfl

def properties (path : Text) : Asking Table := do
  return ((← text path).map Property.ofFile).getD ∅

def baseProperties (settings : Settings) (directory : Text) (userHome : Option Text) :
    Asking Table := do
  let file ← given (settings.text .propertiesFile)
  let ofUser ← match userHome.filter (!·.isEmpty) with
    | some home => properties (Path.join home file)
    | none => pure ∅
  let ofProject ← properties (Path.join directory file)
  return ((Table.merge [ofUser, ofProject]).setDefault "rootDir" directory).setDefault
    "projectDir" directory

theorem result_baseProperties (settings : Settings) (directory : Text) (userHome : Option Text)
    (tree : FileTree) : (baseProperties settings directory userHome).result tree =
      Property.base settings tree directory userHome := by
  unfold baseProperties Property.base
  cases userHome.filter (!·.isEmpty) with
  | none => rfl
  | some home => rfl

end Asking

end GradlePublishing
