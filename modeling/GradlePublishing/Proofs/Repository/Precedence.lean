import GradlePublishing.Proofs.Repository.Reach
import GradlePublishing.Proofs.Settings.Usual
import GradlePublishing.Proofs.Table

/-!
The properties that a script sees when a deployment comes by it. They are those of the request, of the
scripts on the way to it and of the properties files, and nothing else. An empty value never hides one
from below.
-/

namespace GradlePublishing.Repository

/-! The layers of properties under the usual settings. -/

def optionsIn (environment : Table) (name : Text) : Table :=
  ((environment.value? name).map Property.ofOptions).getD ∅

/-- The properties that variables of the environment set, each of its own. -/
def variablesIn (environment : Table) : Table :=
  .ofList (environment.entries.filterMap (Property.ofVariable? "ORG_GRADLE_PROJECT_"))

def propertiesIn (tree : FileTree) (directory : Text) : Table :=
  (Property.load tree (Path.join directory "gradle.properties")).toOption.getD ∅

def homeProperties (tree : FileTree) (userHome : Option Text) : Table :=
  ((userHome.filter (!·.isEmpty)).map (propertiesIn tree)).getD ∅

def directoryNames (directory : Text) : Table :=
  ⟨[("rootDir", directory), ("projectDir", directory)]⟩

/-- Where a script finds properties, from the highest precedence to the lowest. The chain leads from
the script back to the first one. -/
def Request.layers (request : Request) (tree : FileTree) (chain : List Script) : List Table :=
  [optionsIn request.environment "JAVA_OPTS", optionsIn request.environment "GRADLE_OPTS",
    Property.ofArguments request.arguments, variablesIn request.environment] ++
  chain.map (Property.extra ·.content) ++
  [propertiesIn tree request.directory, homeProperties tree request.userHome,
    directoryNames request.directory]

open Table (firstValue? firstValue?_cons firstValue?_pair firstValue?_append value?_merge get?_merge)

theorem distinct_extra (content : Text) : (Property.extra content).HasDistinctNames :=
  .ofList _

theorem distinct_inheritedOf (chain : List Script) : (inheritedOf chain).HasDistinctNames := by
  cases chain with
  | nil => exact .empty
  | cons script chain => exact .merge _

theorem distinct_load {tree : FileTree} {path : Text} {table : Table}
    (loaded : Property.load tree path = .ok table) : table.HasDistinctNames := by
  obtain ⟨content, -, same⟩ := bind_eq_ok_iff.mp loaded
  cases same
  cases content with
  | none => exact .empty
  | some content => exact .ofList _

theorem distinct_propertiesIn (tree : FileTree) (directory : Text) :
    (propertiesIn tree directory).HasDistinctNames := by
  unfold propertiesIn
  cases loaded : Property.load tree (Path.join directory "gradle.properties") with
  | error failure => exact .empty
  | ok table => exact distinct_load loaded

theorem distinct_homeProperties (tree : FileTree) (userHome : Option Text) :
    (homeProperties tree userHome).HasDistinctNames := by
  unfold homeProperties
  cases userHome.filter (!·.isEmpty) with
  | none => exact .empty
  | some home => exact distinct_propertiesIn tree home

/-- What comes down a chain is what its scripts declare, of which the later ones count first. -/
theorem value?_inheritedOf (chain : List Script) (name : Text) :
    (inheritedOf chain).value? name = firstValue? (chain.map (Property.extra ·.content)) name := by
  induction chain with
  | nil => rfl
  | cons script chain ih =>
    have distinct : ∀ table ∈ [inheritedOf chain, Property.extra script.content],
        table.HasDistinctNames := by
      simp [distinct_inheritedOf, distinct_extra]
    rw [inheritedOf, Search.extraOf, value?_merge distinct, List.map_cons, firstValue?_cons, ← ih]
    exact firstValue?_pair name _ _

theorem overriding_packaged (arguments : List Text) (environment : Table) :
    Property.overriding Settings.packaged arguments environment =
      .ok (Table.merge (variablesIn environment :: Property.ofArguments arguments ::
        (["GRADLE_OPTS".toList, "JAVA_OPTS".toList].filterMap environment.value?).map
          Property.ofOptions)) := by
  have start := Settings.text_packaged .projectPropertyPrefix (by decide)
  have options := Settings.list_packaged .jvmOptionsVariables (by decide)
  rw [Property.overriding, Property.ofEnvironment, start, options]
  rfl

theorem distinct_ofOptions (options : Text) : (Property.ofOptions options).HasDistinctNames := by
  unfold Property.ofOptions
  split
  · exact .ofList _
  · exact .ofList _

theorem firstValue?_options (environment : Table) (names : List Text) (name : Text) :
    firstValue? ((names.filterMap environment.value?).map Property.ofOptions).reverse name =
      firstValue? (names.map (optionsIn environment)).reverse name := by
  induction names with
  | nil => rfl
  | cons first names ih =>
    rw [List.map_cons, List.reverse_cons, firstValue?_append, ← ih, List.filterMap_cons]
    cases found : environment.value? first with
    | none =>
      have empty : optionsIn environment first = ∅ := by
        rw [optionsIn, found]
        rfl
      rw [empty]
      exact Option.or_none.symm
    | some options =>
      have held : optionsIn environment first = Property.ofOptions options := by
        rw [optionsIn, found]
        rfl
      rw [List.map_cons, List.reverse_cons, firstValue?_append, held]

theorem value?_overriding {arguments : List Text} {environment overriding : Table}
    (found : Property.overriding Settings.packaged arguments environment = .ok overriding)
    (name : Text) :
    overriding.value? name =
      firstValue? [optionsIn environment "JAVA_OPTS", optionsIn environment "GRADLE_OPTS",
        Property.ofArguments arguments, variablesIn environment] name := by
  rw [overriding_packaged] at found
  cases found
  rw [value?_merge]
  · rw [List.reverse_cons, List.reverse_cons, List.append_assoc, firstValue?_append,
      firstValue?_options, ← firstValue?_append]
    rfl
  · intro table member
    rcases List.mem_cons.mp member with rfl | member
    · exact .ofList _
    rcases List.mem_cons.mp member with rfl | member
    · exact .ofList _
    obtain ⟨options, -, rfl⟩ := List.mem_map.mp member
    exact distinct_ofOptions options

theorem base_packaged {tree : FileTree} {directory : Text} {userHome : Option Text} {base : Table}
    (found : Property.base Settings.packaged tree directory userHome = .ok base) :
    base = ((Table.merge [homeProperties tree userHome, propertiesIn tree directory]).setDefault
      "rootDir" directory).setDefault "projectDir" directory := by
  have file := Settings.text_packaged .propertiesFile (by decide)
  have loadedFrom : ∀ home table,
      Property.load tree (Path.join home Settings.Setting.propertiesFile.fallback) = .ok table →
        propertiesIn tree home = table :=
    fun home table loaded => congrArg (·.toOption.getD ∅) loaded
  rw [Property.base, file] at found
  obtain ⟨_, same, found⟩ := bind_eq_ok_iff.mp found
  cases same
  unfold homeProperties
  cases given : userHome.filter (!·.isEmpty) with
  | none =>
    simp only [given] at found
    obtain ⟨_, none, found⟩ := bind_eq_ok_iff.mp found
    obtain ⟨ofProject, project, found⟩ := bind_eq_ok_iff.mp found
    cases none
    cases found
    rw [loadedFrom directory ofProject project]
    rfl
  | some home =>
    simp only [given] at found
    obtain ⟨ofUser, user, found⟩ := bind_eq_ok_iff.mp found
    obtain ⟨ofProject, project, found⟩ := bind_eq_ok_iff.mp found
    cases found
    rw [loadedFrom directory ofProject project, Option.map_some, loadedFrom home ofUser user]
    rfl

/-- The properties below the scripts without a user home, where the file in the directory decides. -/
theorem base_of_load {tree : FileTree} {directory : Text} {table : Table}
    (loaded : Property.load tree (Path.join directory "gradle.properties") = .ok table) :
    Property.base Settings.packaged tree directory none =
      .ok (((Table.merge [∅, table]).setDefault "rootDir" directory).setDefault "projectDir"
        directory) := by
  have file := Settings.text_packaged .propertiesFile (by decide)
  refine bind_eq_ok_iff.mpr ⟨_, file, bind_eq_ok_iff.mpr ⟨∅, rfl, ?_⟩⟩
  exact bind_eq_ok_iff.mpr ⟨table, loaded, rfl⟩

theorem value?_directoryNames {directory : Text} (named : directory ≠ []) (name : Text) :
    (directoryNames directory).value? name =
      (if name = "rootDir".toList then some directory else none).or
        (if name = "projectDir".toList then some directory else none) := by
  have held : (directoryNames directory).get? name =
      (if name = "rootDir".toList then some directory else none).or
        (if name = "projectDir".toList then some directory else none) := by
    rw [directoryNames, Table.get?_cons, Table.get?_cons]
    by_cases root : name = "rootDir".toList
    · rw [if_pos root, if_pos root, Option.some_or]
    · rw [if_neg root, if_neg root, Option.none_or]
      rfl
  rw [Table.value?_eq_get?, held]
  rw [held]
  intro empty
  rcases Option.or_eq_some_iff.mp empty with first | ⟨-, second⟩
  · exact named (Option.some.inj (Option.ite_none_right_eq_some.mp first).2)
  · exact named (Option.some.inj (Option.ite_none_right_eq_some.mp second).2)

theorem value?_base {tree : FileTree} {directory : Text} {userHome : Option Text} {base : Table}
    (named : directory ≠ [])
    (found : Property.base Settings.packaged tree directory userHome = .ok base) (name : Text) :
    base.value? name =
      firstValue? [propertiesIn tree directory, homeProperties tree userHome,
        directoryNames directory] name := by
  have distinct : ∀ table ∈ [homeProperties tree userHome, propertiesIn tree directory],
      table.HasDistinctNames := by
    simp [distinct_homeProperties, distinct_propertiesIn]
  have held : ∀ key, base.get? key =
      firstValue? [propertiesIn tree directory, homeProperties tree userHome,
        directoryNames directory] key := by
    intro key
    rw [base_packaged found, Table.get?_setDefault, Table.get?_setDefault, get?_merge distinct,
      Option.or_assoc, ← value?_directoryNames named]
    have files : firstValue? [homeProperties tree userHome, propertiesIn tree directory].reverse key =
        ((propertiesIn tree directory).value? key).or ((homeProperties tree userHome).value? key) :=
      firstValue?_pair key _ _
    rw [files, Option.or_assoc, firstValue?_cons, firstValue?_pair]
  rw [Table.value?_eq_get?, held]
  rw [held]
  intro empty
  obtain ⟨table, -, none⟩ := List.exists_of_findSome?_eq_some empty
  exact Table.value?_ne_nil table name none

theorem directory_ne_nil {tree : FileTree} {directory : Text}
    (checked : checkDirectory tree directory = .ok ()) : directory ≠ [] := by
  rintro rfl
  cases checked

def layeredBuild : Script :=
  ⟨"/build.gradle", "ext.a = \"1\"\napply from: \"b.gradle\"", .groovy⟩

def layeredApplied : Script := ⟨"/b.gradle", "ext.b = \"3\"", .groovy⟩

def layeredTree : FileTree :=
  ⟨⟨false, []⟩,
    [(["build.gradle"], .file layeredBuild.content.toBytes),
      (["b.gradle"], .file layeredApplied.content.toBytes),
      (["gradle.properties"], .file (Text.toBytes "b=4\nc=5"))]⟩

def layeredRequest : Request := { directory := "/", version := "1", arguments := ["-Pa=6"] }

def layeredSearch : Search where
  settings := Settings.packaged
  tree := layeredTree
  base := Table.ofList [("b", "4"), ("c", "5"), ("rootDir", "/"), ("projectDir", "/")]
  overriding := Table.ofList [("a", "6")]
  isSnapshot := false

theorem search_layeredRequest :
    layeredRequest.search Settings.packaged layeredTree = .ok layeredSearch := by
  have suffix := Settings.text_packaged .snapshotSuffix (by decide)
  have file := Settings.text_packaged .propertiesFile (by decide)
  have base : Property.base Settings.packaged layeredTree "/" none = .ok layeredSearch.base := by
    rw [Property.base, file]
    with_unfolding_all decide
  have overriding : Property.overriding Settings.packaged ["-Pa=6".toList] ∅ =
      .ok layeredSearch.overriding := by
    rw [overriding_packaged]
    decide
  refine bind_eq_ok_iff.mpr ⟨false, ?_, bind_eq_ok_iff.mpr ⟨_, base, ?_⟩⟩
  · rw [isSnapshotVersion, suffix]
    decide
  · exact bind_eq_ok_iff.mpr ⟨_, overriding, rfl⟩

theorem inspect_layeredBuild : layeredSearch.inspect ∅ layeredBuild =
    .ok (.applied [⟨"/b.gradle", Search.extraOf ∅ layeredBuild⟩]) := by
  have usual : layeredSearch.settings = Settings.packaged := by rw [layeredSearch]
  have declared : declaredUrls layeredSearch.settings layeredBuild.dialect layeredBuild.content =
      .ok [] := by
    rw [usual, declaredUrls, families_packaged]
    with_unfolding_all decide
  have paths : Script.appliedPaths layeredSearch.settings layeredBuild.dialect layeredBuild.content
      (layeredSearch.tableOf ∅ layeredBuild) layeredBuild.path = .ok ["/b.gradle".toList] := by
    with_unfolding_all decide
  exact Search.inspect_of_appliedBy declared (Search.appliedBy_of_appliedPaths paths)

def layeredVisit : Visit :=
  ⟨[layeredBuild], Search.extraOf ∅ layeredBuild, layeredApplied⟩

theorem layeredVisit_mem_walk :
    .script layeredVisit ∈ layeredSearch.walk layeredSearch.followedBelow ∅ layeredBuild := by
  let start : Visit := ⟨[], ∅, layeredBuild⟩
  let next : Lead := ⟨[layeredBuild], "/b.gradle", Search.extraOf ∅ layeredBuild⟩
  have below : layeredSearch.followedBelow start = Search.leads start [next.pending] :=
    Search.followedBelow_of_applied inspect_layeredBuild
  have single : Search.leads start [next.pending] = [next] := by rfl
  have fresh : layeredSearch.tree.absolute next.pending.path ∉
      [layeredSearch.tree.absolute layeredBuild.path] := by
    decide
  have loaded : Script.load? layeredSearch.tree next.pending.path = .ok (some layeredApplied) := by
    with_unfolding_all decide
  rw [Search.walk, below, single, preorder_script _ _ fresh loaded]
  exact List.mem_cons_of_mem _ List.mem_cons_self

theorem reaches_layeredVisit :
    layeredRequest.Reaches Settings.packaged layeredTree layeredSearch layeredBuild layeredVisit := by
  have base := Settings.text_packaged .buildScript (by decide)
  have found : buildScript? Settings.packaged layeredTree layeredRequest =
      .ok (some "/build.gradle".toList) := by
    refine bind_eq_ok_iff.mpr ⟨_, base, bind_eq_ok_iff.mpr ⟨none, rfl, ?_⟩⟩
    rw [Script.find?_packaged]
    rfl
  have loaded : Script.load? layeredTree "/build.gradle" = .ok (some layeredBuild) := by
    with_unfolding_all decide
  exact ⟨by decide, search_layeredRequest, ⟨_, .build found, loaded⟩, layeredVisit_mem_walk⟩

end GradlePublishing.Repository
