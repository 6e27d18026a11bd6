import GradlePublishing.Proofs.Coordinates.Gathered
import GradlePublishing.Proofs.Repository.Precedence

/-!
Coordinates that hold a reference. The values that scripts assign are resolved and dropped when that
fails. The properties `group` and `version` are not even resolved, and the name of the root project is
kept whatever comes of it, so these and the name of the directory are the only sources of a reference
(`source_of_unresolved_coordinate`).
-/

namespace GradlePublishing.Coordinates

open Property (hasReference)

/-- What a project says about its coordinates: the properties that references are resolved with, and what
its scripts assign. -/
structure Evidence where
  table : Table
  assigned : Assigned

def evidence (settings : Settings) (tree : FileTree) (directory : Text) (overriding : Table) :
    Except Failure Evidence := do
  Repository.checkDirectory tree directory
  let build ← buildScript settings tree directory
  let base ← Property.base settings tree directory none
  let scripts ← scriptsOf settings tree (Table.merge [base, overriding]) build
  let extra := Table.merge (scripts.map fun script => Property.extra script.content)
  return ⟨Table.merge [base, extra, overriding],
    scripts.foldl
      (fun (assigned : Assigned) script => assigned.orElse (ofScript script.content)) {}⟩

/-- A build script that applies nothing is all the evidence besides the properties. -/
theorem evidence_of_isolated {settings : Settings} {tree : FileTree} {directory : Text}
    {overriding base : Table} {build : Script}
    (checked : Repository.checkDirectory tree directory = .ok ())
    (built : buildScript settings tree directory = .ok build)
    (below : Property.base settings tree directory none = .ok base)
    (isolated : Script.appliedPaths settings build.dialect build.content (Table.merge [base, overriding])
      build.path = .ok []) :
    evidence settings tree directory overriding =
      .ok ⟨Table.merge [base, Table.merge [Property.extra build.content], overriding],
        ofScript build.content⟩ :=
  bind_eq_ok_iff.mpr ⟨_, checked, bind_eq_ok_iff.mpr ⟨_, built, bind_eq_ok_iff.mpr ⟨_, below,
    bind_eq_ok_iff.mpr ⟨_, scriptsOf_of_isolated isolated, rfl⟩⟩⟩⟩

/-- The value that the scripts assign to a coordinate, unless its references cannot be resolved. -/
def Evidence.assigned? (evidence : Evidence) (settings : Settings) (field : Field) :
    Except Failure (Option Text) :=
  resolved? settings evidence.table (evidence.assigned.get? field)

/-- The name of the artifact that its scripts assign, or else that of the root project. -/
def Evidence.artifactName (evidence : Evidence) (settings : Settings) (tree : FileTree)
    (directory : Text) : Except Failure (Option Text) := do
  match ← evidence.assigned? settings .artifact with
  | some artifact => return some artifact
  | none => rootName settings tree evidence.table directory

theorem resolved?_eq_some_iff {settings : Settings} {table : Table} {value : Option Text}
    {resolved : Text} : resolved? settings table value = .ok (some resolved) ↔
      ∃ written, value = some written ∧ Property.resolve settings table written = .ok resolved ∧
        hasReference resolved = false := by
  cases value with
  | none => simp [resolved?]
  | some written =>
    cases computed : Property.resolve settings table written with
    | error failure => simp [resolved?, computed, Except.map]
    | ok text =>
      simp only [resolved?, computed, Except.map, Except.ok.injEq, Option.some.injEq, exists_eq_left']
      constructor
      · intro kept
        split at kept
        · cases kept
        · rename_i closed
          cases kept
          exact ⟨rfl, Bool.not_eq_true _ ▸ closed⟩
      · rintro ⟨rfl, closed⟩
        rw [if_neg (by simp [closed])]

theorem hasReference_of_resolved? {settings : Settings} {table : Table} {value : Option Text}
    {resolved : Text} (found : resolved? settings table value = .ok (some resolved)) :
    hasReference resolved = false := by
  obtain ⟨written, -, -, closed⟩ := resolved?_eq_some_iff.mp found
  exact closed

theorem present?_eq_some {value : Option Text} {text : Text} (present : present? value = some text) :
    value = some text :=
  (Option.filter_eq_some_iff.mp present).1

theorem fields_of_complete {group version name : Option Text} {directory directoryName : Text}
    {found : Coordinates}
    (complete : (match present? group, present? version with
      | some group, some version => return ⟨group, (present? name).getD directoryName, version⟩
      | some _, none => throw (Failure.missingCoordinates ["version"] directory)
      | none, some _ => throw (Failure.missingCoordinates ["group"] directory)
      | none, none => throw (Failure.missingCoordinates ["group", "version"] directory) :
        Except Failure Coordinates) = .ok found) :
    group = some found.group ∧ version = some found.version ∧
      (present? name).getD directoryName = found.artifact := by
  split at complete <;> cases complete
  exact ⟨present?_eq_some ‹_›, present?_eq_some ‹_›, rfl⟩

theorem evidence_of_ofProject {settings : Settings} {tree : FileTree} {directory : Text}
    {overriding : Table} {found : Coordinates}
    (read : ofProject settings tree directory overriding = .ok found) :
    ∃ given group version name, evidence settings tree directory overriding = .ok given ∧
      given.assigned? settings .group = .ok group ∧
      group.or (given.table.value? "group") = some found.group ∧
      given.assigned? settings .version = .ok version ∧
      version.or (given.table.value? "version") = some found.version ∧
      given.artifactName settings tree directory = .ok name ∧
      (present? name).getD ((tree.absolute directory).components.getLastD []) = found.artifact := by
  obtain ⟨_, checked, read⟩ := bind_eq_ok_iff.mp read
  obtain ⟨build, built, read⟩ := bind_eq_ok_iff.mp read
  obtain ⟨base, below, read⟩ := bind_eq_ok_iff.mp read
  obtain ⟨scripts, gathered, read⟩ := bind_eq_ok_iff.mp read
  obtain ⟨group, ofGroup, read⟩ := bind_eq_ok_iff.mp read
  obtain ⟨version, ofVersion, read⟩ := bind_eq_ok_iff.mp read
  obtain ⟨artifact, ofArtifact, read⟩ := bind_eq_ok_iff.mp read
  have given : evidence settings tree directory overriding = .ok _ :=
    bind_eq_ok_iff.mpr ⟨_, checked, bind_eq_ok_iff.mpr ⟨_, built, bind_eq_ok_iff.mpr ⟨_, below,
      bind_eq_ok_iff.mpr ⟨_, gathered, rfl⟩⟩⟩⟩
  cases artifact with
  | some artifact =>
    obtain ⟨name, named, read⟩ := bind_eq_ok_iff.mp read
    cases named
    obtain ⟨groups, versions, names⟩ := fields_of_complete read
    exact ⟨_, _, _, _, given, ofGroup, groups, ofVersion, versions,
      bind_eq_ok_iff.mpr ⟨_, ofArtifact, rfl⟩, names⟩
  | none =>
    obtain ⟨name, named, read⟩ := bind_eq_ok_iff.mp read
    obtain ⟨groups, versions, names⟩ := fields_of_complete read
    exact ⟨_, _, _, _, given, ofGroup, groups, ofVersion, versions,
      bind_eq_ok_iff.mpr ⟨_, ofArtifact, named⟩, names⟩

theorem ofProject_of_evidence {settings : Settings} {tree : FileTree} {directory : Text}
    {overriding : Table} {given : Evidence} {group version name : Option Text} {found : Coordinates}
    (gathered : evidence settings tree directory overriding = .ok given)
    (ofGroup : given.assigned? settings .group = .ok group)
    (groups : present? (group.or (given.table.value? "group")) = some found.group)
    (ofVersion : given.assigned? settings .version = .ok version)
    (versions : present? (version.or (given.table.value? "version")) = some found.version)
    (named : given.artifactName settings tree directory = .ok name)
    (names : (present? name).getD ((tree.absolute directory).components.getLastD []) = found.artifact) :
    ofProject settings tree directory overriding = .ok found := by
  obtain ⟨_, checked, gathered⟩ := bind_eq_ok_iff.mp gathered
  obtain ⟨build, built, gathered⟩ := bind_eq_ok_iff.mp gathered
  obtain ⟨base, below, gathered⟩ := bind_eq_ok_iff.mp gathered
  obtain ⟨scripts, listed, gathered⟩ := bind_eq_ok_iff.mp gathered
  cases gathered
  obtain ⟨artifact, ofArtifact, named⟩ := bind_eq_ok_iff.mp named
  refine bind_eq_ok_iff.mpr ⟨_, checked, bind_eq_ok_iff.mpr ⟨_, built, bind_eq_ok_iff.mpr ⟨_, below,
    bind_eq_ok_iff.mpr ⟨_, listed, bind_eq_ok_iff.mpr ⟨_, ofGroup, bind_eq_ok_iff.mpr ⟨_, ofVersion,
      bind_eq_ok_iff.mpr ⟨_, ofArtifact, ?_⟩⟩⟩⟩⟩⟩⟩
  cases artifact with
  | some artifact =>
    cases named
    refine bind_eq_ok_iff.mpr ⟨some artifact, rfl, ?_⟩
    simp only [groups, versions, names]
    rfl
  | none =>
    refine bind_eq_ok_iff.mpr ⟨name, named, ?_⟩
    simp only [groups, versions, names]
    rfl

/-- A value holds a reference if it is a property with one and no script assigns a value. -/
theorem hasReference_iff_of_or {settings : Settings} {table : Table}
    {written assigned property : Option Text} {found : Text}
    (resolved : resolved? settings table written = .ok assigned)
    (taken : assigned.or property = some found) :
    hasReference found = true ↔ resolved? settings table written = .ok none ∧
      ∃ value, property = some value ∧ hasReference value = true := by
  cases assigned with
  | none => simp [resolved, show property = some found from taken]
  | some text =>
    cases taken
    simp [resolved, hasReference_of_resolved? resolved]

/-- What an artifact is named after: the settings script, if no script assigns a name. -/
theorem artifactName_eq_ok_iff {given : Evidence} {settings : Settings} {tree : FileTree}
    {directory : Text} {name : Option Text} :
    given.artifactName settings tree directory = .ok name ↔
      (∃ text, given.assigned? settings .artifact = .ok (some text) ∧ name = some text) ∨
        given.assigned? settings .artifact = .ok none ∧
          rootName settings tree given.table directory = .ok name := by
  constructor
  · intro named
    obtain ⟨artifact, ofArtifact, named⟩ := bind_eq_ok_iff.mp named
    cases artifact with
    | none => exact .inr ⟨ofArtifact, named⟩
    | some artifact =>
      cases named
      exact .inl ⟨artifact, ofArtifact, rfl⟩
  · rintro (⟨text, ofArtifact, rfl⟩ | ⟨ofArtifact, named⟩)
    · exact bind_eq_ok_iff.mpr ⟨_, ofArtifact, rfl⟩
    · exact bind_eq_ok_iff.mpr ⟨_, ofArtifact, named⟩

theorem present?_of_hasReference {text : Text} (unresolved : hasReference text = true) :
    present? (some text) = some text := by
  cases text with
  | nil => cases unresolved
  | cons c text => rfl

/-- The only ways for a reference to come into the coordinates: as a property or as the name in the
settings script, where the scripts assign nothing that can be resolved, or with the directory. -/
theorem source_of_unresolved_coordinate {settings : Settings} {tree : FileTree} {directory : Text}
    {overriding : Table} {found : Coordinates}
    (read : ofProject settings tree directory overriding = .ok found) :
    ∃ given, evidence settings tree directory overriding = .ok given ∧
      (hasReference found.group = true ↔ given.assigned? settings .group = .ok none ∧
        ∃ value, given.table.value? "group" = some value ∧ hasReference value = true) ∧
      (hasReference found.version = true ↔ given.assigned? settings .version = .ok none ∧
        ∃ value, given.table.value? "version" = some value ∧ hasReference value = true) ∧
      (hasReference found.artifact = true ↔
        (given.assigned? settings .artifact = .ok none ∧
          ∃ name, rootName settings tree given.table directory = .ok (some name) ∧
            hasReference name = true) ∨
        ((given.artifactName settings tree directory).map present? = .ok none ∧
          hasReference ((tree.absolute directory).components.getLastD []) = true)) := by
  obtain ⟨given, group, version, name, gathered, ofGroup, groups, ofVersion, versions, named,
    names⟩ := evidence_of_ofProject read
  refine ⟨given, gathered, hasReference_iff_of_or ofGroup groups,
    hasReference_iff_of_or ofVersion versions, ?_⟩
  constructor
  · intro unresolved
    cases here : present? name with
    | none =>
      rw [here, Option.getD_none] at names
      exact .inr ⟨by rw [named, Except.map, here], names ▸ unresolved⟩
    | some text =>
      rw [here] at names
      obtain rfl : text = found.artifact := names
      rcases artifactName_eq_ok_iff.mp named with ⟨artifact, ofArtifact, same⟩ | ⟨absent, ofRoot⟩
      · rw [present?_eq_some here] at same
        cases same
        rw [hasReference_of_resolved? ofArtifact] at unresolved
        cases unresolved
      · rw [present?_eq_some here] at ofRoot
        exact .inl ⟨absent, _, ofRoot, unresolved⟩
  · rintro (⟨absent, text, ofRoot, unresolved⟩ | ⟨nameless, unresolved⟩)
    · have same := artifactName_eq_ok_iff.mpr (.inr ⟨absent, ofRoot⟩)
      rw [named] at same
      cases same
      rw [present?_of_hasReference unresolved] at names
      exact names ▸ unresolved
    · rw [named] at nameless
      have nothing : present? name = none := Except.ok.inj nameless
      rw [nothing, Option.getD_none] at names
      exact names ▸ unresolved

/-! A settings script that takes the name of the project from a property that does not exist. -/

def unknownNameTree : FileTree :=
  ⟨⟨false, []⟩,
    [(["build.gradle"], .file (Text.toBytes "group = \"com.example\"\nversion = \"1.0\"\n")),
      (["settings.gradle"], .file (Text.toBytes "rootProject.name = \"${unknown}\"\n"))]⟩

def unknownNameBuild : Script :=
  ⟨"/build.gradle", "group = \"com.example\"\nversion = \"1.0\"\n", .groovy⟩

def unknownNameBase : Table := .ofList [("rootDir", "/"), ("projectDir", "/")]

def unknownNameCoordinates : Coordinates := ⟨"com.example", "${unknown}", "1.0"⟩

theorem appliedPaths_unknownName (table : Table) :
    Script.appliedPaths Settings.packaged unknownNameBuild.dialect unknownNameBuild.content table
      unknownNameBuild.path = .ok [] := by
  have unwritten : Script.writtenPaths unknownNameBuild.dialect unknownNameBuild.content = [] := by
    rfl
  exact Script.appliedPaths_of_unwritten unwritten Settings.packaged table unknownNameBuild.path

theorem rootName_unknownName :
    rootName Settings.packaged unknownNameTree (Table.merge [unknownNameBase, Table.merge [∅], ∅])
      "/" = .ok (some "${unknown}") := by
  have settingsName := Settings.text_packaged .settingsScript (by decide)
  have depth := Settings.text_packaged .maxPropertyDepth (by decide)
  have found : Script.find? Settings.packaged unknownNameTree "/"
      Settings.Setting.settingsScript.fallback = .ok (some "/settings.gradle") := by
    rw [Script.find?_packaged]
    rfl
  have resolved : Property.resolve Settings.packaged
      (Table.merge [unknownNameBase, Table.merge [∅], ∅]) "${unknown}" =
        .ok "${unknown}" := by
    rw [Property.resolve, Settings.maxPropertyDepth, depth]
    with_unfolding_all decide
  refine bind_eq_ok_iff.mpr ⟨_, settingsName, ?_⟩
  refine bind_eq_ok_iff.mpr ⟨_, found, ?_⟩
  refine bind_eq_ok_iff.mpr ⟨some ⟨"/settings.gradle",
    "rootProject.name = \"${unknown}\"\n", .groovy⟩, by with_unfolding_all decide, ?_⟩
  have named : rootNameOf? "rootProject.name = \"${unknown}\"\n" =
      some "${unknown}" := by
    with_unfolding_all decide
  rw [Option.bind_some, named]
  exact bind_eq_ok_iff.mpr ⟨_, resolved, rfl⟩

theorem buildScript_unknownName :
    buildScript Settings.packaged unknownNameTree "/" = .ok unknownNameBuild := by
  have buildName := Settings.text_packaged .buildScript (by decide)
  rw [buildScript, buildName]
  simp only [Script.find?_packaged]
  with_unfolding_all decide

theorem ofProject_unknownName :
    ofProject Settings.packaged unknownNameTree "/" ∅ = .ok unknownNameCoordinates := by
  have file : Property.load unknownNameTree (Path.join "/" "gradle.properties") = .ok ∅ := by
    rfl
  have base : Property.base Settings.packaged unknownNameTree "/" none = .ok unknownNameBase :=
    Repository.base_of_load file
  have extra : Property.extra unknownNameBuild.content = ∅ := by
    with_unfolding_all decide
  have assigned : ofScript unknownNameBuild.content = ⟨some "com.example", some "1.0", none⟩ := by
    with_unfolding_all decide
  have isolated := appliedPaths_unknownName (Table.merge [unknownNameBase, ∅])
  have gathered := evidence_of_isolated rfl buildScript_unknownName base isolated
  rw [extra, assigned] at gathered
  exact ofProject_of_evidence gathered rfl rfl rfl rfl
    (artifactName_eq_ok_iff.mpr (.inr ⟨rfl, rootName_unknownName⟩)) rfl

theorem source_of_unknownName :
    ofProject Settings.packaged unknownNameTree "/" ∅ = .ok unknownNameCoordinates ∧
      ∃ given, evidence Settings.packaged unknownNameTree "/" ∅ = .ok given ∧
        given.assigned? Settings.packaged .artifact = .ok none ∧
          ∃ name, rootName Settings.packaged unknownNameTree given.table "/" = .ok (some name) ∧
            hasReference name = true := by
  refine ⟨ofProject_unknownName, ?_⟩
  obtain ⟨given, gathered, -, -, artifact⟩ := source_of_unresolved_coordinate ofProject_unknownName
  have unresolved : hasReference unknownNameCoordinates.artifact = true := by decide
  refine ⟨given, gathered, (artifact.mp unresolved).resolve_right fun ofDirectory => ?_⟩
  have resolved : hasReference ((unknownNameTree.absolute "/").components.getLastD []) = false := by
    decide
  rw [resolved] at ofDirectory
  cases ofDirectory.2

/-- Coordinates with a reference are returned, also for a directory without one in its name. -/
theorem not_forall_coordinates_resolved :
    ¬ ∀ (tree : FileTree) (directory : Text) (overriding : Table) (found : Coordinates),
      ofProject Settings.packaged tree directory overriding = .ok found →
      hasReference ((tree.absolute directory).components.getLastD []) = false →
      hasReference found.group = false ∧ hasReference found.artifact = false ∧
        hasReference found.version = false := by
  intro resolved
  have absent := (resolved _ _ _ _ ofProject_unknownName (by decide)).2.1
  have unresolved : hasReference unknownNameCoordinates.artifact = true := by decide
  rw [unresolved] at absent
  cases absent

end GradlePublishing.Coordinates
