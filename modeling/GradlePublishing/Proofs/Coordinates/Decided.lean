import GradlePublishing.Proofs.Coordinates.Gathered
import GradlePublishing.Proofs.Coordinates.Unresolved
import GradlePublishing.Proofs.Property.Braced
import Mathlib.Data.List.Induction

/-!
The script that decides a coordinate. The build script comes first among the scripts of a project, and the
first one that assigns a coordinate decides it (`get?_foldl_orElse`). What the build script writes out in
full is therefore what comes out, whatever surrounds it (`assignment_decides`).
-/

namespace GradlePublishing

def Coordinates.get (coordinates : Coordinates) : Coordinates.Field → Text
  | .group => coordinates.group
  | .version => coordinates.version
  | .artifact => coordinates.artifact

namespace Coordinates

section Assigned

variable (assigned other : Assigned) (field : Field)

theorem Assigned.get?_orElse :
    (assigned.orElse other).get? field = (assigned.get? field).or (other.get? field) := by
  cases field <;> rfl

theorem Assigned.get?_set (key : Field) (value : Text) :
    (assigned.set key value).get? field = if field = key then some value else assigned.get? field := by
  cases key <;> cases field <;> rfl

theorem get?_foldl_orElse (scripts : List Script) :
    (scripts.foldl (fun assigned script => assigned.orElse (ofScript script.content)) assigned).get?
        field =
      (assigned.get? field).or (scripts.findSome? fun script => (ofScript script.content).get? field) := by
  induction scripts generalizing assigned with
  | nil => exact Option.or_none.symm
  | cons script scripts ih =>
    rw [List.foldl_cons, ih, Assigned.get?_orElse, Option.or_assoc, List.findSome?_cons]
    cases (ofScript script.content).get? field <;> rfl

end Assigned

theorem ne_nil_of_ofScript {content : Text} {field : Field} {value : Text}
    (assigned : (ofScript content).get? field = some value) : value ≠ [] := by
  unfold ofScript at assigned
  generalize Script.statements assignment? (Script.mask content) = found at assigned
  induction found using List.reverseRecOn with
  | nil => cases field <;> cases assigned
  | append_singleton earlier last ih =>
    rw [List.foldl_append, List.foldl_cons, List.foldl_nil] at assigned
    dsimp only at assigned
    split at assigned
    · exact ih assigned
    · rename_i filled
      rw [Assigned.get?_set] at assigned
      split at assigned
      · cases assigned
        simpa using filled
      · exact ih assigned

theorem resolved?_of_notMem (settings : Settings) (table : Table) {value : Text} (plain : '$' ∉ value) :
    resolved? settings table (some value) = .ok (some value) := by
  have same : Property.resolve settings table value = .ok value := by
    rw [Property.resolve, if_neg (by simpa using plain)]
  rw [resolved?, same, Except.map, Property.hasReference_of_not_mem plain]
  rfl

theorem exists_cons_of_scriptsOf {settings : Settings} {tree : FileTree} {table : Table} {build : Script}
    {scripts : List Script} (gathered : scriptsOf settings tree table build = .ok scripts) :
    ∃ applied, scripts = build :: applied := by
  rw [scriptsOf, Gathering.gather] at gathered
  obtain ⟨paths, -, gathered⟩ := bind_eq_ok_iff.mp gathered
  obtain ⟨applied, -, gathered⟩ := bind_eq_ok_iff.mp gathered
  cases gathered
  exact ⟨applied, rfl⟩

section

variable {settings : Settings} {tree : FileTree} {directory : Text} {overriding : Table} {build : Script}
  {field : Field} {value : Text}

/-- The scripts of a project are the build script and others, and the first that assigns a coordinate decides. -/
theorem exists_of_evidence {given : Evidence}
    (gathered : evidence settings tree directory overriding = .ok given) :
    ∃ build applied, buildScript settings tree directory = .ok build ∧ ∀ field,
      given.assigned.get? field =
        (build :: applied).findSome? fun script => (ofScript script.content).get? field := by
  obtain ⟨_, -, gathered⟩ := bind_eq_ok_iff.mp gathered
  obtain ⟨build, built, gathered⟩ := bind_eq_ok_iff.mp gathered
  obtain ⟨base, -, gathered⟩ := bind_eq_ok_iff.mp gathered
  obtain ⟨scripts, listed, gathered⟩ := bind_eq_ok_iff.mp gathered
  cases gathered
  obtain ⟨applied, rfl⟩ := exists_cons_of_scriptsOf listed
  refine ⟨build, applied, built, fun field => ?_⟩
  rw [get?_foldl_orElse]
  cases field <;> exact Option.none_or

/-- What the scripts of a project assign is what the build script assigns, where it does. -/
theorem assigned_of_buildScript {given : Evidence} (built : buildScript settings tree directory = .ok build)
    (gathered : evidence settings tree directory overriding = .ok given)
    (assigned : (ofScript build.content).get? field = some value) :
    given.assigned.get? field = some value := by
  obtain ⟨first, applied, again, decided⟩ := exists_of_evidence gathered
  obtain rfl : build = first := Except.ok.inj (built.symm.trans again)
  rw [decided, List.findSome?_cons, assigned]

theorem ne_nil_of_evidence {given : Evidence}
    (gathered : evidence settings tree directory overriding = .ok given)
    (assigned : given.assigned.get? field = some value) : value ≠ [] := by
  obtain ⟨build, applied, -, decided⟩ := exists_of_evidence gathered
  rw [decided] at assigned
  obtain ⟨script, -, here⟩ := List.exists_of_findSome?_eq_some assigned
  exact ne_nil_of_ofScript here

/-- What the scripts assign and can be resolved is what comes out, unless it is empty. -/
theorem get_of_decided {given : Evidence} {found : Coordinates}
    (gathered : evidence settings tree directory overriding = .ok given)
    (decided : given.assigned? settings field = .ok (some value)) (filled : value ≠ [])
    (read : ofProject settings tree directory overriding = .ok found) : found.get field = value := by
  obtain ⟨same, group, version, name, again, ofGroup, groups, ofVersion, versions, named, names⟩ :=
    evidence_of_ofProject read
  obtain rfl : same = given := Except.ok.inj (again.symm.trans gathered)
  cases field with
  | group =>
    rw [decided] at ofGroup
    cases ofGroup
    exact (Option.some.inj groups).symm
  | version =>
    rw [decided] at ofVersion
    cases ofVersion
    exact (Option.some.inj versions).symm
  | artifact =>
    rcases artifactName_eq_ok_iff.mp named with ⟨artifact, ofArtifact, rfl⟩ | ⟨absent, -⟩
    · rw [decided] at ofArtifact
      cases ofArtifact
      have present : present? (some value) = some value :=
        Option.filter_eq_some_iff.mpr ⟨rfl, by simpa using filled⟩
      rw [present] at names
      exact names.symm
    · rw [decided] at absent
      cases absent

theorem get_of_assigned {found : Coordinates} (built : buildScript settings tree directory = .ok build)
    (assigned : (ofScript build.content).get? field = some value) (plain : '$' ∉ value)
    (read : ofProject settings tree directory overriding = .ok found) : found.get field = value := by
  obtain ⟨given, _, _, _, gathered, -⟩ := evidence_of_ofProject read
  have decided : given.assigned? settings field = .ok (some value) := by
    rw [Evidence.assigned?, assigned_of_buildScript built gathered assigned]
    exact resolved?_of_notMem settings given.table plain
  exact get_of_decided gathered decided (ne_nil_of_ofScript assigned) read

end

/-- A coordinate that the build script assigns without a reference comes out as it is written in every
project with this build script, whatever the applied scripts, the settings script, the properties files and
the properties that are given say. -/
theorem assignment_decides {settings otherSettings : Settings} {tree otherTree : FileTree}
    {directory otherDirectory : Text} {overriding otherOverriding : Table} {build otherBuild : Script}
    (built : buildScript settings tree directory = .ok build)
    (otherBuilt : buildScript otherSettings otherTree otherDirectory = .ok otherBuild)
    (same : otherBuild.content = build.content) {field : Field} {value : Text}
    (assigned : (ofScript build.content).get? field = some value) (plain : '$' ∉ value) :
    (∀ found, ofProject settings tree directory overriding = .ok found → found.get field = value) ∧
      ∀ found, ofProject otherSettings otherTree otherDirectory otherOverriding = .ok found →
        found.get field = value := by
  refine ⟨fun found read => get_of_assigned built assigned plain read, fun found read => ?_⟩
  exact get_of_assigned otherBuilt (same ▸ assigned) plain read

/-! The same build script in a second project, where a properties file and the given properties name another
version and another group. -/

def rivalTree : FileTree :=
  ⟨⟨false, []⟩,
    [(["app"], .directory),
      (["app", "build.gradle"], .file (Text.toBytes "group = \"com.example\"\nversion = \"1.0\"\n")),
      (["app", "gradle.properties"], .file (Text.toBytes "version=2.0\n"))]⟩

def rivalBuild : Script :=
  ⟨"/app/build.gradle", "group = \"com.example\"\nversion = \"1.0\"\n", .groovy⟩

def rivalProperties : Table := .ofList [("version", "3.0"), ("group", "org.rival")]

theorem buildScript_rival : buildScript Settings.packaged rivalTree "/app" = .ok rivalBuild := by
  have buildName := Settings.text_packaged .buildScript (by decide)
  rw [buildScript, buildName]
  simp only [Script.find?_packaged]
  with_unfolding_all decide

theorem ofProject_rival :
    ofProject Settings.packaged rivalTree "/app" rivalProperties =
      .ok ⟨"com.example", "app", "1.0"⟩ := by
  have settingsName := Settings.text_packaged .settingsScript (by decide)
  have file : Property.load rivalTree (Path.join "/app" "gradle.properties") =
      .ok ⟨[("version", "2.0")]⟩ := by
    with_unfolding_all decide
  have unwritten : Script.writtenPaths rivalBuild.dialect rivalBuild.content = [] := by
    rfl
  have extra : Property.extra rivalBuild.content = ∅ := by
    with_unfolding_all decide
  have assigned : ofScript rivalBuild.content = ⟨some "com.example", some "1.0", none⟩ := by
    with_unfolding_all decide
  have unnamed : ∀ table, rootName Settings.packaged rivalTree table "/app" = .ok none := by
    intro table
    rw [rootName, settingsName]
    simp only [Script.find?_packaged]
    rfl
  have gathered := evidence_of_isolated rfl buildScript_rival (Repository.base_of_load file)
    (Script.appliedPaths_of_unwritten unwritten _ (Table.merge [_, rivalProperties]) _)
  rw [extra, assigned] at gathered
  exact ofProject_of_evidence gathered rfl rfl rfl rfl
    (artifactName_eq_ok_iff.mpr (.inr ⟨rfl, unnamed _⟩)) rfl

theorem assignment_decides_rival :
    (ofScript unknownNameBuild.content).get? .version = some "1.0" ∧
      rivalBuild.content = unknownNameBuild.content ∧
      (ofProject Settings.packaged unknownNameTree "/" ∅ = .ok unknownNameCoordinates ∧
        unknownNameCoordinates.get .version = "1.0") ∧
      ofProject Settings.packaged rivalTree "/app" rivalProperties = .ok ⟨"com.example", "app", "1.0"⟩ ∧
        Coordinates.get ⟨"com.example", "app", "1.0"⟩ .version = "1.0" := by
  have assigned : (ofScript unknownNameBuild.content).get? .version = some "1.0".toList := by
    with_unfolding_all decide
  have plain : '$' ∉ "1.0".toList := by decide
  obtain ⟨first, second⟩ :=
    assignment_decides buildScript_unknownName buildScript_rival rfl assigned plain
  exact ⟨assigned, rfl, ⟨ofProject_unknownName, first _ ofProject_unknownName⟩, ofProject_rival,
    second _ ofProject_rival⟩

end Coordinates

end GradlePublishing
