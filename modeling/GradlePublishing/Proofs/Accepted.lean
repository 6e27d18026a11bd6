import GradlePublishing.Proofs.Coordinates.Decided
import GradlePublishing.Proofs.Property.Resolved
import GradlePublishing.Proofs.Repository.Unresolved
import GradlePublishing.Proofs.Script.AppliedLayout

/-!
What is accepted once it is resolved. The URLs of repositories, the paths of applied scripts and the coordinates
that scripts assign are checked for references that resolving has left. What passes the check is final: resolved
again it stays the same, whatever the properties are by then (`accepted_values_stay`).
-/

namespace GradlePublishing

open Property (hasReference resolve resolveTo)

/-- Resolving changes nothing in the value, with any properties and to any depth, nor to the depth in the
settings. -/
def IsFinal (settings : Settings) (value : Text) : Prop :=
  ∀ table, (∀ depth, resolveTo depth table value = value) ∧ resolve settings table value = .ok value

section

variable {settings : Settings} {table : Table} {written value : Text}

theorem isFinal_of_closed (closed : hasReference value = false)
    (readable : '$' ∈ value → ∃ depth, settings.maxPropertyDepth = .ok depth) : IsFinal settings value := by
  intro table
  refine ⟨fun depth => ?_, Property.resolve_of_hasReference_eq_false closed readable⟩
  exact Property.resolveTo_of_hasReference_eq_false table depth closed

theorem isFinal_of_resolve (resolved : resolve settings table written = .ok value)
    (closed : hasReference value = false) : IsFinal settings value :=
  isFinal_of_closed closed (Property.exists_depth_of_resolve resolved)

end

/-- The texts that are accepted because resolving has left no reference in them, by the places where that is
asked. -/
inductive IsAccepted (settings : Settings) : Text → Prop
  /-- A URL that a repository key is looked for in. -/
  | url {search : Repository.Search} {inherited : Table} {script : Script} {usable : List Text} {url : Text}
      (under : search.settings = settings) (found : search.usableUrls inherited script = .ok usable)
      (member : url ∈ usable) : IsAccepted settings url
  /-- The path in an apply statement that leads to a local file. -/
  | path {table : Table} {written path directory file : Text}
      (resolved : resolve settings table written = .ok path)
      (leads : Script.localPath? directory path = some file) : IsAccepted settings path
  /-- The file itself. The directory that it is looked for in is not resolved and may hold no `$`. -/
  | file {dialect : Dialect} {content place : Text} {table : Table} {files : List Text} {file : Text}
      (applied : Script.appliedPaths settings dialect content table place = .ok files) (member : file ∈ files)
      (plain : '$' ∉ Path.directory place) : IsAccepted settings file
  /-- The value that the scripts of a project assign to a coordinate. -/
  | assigned {given : Coordinates.Evidence} {field : Coordinates.Field} {value : Text}
      (decided : given.assigned? settings field = .ok (some value)) : IsAccepted settings value
  /-- The coordinate that comes out where they assign one. -/
  | coordinate {tree : FileTree} {directory : Text} {overriding : Table} {given : Coordinates.Evidence}
      {found : Coordinates} {field : Coordinates.Field} {value : Text}
      (read : Coordinates.ofProject settings tree directory overriding = .ok found)
      (gathered : Coordinates.evidence settings tree directory overriding = .ok given)
      (decided : given.assigned? settings field = .ok (some value)) : IsAccepted settings (found.get field)

section

variable {settings : Settings}

theorem isFinal_of_mem_usableUrls {search : Repository.Search} {inherited : Table} {script : Script}
    {usable : List Text} {url : Text} (found : search.usableUrls inherited script = .ok usable)
    (member : url ∈ usable) : IsFinal search.settings url := by
  have closed := Repository.hasReference_of_mem_usableUrls found member
  obtain ⟨written, urls, -, resolved, rfl⟩ := Repository.Search.usableUrls_eq_ok_iff.mp found
  obtain ⟨raw, -, computed⟩ := exists_of_mem_mapM resolved (List.mem_filter.mp member).1
  exact isFinal_of_resolve computed closed

/-- A path is placed behind some of the directory, if anything, and then normalised. -/
theorem exists_of_localPath? {directory path file : Text}
    (leads : Script.localPath? directory path = some file) :
    hasReference path = false ∧
      ∃ front, front ⊆ directory ++ ['/'] ∧ file = Path.normalize (front ++ path) := by
  rw [Script.localPath?_eq] at leads
  split at leads
  · cases leads
  · rename_i kept
    cases leads
    rw [Bool.or_eq_true, not_or, Bool.not_eq_true, Bool.not_eq_true] at kept
    obtain ⟨front, joined, within⟩ := Path.exists_front_join directory path
    exact ⟨kept.2, front, within, by rw [joined]⟩

theorem isFinal_of_mem_appliedPaths {dialect : Dialect} {content place : Text} {table : Table}
    {files : List Text} {file : Text}
    (applied : Script.appliedPaths settings dialect content table place = .ok files) (member : file ∈ files)
    (plain : '$' ∉ Path.directory place) : IsFinal settings file := by
  obtain ⟨paths, resolved, found⟩ := bind_eq_ok_iff.mp applied
  cases found
  obtain ⟨path, listed, leads⟩ := List.mem_filterMap.mp member
  obtain ⟨written, -, computed⟩ := exists_of_mem_mapM resolved listed
  obtain ⟨closed, front, within, rfl⟩ := exists_of_localPath? leads
  have noDollar : '$' ∉ front := by
    intro dollar
    rcases List.mem_append.mp (within dollar) with inside | slash
    · exact plain inside
    · cases List.mem_singleton.mp slash
  apply isFinal_of_closed
  · rw [← Bool.not_eq_true]
    intro found
    have held := Property.hasReference_of_normalize found
    rw [Property.hasReference_append_of_not_mem noDollar, closed] at held
    cases held
  · intro dollar
    have held := (List.mem_append.mp (Property.dollar_mem_of_normalize dollar)).resolve_left noDollar
    exact Property.exists_depth_of_resolve computed held

theorem isFinal_of_assigned? {given : Coordinates.Evidence} {field : Coordinates.Field} {value : Text}
    (decided : given.assigned? settings field = .ok (some value)) : IsFinal settings value := by
  obtain ⟨written, -, computed, closed⟩ := Coordinates.resolved?_eq_some_iff.mp decided
  exact isFinal_of_resolve computed closed

/-- Scripts assign no empty value, and none becomes empty when it is resolved. -/
theorem ne_nil_of_assigned? {tree : FileTree} {directory : Text} {overriding : Table}
    {given : Coordinates.Evidence} {field : Coordinates.Field} {value : Text}
    (gathered : Coordinates.evidence settings tree directory overriding = .ok given)
    (decided : given.assigned? settings field = .ok (some value)) : value ≠ [] := by
  obtain ⟨written, assigned, computed, -⟩ := Coordinates.resolved?_eq_some_iff.mp decided
  exact Property.resolve_ne_nil (Coordinates.ne_nil_of_evidence gathered assigned) computed

end

/-- A value in which no reference is found stays as it is, with all properties and to every depth. So do the
URLs, the applied paths and the coordinates that are accepted because none is found in them. -/
theorem accepted_values_stay :
    (∀ value, hasReference value = false → ∀ (table : Table) (depth : Int), resolveTo depth table value = value) ∧
      ∀ settings value, IsAccepted settings value → IsFinal settings value := by
  refine ⟨fun value closed table depth => ?_, fun settings value accepted => ?_⟩
  · exact Property.resolveTo_of_hasReference_eq_false table depth closed
  · cases accepted with
    | url under found member => exact under ▸ isFinal_of_mem_usableUrls found member
    | path resolved leads => exact isFinal_of_resolve resolved (exists_of_localPath? leads).1
    | file applied member plain => exact isFinal_of_mem_appliedPaths applied member plain
    | assigned decided => exact isFinal_of_assigned? decided
    | coordinate read gathered decided =>
      rw [Coordinates.get_of_decided gathered decided (ne_nil_of_assigned? gathered decided) read]
      exact isFinal_of_assigned? decided

/-! Texts with a `$` that starts no reference: in the values of properties, and where a script writes it. -/

def dollarProperties : Table := .ofList [("team", "com.$1"), ("key", "libs$")]

def dollarBuild : Script :=
  ⟨"/app/build.gradle", "group = \"${team}.lib$\"\nversion = \"1.$\"\n", .groovy⟩

def dollarTree : FileTree :=
  ⟨⟨false, []⟩, [(["app"], .directory), (["app", "build.gradle"], .file dollarBuild.content.toBytes)]⟩

def dollarBase : Table := .ofList [("rootDir", "/app"), ("projectDir", "/app")]

def dollarEvidence : Coordinates.Evidence where
  table := Table.merge [dollarBase, Table.merge [∅], dollarProperties]
  assigned := ⟨some "${team}.lib$", some "1.$", none⟩

def dollarScript : Script :=
  ⟨"/app/repository.gradle",
    r#"publishing { repositories { maven { url "/artifactory/$key" } } }"#, .groovy⟩

def dollarSearch : Repository.Search := ⟨Settings.packaged, dollarTree, ∅, dollarProperties, false⟩

theorem buildScript_dollar :
    Coordinates.buildScript Settings.packaged dollarTree "/app" = .ok dollarBuild := by
  have buildName := Settings.text_packaged .buildScript (by decide)
  rw [Coordinates.buildScript, buildName]
  simp only [Script.find?_packaged]
  with_unfolding_all decide

theorem base_dollar : Property.base Settings.packaged dollarTree "/app" none = .ok dollarBase := by
  have file : Property.load dollarTree (Path.join "/app" "gradle.properties") = .ok ∅ := by
    rfl
  exact Repository.base_of_load file

theorem extra_dollar : Property.extra dollarBuild.content = ∅ := by
  with_unfolding_all decide

theorem ofScript_dollar : Coordinates.ofScript dollarBuild.content = dollarEvidence.assigned := by
  with_unfolding_all decide

theorem evidence_dollar :
    Coordinates.evidence Settings.packaged dollarTree "/app" dollarProperties = .ok dollarEvidence := by
  have unwritten : Script.writtenPaths dollarBuild.dialect dollarBuild.content = [] := by
    rfl
  have gathered := Coordinates.evidence_of_isolated rfl buildScript_dollar base_dollar
    (Script.appliedPaths_of_unwritten unwritten _ (Table.merge [_, dollarProperties]) _)
  rwa [extra_dollar, ofScript_dollar] at gathered

theorem assigned?_dollar (field : Coordinates.Field) :
    dollarEvidence.assigned? Settings.packaged field =
      .ok (match field with
        | .group => some "com.$1.lib$"
        | .version => some "1.$"
        | .artifact => none) := by
  simp only [Coordinates.Evidence.assigned?, Coordinates.resolved?, Script.resolve_packaged]
  cases field with
  | group => with_unfolding_all decide
  | version => with_unfolding_all decide
  | artifact => rfl

theorem ofProject_dollar :
    Coordinates.ofProject Settings.packaged dollarTree "/app" dollarProperties =
      .ok ⟨"com.$1.lib$", "app", "1.$"⟩ := by
  have settingsName := Settings.text_packaged .settingsScript (by decide)
  have unnamed : Coordinates.rootName Settings.packaged dollarTree dollarEvidence.table "/app" = .ok none := by
    rw [Coordinates.rootName, settingsName]
    simp only [Script.find?_packaged]
    rfl
  have named : dollarEvidence.artifactName Settings.packaged dollarTree "/app" = .ok none :=
    Coordinates.artifactName_eq_ok_iff.mpr (.inr ⟨assigned?_dollar .artifact, unnamed⟩)
  exact Coordinates.ofProject_of_evidence evidence_dollar (assigned?_dollar .group) rfl
    (assigned?_dollar .version) rfl named rfl

theorem resolve_dollar :
    resolve Settings.packaged dollarProperties "$team/a.gradle" = .ok "com.$1/a.gradle" ∧
      resolve Settings.packaged dollarProperties "/artifactory/$key" = .ok "/artifactory/libs$" := by
  rw [Script.resolve_packaged, Script.resolve_packaged]
  constructor
  · with_unfolding_all decide
  · with_unfolding_all decide

theorem usableUrls_dollar : dollarSearch.usableUrls ∅ dollarScript = .ok ["/artifactory/libs$"] := by
  have usual : dollarSearch.settings = Settings.packaged := by rw [dollarSearch]
  have declared : Repository.declaredUrls dollarSearch.settings dollarScript.dialect dollarScript.content =
      .ok ["/artifactory/$key"] := by
    rw [usual, Repository.declaredUrls, Repository.families_packaged]
    decide +kernel
  have table : dollarSearch.tableOf ∅ dollarScript = dollarProperties := by
    decide +kernel
  refine Repository.Search.usableUrls_eq_ok_iff.mpr ⟨_, ["/artifactory/libs$"], declared, ?_, by decide⟩
  rw [usual, table, List.mapM_cons, resolve_dollar.2]
  rfl

theorem appliedPaths_dollar :
    Script.appliedPaths Settings.packaged .groovy "apply from: \"$team/a.gradle\"" dollarProperties
      dollarBuild.path = .ok ["/app/com.$1/a.gradle"] := by
  have written : Script.writtenPaths .groovy "apply from: \"$team/a.gradle\"" =
      ["$team/a.gradle".toList] := by
    decide +kernel
  rw [Script.appliedPaths, written, List.mapM_cons, resolve_dollar.1]
  with_unfolding_all decide

theorem accepted_values_stay_dollar :
    (∀ (table : Table) (depth : Int),
      resolveTo depth table r"} $ $1 ${open $." = r"} $ $1 ${open $.") ∧
    (dollarSearch.usableUrls ∅ dollarScript = .ok ["/artifactory/libs$"] ∧
      IsFinal Settings.packaged "/artifactory/libs$") ∧
    (resolve Settings.packaged dollarProperties "$team/a.gradle" = .ok "com.$1/a.gradle" ∧
      IsFinal Settings.packaged "com.$1/a.gradle") ∧
    (Script.appliedPaths Settings.packaged .groovy "apply from: \"$team/a.gradle\"" dollarProperties
        dollarBuild.path = .ok ["/app/com.$1/a.gradle"] ∧
      IsFinal Settings.packaged "/app/com.$1/a.gradle") ∧
    (Coordinates.ofProject Settings.packaged dollarTree "/app" dollarProperties =
        .ok ⟨"com.$1.lib$", "app", "1.$"⟩ ∧
      IsFinal Settings.packaged "com.$1.lib$" ∧ IsFinal Settings.packaged "1.$") := by
  have accepted := accepted_values_stay.2 Settings.packaged
  refine ⟨accepted_values_stay.1 _ (by decide), ⟨usableUrls_dollar, ?_⟩, ⟨resolve_dollar.1, ?_⟩,
    ⟨appliedPaths_dollar, ?_⟩, ofProject_dollar, ?_, ?_⟩
  · exact accepted _ (.url (by rw [dollarSearch]) usableUrls_dollar List.mem_cons_self)
  · have leads : Script.localPath? "/app" "com.$1/a.gradle" = some "/app/com.$1/a.gradle" := by
      with_unfolding_all decide
    exact accepted _ (.path resolve_dollar.1 leads)
  · exact accepted _ (.file appliedPaths_dollar List.mem_cons_self (by decide))
  · exact accepted _ (.coordinate ofProject_dollar evidence_dollar (assigned?_dollar .group))
  · exact accepted _ (.assigned (assigned?_dollar .version))

end GradlePublishing
