import GradlePublishing.Proofs.Coordinates.Gathered
import GradlePublishing.Proofs.Repository.Scanned

/-!
The search for a repository and the gathering of the scripts of a project come to the same scripts, if no
extra property changes where a script leads (`readsSame_iff`). Such a property is seen by the search
alone.
-/

namespace GradlePublishing.Repository.Search

open Coordinates (scriptsOf)
open Script (Applies)

/-- All properties except those of the scripts. -/
def plainTable (search : Search) : Table := Table.merge [search.base, search.overriding]

/-- The search looks into a script at a place. -/
def ScansAt (search : Search) (inherited : Table) (build : Script) (place : AbsolutePath) : Prop :=
  ∃ visit, search.Scans inherited build visit ∧ search.tree.absolute visit.script.path = place

/-- One of the scripts is at a place. -/
def GathersAt (search : Search) (scripts : List Script) (place : AbsolutePath) : Prop :=
  ∃ script ∈ scripts, search.tree.absolute script.path = place

/-- The scripts are those that the search looks into. -/
def ReadsSame (search : Search) (inherited : Table) (build : Script) (scripts : List Script) : Prop :=
  ∀ place, search.ScansAt inherited build place ↔ search.GathersAt scripts place

/-- A script applies another one with all properties that it sees. -/
def LeadsTo (search : Search) (visit : Visit) (next : Script) : Prop :=
  Applies search.settings search.tree (search.tableOf visit.inherited visit.script) visit.script next

/-- A script applies another one without the extra properties of scripts. -/
def LeadsPlainlyTo (search : Search) (script next : Script) : Prop :=
  Applies search.settings search.tree search.plainTable script next

/-- From no script that the search looks into does one of the two go on to a place that the other
misses. -/
def MissesNothing (search : Search) (inherited : Table) (build : Script) (scripts : List Script) :
    Prop :=
  ∀ visit, search.Scans inherited build visit →
    (∀ next, search.LeadsTo visit next →
      search.GathersAt scripts (search.tree.absolute next.path)) ∧
    (∀ next, search.LeadsPlainlyTo visit.script next →
      search.ScansAt inherited build (search.tree.absolute next.path))

/-- The paths that a script applies resolve alike with and without the extra properties of scripts. -/
def ResolvesAlike (search : Search) (visit : Visit) : Prop :=
  ∀ path ∈ Script.writtenPaths visit.script.dialect visit.script.content,
    Property.resolve search.settings (search.tableOf visit.inherited visit.script) path =
      Property.resolve search.settings search.plainTable path

theorem leadsTo_iff_of_resolvesAlike {search : Search} {visit : Visit}
    (alike : search.ResolvesAlike visit) (next : Script) :
    search.LeadsTo visit next ↔ search.LeadsPlainlyTo visit.script next := by
  rw [LeadsTo, LeadsPlainlyTo, Applies, Applies, Script.appliedPaths_congr alike]

def IsFirstOrRead (search : Search) (build script : Script) : Prop :=
  script = build ∨ (script.IsIn search.tree ∧
    search.tree.absolute script.path ≠ search.tree.absolute build.path)

section

variable {search : Search} {inherited : Table} {build : Script} {scripts : List Script}
  (plain : search.tree.HasPlainNames) (settled : search.tree.IsSettled)

include plain settled in
/-- At one place both readings lead on to the same places. -/
theorem exists_leadsPlainlyTo {script twin next : Script} (first : search.IsFirstOrRead build script)
    (second : search.IsFirstOrRead build twin)
    (same : search.tree.absolute script.path = search.tree.absolute twin.path)
    (leads : search.LeadsPlainlyTo script next) :
    ∃ other, search.LeadsPlainlyTo twin other ∧
      search.tree.absolute other.path = search.tree.absolute next.path := by
  rcases first with rfl | ⟨inside, elsewhere⟩
  · rcases second with rfl | ⟨-, elsewhere⟩
    · exact ⟨next, leads, rfl⟩
    · exact absurd same.symm elsewhere
  · rcases second with rfl | ⟨twinInside, -⟩
    · exact absurd same elsewhere
    · exact inside.exists_applies settled plain twinInside same leads

variable (gathered : scriptsOf search.settings search.tree search.plainTable build = .ok scripts)
  (ended : search.keyOfScript inherited build = .error (.noRepository build.path))

include gathered in
theorem isFirstOrRead_of_mem {script : Script} (member : script ∈ scripts) :
    search.IsFirstOrRead build script :=
  Coordinates.of_mem_scriptsOf gathered (.inl rfl)
    (fun _ _ _ applies elsewhere => .inr ⟨applies.isIn, elsewhere⟩) script member

include ended in
theorem isFirstOrRead_of_scans {visit : Visit} (scans : search.Scans inherited build visit) :
    search.IsFirstOrRead build visit.script :=
  scans.induction ended (motive := fun visit => search.IsFirstOrRead build visit.script) (.inl rfl)
    fun _ _ _ _ applies elsewhere => .inr ⟨applies.isIn, elsewhere⟩

include plain settled gathered in
theorem gathersAt_of_leadsPlainlyTo {script next : Script} (member : script ∈ scripts)
    (leads : search.LeadsPlainlyTo script next) :
    search.GathersAt scripts (search.tree.absolute next.path) :=
  (Coordinates.exists_mem_scriptsOf settled plain gathered).2 script member next leads

include plain settled gathered ended

/-- What is applied at a place where a script was gathered is gathered too. -/
theorem gathersAt_next {visit : Visit} (scans : search.Scans inherited build visit)
    (here : search.GathersAt scripts (search.tree.absolute visit.script.path)) {next : Script}
    (leads : search.LeadsPlainlyTo visit.script next) :
    search.GathersAt scripts (search.tree.absolute next.path) := by
  obtain ⟨script, member, same⟩ := here
  obtain ⟨other, applied, place⟩ := exists_leadsPlainlyTo plain settled
    (isFirstOrRead_of_scans ended scans) (isFirstOrRead_of_mem gathered member) same.symm leads
  exact place ▸ gathersAt_of_leadsPlainlyTo plain settled gathered member applied

theorem readsSame_iff_missesNothing
    (silent : ∀ visit, search.Scans inherited build visit →
      declaredUrls search.settings visit.script.dialect visit.script.content = .ok []) :
    search.ReadsSame inherited build scripts ↔ search.MissesNothing inherited build scripts := by
  constructor
  · intro same visit scans
    constructor
    · intro next leads
      exact (same _).mp (exists_scans ended settled plain scans (silent visit scans) leads)
    · intro next leads
      have here := (same _).mp ⟨visit, scans, rfl⟩
      exact (same _).mpr (gathersAt_next plain settled gathered ended scans here leads)
  · intro closed place
    constructor
    · rintro ⟨visit, scans, rfl⟩
      refine scans.induction ended (motive := fun visit =>
        search.GathersAt scripts (search.tree.absolute visit.script.path)) ?_ ?_
      · exact ⟨build, (Coordinates.exists_mem_scriptsOf settled plain gathered).1, rfl⟩
      · exact fun visit applied scans _ leads _ => (closed visit scans).1 applied.script leads
    · rintro ⟨script, member, rfl⟩
      refine (Coordinates.of_mem_scriptsOf gathered (motive := fun script =>
        search.IsFirstOrRead build script ∧
          search.ScansAt inherited build (search.tree.absolute script.path)) ?_ ?_ script member).2
      · exact ⟨.inl rfl, _, scans_start search inherited build, rfl⟩
      · rintro script applied ⟨read, visit, scans, same⟩ leads elsewhere
        obtain ⟨other, next, place⟩ := exists_leadsPlainlyTo plain settled read
          (isFirstOrRead_of_scans ended scans) same.symm leads
        exact ⟨.inr ⟨leads.isIn, elsewhere⟩, place ▸ (closed visit scans).2 other next⟩

/-- The search and the gathering come to the same scripts exactly if neither goes on to a place that the
other misses. This is so where every applied path resolves alike with and without the extra properties of
the scripts. -/
theorem readsSame_iff
    (silent : ∀ visit, search.Scans inherited build visit →
      declaredUrls search.settings visit.script.dialect visit.script.content = .ok []) :
    (search.ReadsSame inherited build scripts ↔ search.MissesNothing inherited build scripts) ∧
    ((∀ visit, search.Scans inherited build visit → search.ResolvesAlike visit) →
      search.ReadsSame inherited build scripts) := by
  have leads := readsSame_iff_missesNothing plain settled gathered ended silent
  refine ⟨leads, fun alike => leads.mpr fun visit scans => ⟨fun next leads => ?_, fun next leads => ?_⟩⟩
  · -- by induction along the search, a script is gathered at the place of every script that it looks into
    have here : search.GathersAt scripts (search.tree.absolute visit.script.path) := by
      refine scans.induction ended (motive := fun visit =>
        search.GathersAt scripts (search.tree.absolute visit.script.path)) ?_ ?_
      · exact ⟨build, (Coordinates.exists_mem_scriptsOf settled plain gathered).1, rfl⟩
      · intro visit applied scans here leads _
        exact gathersAt_next plain settled gathered ended scans here
          ((leadsTo_iff_of_resolvesAlike (alike visit scans) _).mp leads)
    exact gathersAt_next plain settled gathered ended scans here
      ((leadsTo_iff_of_resolvesAlike (alike visit scans) next).mp leads)
  · exact exists_scans ended settled plain scans (silent visit scans)
      ((leadsTo_iff_of_resolvesAlike (alike visit scans) next).mpr leads)

end

/-! A build script that applies one in a directory that an extra property names. -/

def folderBuild : Script :=
  ⟨"/build.gradle", "ext.dir = \"scripts\"\napply from: \"$dir/x.gradle\"\n", .groovy⟩

def folderScript : Script := ⟨"/scripts/x.gradle", "group = \"com.example\"\n", .groovy⟩

def folderTree : FileTree :=
  ⟨⟨false, []⟩, [(["scripts"], .directory),
    (["scripts", "x.gradle"], .file folderScript.content.toBytes)]⟩

def folderSearch (overriding : Table) : Search := ⟨Settings.packaged, folderTree, ∅, overriding, false⟩

def folderTable : Table := ⟨[("dir", "scripts")]⟩

/-- The first script of the search, and the one that it applies. -/
def folderStart : Visit := ⟨[], ∅, folderBuild⟩

def folderVisit : Visit := ⟨[folderBuild], extraOf ∅ folderBuild, folderScript⟩

theorem writtenPaths_folderBuild :
    Script.writtenPaths folderBuild.dialect folderBuild.content = ["$dir/x.gradle".toList] := by
  with_unfolding_all decide

theorem writtenPaths_folderScript :
    Script.writtenPaths folderScript.dialect folderScript.content = [] := by
  decide

theorem settings_folderSearch (overriding : Table) :
    (folderSearch overriding).settings = Settings.packaged := by
  rw [folderSearch]

theorem declaredUrls_folder (overriding : Table) : ∀ script ∈ [folderBuild, folderScript],
    declaredUrls (folderSearch overriding).settings script.dialect script.content = .ok [] := by
  simp only [settings_folderSearch, declaredUrls, families_packaged]
  with_unfolding_all decide

theorem resolve_folder :
    Property.resolve Settings.packaged folderTable "$dir/x.gradle" = .ok "scripts/x.gradle" ∧
      Property.resolve Settings.packaged ∅ "$dir/x.gradle" = .ok "$dir/x.gradle" := by
  have depth := Settings.text_packaged .maxPropertyDepth (by decide)
  simp only [Property.resolve, Settings.maxPropertyDepth, depth]
  with_unfolding_all decide

theorem appliedPaths_folderBuild : Script.appliedPaths Settings.packaged folderBuild.dialect
    folderBuild.content folderTable folderBuild.path = .ok ["/scripts/x.gradle".toList] := by
  refine bind_eq_ok_iff.mpr ⟨["scripts/x.gradle".toList], ?_, by decide⟩
  rw [writtenPaths_folderBuild, List.mapM_cons, resolve_folder.1]
  rfl

/-- Without the property the path is not resolved, and the script is left out. -/
theorem appliedPaths_folderBuild_empty : Script.appliedPaths Settings.packaged folderBuild.dialect
    folderBuild.content ∅ folderBuild.path = .ok [] := by
  refine bind_eq_ok_iff.mpr ⟨["$dir/x.gradle".toList], ?_, by decide⟩
  rw [writtenPaths_folderBuild, List.mapM_cons, resolve_folder.2]
  rfl

theorem appliedPaths_folderScript (table : Table) : Script.appliedPaths Settings.packaged
    folderScript.dialect folderScript.content table folderScript.path = .ok [] :=
  Script.appliedPaths_of_unwritten writtenPaths_folderScript Settings.packaged table folderScript.path

theorem load?_folderScript :
    Script.load? folderTree "/scripts/x.gradle" = .ok (some folderScript) := by
  with_unfolding_all decide

def folderLead : Lead := ⟨[folderBuild], "/scripts/x.gradle", extraOf ∅ folderBuild⟩

theorem inspect_folderScript (overriding : Table) :
    (folderSearch overriding).inspect folderVisit.inherited folderVisit.script =
      .ok (.applied []) := by
  have applied : Script.appliedPaths (folderSearch overriding).settings folderScript.dialect
      folderScript.content ((folderSearch overriding).tableOf folderVisit.inherited folderScript)
      folderScript.path = .ok [] := by
    rw [settings_folderSearch]
    exact appliedPaths_folderScript _
  have declared := declaredUrls_folder overriding folderScript (by simp)
  exact inspect_of_appliedBy declared (appliedBy_of_appliedPaths applied)

section

variable {overriding : Table}
  (own : (folderSearch overriding).tableOf ∅ folderBuild = folderTable)

include own

theorem inspect_folderBuild :
    (folderSearch overriding).inspect folderStart.inherited folderStart.script =
      .ok (.applied [folderLead.pending]) := by
  have applied : Script.appliedPaths (folderSearch overriding).settings folderBuild.dialect
      folderBuild.content ((folderSearch overriding).tableOf ∅ folderBuild) folderBuild.path =
        .ok ["/scripts/x.gradle".toList] := by
    rw [settings_folderSearch, own]
    exact appliedPaths_folderBuild
  have pending : (folderSearch overriding).appliedBy ∅ folderBuild = .ok [folderLead.pending] :=
    appliedBy_of_appliedPaths applied
  exact inspect_of_appliedBy (declaredUrls_folder overriding folderBuild (by simp)) pending

theorem walk_folder : (folderSearch overriding).walk (folderSearch overriding).followedBelow ∅
    folderBuild = [.script folderStart, .script folderVisit] := by
  have first := followedBelow_of_applied (inspect_folderBuild own)
  have last := followedBelow_of_applied (inspect_folderScript overriding)
  have elsewhere : folderTree.absolute folderLead.pending.path ∉
      [folderTree.absolute folderBuild.path] := by
    decide
  have fresh : (folderSearch overriding).tree.absolute folderLead.pending.path ∉
      [(folderSearch overriding).tree.absolute folderBuild.path] := elsewhere
  have loaded : Script.load? (folderSearch overriding).tree folderLead.pending.path =
      .ok (some folderScript) := load?_folderScript
  have start : (folderSearch overriding).followedBelow ⟨[], ∅, folderBuild⟩ = [folderLead] := first
  have further : (folderSearch overriding).followedBelow
      ⟨folderLead.appliers, folderLead.pending.inherited, folderScript⟩ = [] := last
  rw [walk, start, preorder_script _ _ fresh loaded, further, List.append_nil, preorder_nil]
  rfl

theorem keyOfScript_folder : (folderSearch overriding).keyOfScript ∅ folderBuild =
    .error (.noRepository folderBuild.path) := by
  have first := verdict_of_applied (inspect_folderBuild own)
  have second := verdict_of_applied (inspect_folderScript overriding)
  have undecided : (folderSearch overriding).decision [.script folderStart, .script folderVisit] =
      .ok none := by
    rw [decision, first]
    dsimp only
    rw [decision, second]
    rfl
  have absent : (folderSearch overriding).absence ∅ folderBuild =
      .noRepository folderBuild.path := by
    have inspected : (folderSearch overriding).inspect ∅ folderBuild = _ := inspect_folderBuild own
    rw [absence, inspected]
  rw [keyOfScript_eq, walk_folder own, undecided, absent]

theorem scans_folder_iff {visit : Visit} : (folderSearch overriding).Scans ∅ folderBuild visit ↔
    visit = folderStart ∨ visit = folderVisit := by
  rw [scans_iff (keyOfScript_folder own), walk_folder own]
  simp

theorem silent_folder {visit : Visit} (scans : (folderSearch overriding).Scans ∅ folderBuild visit) :
    declaredUrls (folderSearch overriding).settings visit.script.dialect visit.script.content =
      .ok [] := by
  rcases (scans_folder_iff own).mp scans with rfl | rfl
  · exact declaredUrls_folder overriding folderBuild (by simp)
  · exact declaredUrls_folder overriding folderScript (by simp)

end

/-- The build script sees the property, also where it is not given from outside. -/
theorem tableOf_folder : (folderSearch ∅).tableOf ∅ folderBuild = folderTable ∧
    (folderSearch folderTable).tableOf ∅ folderBuild = folderTable := by
  with_unfolding_all decide

theorem hasPlainNames_folderTree : folderTree.HasPlainNames := by
  decide

theorem isSettled_folderTree : folderTree.IsSettled := by
  decide

theorem plainTable_folder : (folderSearch folderTable).plainTable = folderTable := by
  decide

theorem plainTable_folder_empty : (folderSearch ∅).plainTable = ∅ := by
  decide

theorem scriptsOf_folder : scriptsOf Settings.packaged folderTree folderTable folderBuild =
    .ok [folderBuild, folderScript] := by
  have elsewhere : folderTree.absolute "/scripts/x.gradle" ≠ folderTree.absolute folderBuild.path := by
    decide
  exact Coordinates.scriptsOf_of_leaf appliedPaths_folderBuild elsewhere load?_folderScript
    (appliedPaths_folderScript folderTable)

theorem readsSame_folder : scriptsOf Settings.packaged folderTree folderTable folderBuild =
      .ok [folderBuild, folderScript] ∧
    (folderSearch folderTable).ReadsSame ∅ folderBuild [folderBuild, folderScript] := by
  refine ⟨scriptsOf_folder, ?_⟩
  have gathered : scriptsOf (folderSearch folderTable).settings (folderSearch folderTable).tree
      (folderSearch folderTable).plainTable folderBuild = .ok [folderBuild, folderScript] := by
    rw [settings_folderSearch, plainTable_folder]
    exact scriptsOf_folder
  refine (readsSame_iff hasPlainNames_folderTree isSettled_folderTree gathered
    (keyOfScript_folder tableOf_folder.2) fun visit => silent_folder tableOf_folder.2).2 ?_
  intro visit scans
  rcases (scans_folder_iff tableOf_folder.2).mp scans with rfl | rfl
  · intro path _
    have same : (folderSearch folderTable).tableOf folderStart.inherited folderStart.script =
        folderTable := tableOf_folder.2
    rw [plainTable_folder, same]
  · intro path member
    have written : Script.writtenPaths folderVisit.script.dialect folderVisit.script.content = [] :=
      writtenPaths_folderScript
    rw [written] at member
    cases member

theorem scriptsOf_folder_empty :
    scriptsOf Settings.packaged folderTree ∅ folderBuild = .ok [folderBuild] := by
  exact Coordinates.scriptsOf_of_isolated appliedPaths_folderBuild_empty

/-- Without it the search finds the script by the extra property, and the gathering misses it. -/
theorem not_forall_readsSame : ¬ ∀ (search : Search) (build : Script) (scripts : List Script),
    search.tree.HasPlainNames → search.tree.IsSettled →
    (∀ visit, search.Scans ∅ build visit →
      declaredUrls search.settings visit.script.dialect visit.script.content = .ok []) →
    (∀ script ∈ scripts, declaredUrls search.settings script.dialect script.content = .ok []) →
    scriptsOf search.settings search.tree search.plainTable build = .ok scripts →
    search.keyOfScript ∅ build = .error (.noRepository build.path) →
    search.ReadsSame ∅ build scripts := by
  intro always
  have gathered : scriptsOf (folderSearch ∅).settings (folderSearch ∅).tree
      (folderSearch ∅).plainTable folderBuild = .ok [folderBuild] := by
    rw [settings_folderSearch, plainTable_folder_empty]
    exact scriptsOf_folder_empty
  have same := always (folderSearch ∅) folderBuild [folderBuild] hasPlainNames_folderTree
    isSettled_folderTree (fun visit => silent_folder tableOf_folder.1)
    (List.forall_mem_singleton.mpr (declaredUrls_folder ∅ folderBuild (by simp))) gathered
    (keyOfScript_folder tableOf_folder.1)
  have scans : (folderSearch ∅).Scans ∅ folderBuild folderVisit :=
    (scans_folder_iff tableOf_folder.1).mpr (.inr rfl)
  obtain ⟨script, member, place⟩ := (same _).mp ⟨folderVisit, scans, rfl⟩
  rw [List.mem_singleton.mp member] at place
  revert place
  decide

end GradlePublishing.Repository.Search
