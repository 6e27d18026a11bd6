import GradlePublishing.Proofs.Repository.Faults
import GradlePublishing.Proofs.Repository.Precedence

/-!
The ways in which a deployment can fail. Besides the faults of the settings there are few of them.
Under the usual settings only those are left that a deployment announces, and paths that cannot be
asked for (`deployment_failures`).
-/

namespace GradlePublishing

namespace Settings

theorem not_fault_packaged (failure : Failure) : ¬ packaged.Fault failure := by
  intro fault
  cases fault with
  | uncomposed uncomposed => exact not_uncomposed_packaged failure uncomposed
  | depth failed =>
    rw [maxPropertyDepth_packaged] at failed
    cases failed
  | family entry failed =>
    rw [Repository.families_packaged] at failed
    cases failed

theorem not_holdsNull_packaged : ¬ packaged.HoldsNull := by
  rintro ⟨setting, known, value, given, null⟩
  rw [text_packaged setting known] at given
  cases given
  revert null
  revert setting
  decide

end Settings

namespace Repository

/-- Under the usual settings nothing else is wrong with a URL than that it holds no key. -/
theorem isKeyless_of_keyOfUrl {url : Text} {failure : Failure}
    (failed : keyOfUrl Settings.packaged url = .error failure) : isKeyless failure = true :=
  (failsOnly_keyOfUrl (fun other fault => (Settings.not_fault_packaged other fault).elim)
    (fun _ => id) url).allows failure failed

namespace Search

variable {search : Search}

/-- A search ends in a failure at a URL that cannot be resolved, or at a path that cannot be asked
for. -/
theorem failure_of_verdict (usual : search.settings = Settings.packaged) {stop : Stop}
    {failure : Failure} (ends : search.verdict stop = .error failure) :
    IsUnresolvedUrl failure ∨ stop = .fault failure := by
  cases stop with
  | fault other =>
    cases ends
    exact .inr rfl
  | script visit =>
    left
    obtain ⟨inspected, present⟩ := verdict_eq_error_iff.mp ends
    have ways : FailsOnly (fun failure => failure.isAbsence = true ∨ IsUnresolvedUrl failure)
        (search.inspect visit.inherited visit.script) := by
      refine failsOnly_inspect (fun other fault => ?_) (fun _ => .inl) (fun _ => .inr) _ _
      rw [usual] at fault
      exact (Settings.not_fault_packaged other fault).elim
    exact (ways.allows failure inspected).resolve_left fun absent => by simp [present] at absent

end Search

theorem fault_of_mem_preorder {tree : FileTree} {below : Visit → List Lead}
    {visited : List AbsolutePath} {leads : List Lead} {failure : Failure}
    (member : .fault failure ∈ (preorder tree below visited leads).stops) : failure = .nullInPath := by
  fun_induction preorder tree below visited leads with
  | case1 visited => cases member
  | case2 visited next more path known ih => exact ih member
  | case3 visited next more path fresh other loaded ih =>
    rcases List.mem_cons.mp member with same | member
    · cases same
      exact ((failsOnly_load? tree next.pending.path).allows failure loaded).1
    · exact ih member
  | case4 visited next more path fresh loaded ih => exact ih member
  | case5 visited next more path fresh script loaded visit ih =>
    rcases List.mem_cons.mp member with same | member
    · cases same
    · exact ih member

theorem Search.fault_of_mem_stopsFrom {search : Search} {path : Text} {failure : Failure}
    (member : .fault failure ∈ search.stopsFrom path) : failure = .nullInPath := by
  unfold stopsFrom at member
  split at member
  · rcases List.mem_cons.mp member with same | member
    · cases same
    · exact fault_of_mem_preorder member
  · cases member
  · rename_i other loaded
    cases List.mem_singleton.mp member
    exact ((failsOnly_load? search.tree path).allows failure loaded).1

/-! Inside a source every failure is one to which its search comes. -/

theorem Search.isAbsence_absence {search : Search} {inherited : Table} {script : Script}
    {below : Visit → List Lead}
    (undecided : search.decision (search.walk below inherited script) = .ok none) :
    (search.absence inherited script).isAbsence = true := by
  rw [walk, decision_script] at undecided
  unfold absence
  cases inspected : search.inspect inherited script with
  | ok finding => rfl
  | error failure =>
    simp only [inspected] at undecided
    by_cases absent : failure.isAbsence = true
    · exact absent
    · rw [if_neg absent] at undecided
      cases undecided

theorem Search.decision_of_keyOfFile {search : Search} {path : Text} {failure : Failure}
    (failed : search.keyOfFile path = .error failure) (present : failure.isAbsence = false) :
    search.decision (search.stopsFrom path) = .error failure := by
  unfold keyOfFile at failed
  unfold stopsFrom
  cases loaded : Script.load? search.tree path with
  | error other =>
    rw [loaded] at failed
    cases failed
    exact decision_fault search failure []
  | ok script? =>
    rw [loaded] at failed
    cases script? with
    | none =>
      cases failed
      cases present
    | some script =>
      change search.keyOfScript ∅ script = _ at failed
      rw [keyOfScript_eq] at failed
      dsimp only
      cases decided : search.decision (search.walk search.followedBelow ∅ script) with
      | error other =>
        simp only [decided] at failed
        cases failed
        rfl
      | ok found =>
        cases found with
        | some key =>
          simp only [decided] at failed
          cases failed
        | none =>
          simp only [decided] at failed
          cases failed
          have absent := isAbsence_absence decided
          rw [present] at absent
          cases absent

theorem Source.comesTo_of_outcome {search : Search} (usual : search.settings = Settings.packaged)
    {source : Source} {failure : Failure} (listed : ∀ other, source ≠ .unlisted other)
    (failed : source.outcome search = .error failure) (present : failure.isAbsence = false) :
    ∃ stop, search.ComesTo (source.stops search) stop ∧ search.verdict stop = .error failure := by
  apply Search.decision_eq_error_iff.mp
  cases source with
  | unlisted other => exact absurd rfl (listed other)
  | properties =>
    have allowed : FailsOnly (·.isAbsence = true) (outcome search .properties) := by
      rw [outcome, usual]
      refine failsOnly_map _ (failsOnly_selectProperty (fun other fault => ?_) (fun _ => id) _ _)
      exact (Settings.not_fault_packaged other fault).elim
    rw [allowed.allows failure failed] at present
    cases present
  | script path | initScript path =>
    apply Search.decision_of_keyOfFile _ present
    rw [outcome] at failed
    cases found : search.keyOfFile path with
    | ok key =>
      rw [found] at failed
      cases failed
    | error other =>
      rw [found] at failed
      cases failed
      rfl

/-! Nothing fails before the sources unless a path holds a null character. -/

/-- The paths that a request gives can be asked for. -/
structure Request.HasPlainPaths (request : Request) : Prop where
  directory : FileTree.nullChar ∉ request.directory
  userHome : ∀ home, request.userHome = some home → FileTree.nullChar ∉ home

section

variable {allowed : Failure → Prop} (tree : FileTree)

theorem failsOnly_plan_packaged {request : Request} (plain : request.HasPlainPaths) :
    FailsOnly allowed (request.plan Settings.packaged tree) :=
  failsOnly_plan tree (fun failure fault => absurd fault (Settings.not_fault_packaged failure))
    Settings.not_holdsNull_packaged.elim (fun null => absurd null plain.directory)
    fun home given null => absurd null (plain.userHome home given)

theorem ne_unlisted_of_mem_initSources {settings : Settings} {request : Request} {tree : FileTree}
    (listable : ∀ home, request.userHome = some home →
      ∃ paths, initScripts settings tree home = .ok paths)
    {source : Source} (member : source ∈ request.initSources settings tree) :
    ∀ failure, source ≠ .unlisted failure := by
  rintro failure rfl
  unfold Request.initSources at member
  split at member
  · cases member
  · rename_i home given
    obtain ⟨whole, -⟩ := Option.filter_eq_some_iff.mp given
    obtain ⟨paths, listed⟩ := listable home whole
    rw [listed] at member
    obtain ⟨path, -, same⟩ := List.mem_map.mp member
    cases same

theorem fields_of_plan {settings : Settings} {request : Request} {plan : Plan}
    (planned : request.plan settings tree = .ok plan) :
    request.search settings tree = .ok plan.search ∧
      ∃ scripts : List Text, plan.sources =
        scripts.map .script ++ .properties :: request.initSources settings tree := by
  obtain ⟨search, searched, planned⟩ := bind_eq_ok_iff.mp planned
  obtain ⟨build, -, planned⟩ := bind_eq_ok_iff.mp planned
  obtain ⟨baseName, -, planned⟩ := bind_eq_ok_iff.mp planned
  obtain ⟨settingsScript, -, planned⟩ := bind_eq_ok_iff.mp planned
  cases planned
  exact ⟨searched, _, rfl⟩

theorem ne_unlisted_of_mem_sources {request : Request} (plain : request.HasPlainPaths) {plan : Plan}
    (planned : request.plan Settings.packaged tree = .ok plan) {source : Source}
    (member : source ∈ plan.sources) : ∀ failure, source ≠ .unlisted failure := by
  obtain ⟨-, scripts, same⟩ := fields_of_plan tree planned
  rw [same] at member
  rcases List.mem_append.mp member with ofScripts | member
  · obtain ⟨path, -, rfl⟩ := List.mem_map.mp ofScripts
    exact nofun
  rcases List.mem_cons.mp member with rfl | ofHome
  · exact nofun
  · apply ne_unlisted_of_mem_initSources _ ofHome
    intro home given
    exact exists_ok_of_failsOnly (failsOnly_initScripts tree
      (fun failure fault => (Settings.not_fault_packaged failure fault).elim)
      Settings.not_holdsNull_packaged.elim (plain.userHome home given))

/-- A deployment fails for want of a repository, or at a stop to which it comes. -/
theorem comesTo_of_deployment {request : Request} (plain : request.HasPlainPaths) {plan : Plan}
    (valid : checkDirectory tree request.directory = .ok ())
    (planned : request.plan Settings.packaged tree = .ok plan) {failure : Failure}
    (failed : deployment Settings.packaged tree request = .error failure) :
    failure = .noDeployRepository request.directory ∨
      ∃ stop, plan.ComesTo stop ∧ plan.search.verdict stop = .error failure := by
  rw [deployment_eq, valid, planned] at failed
  simp only [bind, Except.bind] at failed
  cases decided : plan.decisive? with
  | none =>
    simp only [decided] at failed
    cases failed
    exact .inl rfl
  | some source =>
    simp only [decided] at failed
    obtain ⟨present, earlier, later, same, absent⟩ := Plan.decisive?_eq_some_iff.mp decided
    obtain ⟨usual, -, -, -⟩ := fields_of_search (fields_of_plan tree planned).1
    have listed : source ∈ plan.sources := by
      rw [same]
      exact List.mem_append_right _ List.mem_cons_self
    rw [failed] at present
    obtain ⟨stop, comes, ends⟩ := Source.comesTo_of_outcome usual
      (ne_unlisted_of_mem_sources tree plain planned listed) failed present
    exact .inr ⟨stop, ⟨earlier, source, later, same, absent, comes⟩, ends⟩

end

theorem Plan.fault_of_comesTo {plan : Plan} {failure : Failure} (comes : plan.ComesTo (.fault failure)) :
    failure = .nullInPath := by
  obtain ⟨_, source, _, -, -, passed, rest, same, -⟩ := comes
  have member : .fault failure ∈ source.stops plan.search := by
    rw [same]
    exact List.mem_append_right _ List.mem_cons_self
  cases source with
  | properties => cases member
  | unlisted other => cases member
  | script path | initScript path => exact Search.fault_of_mem_stopsFrom member

/-- A failure is one of the directory, or the sources come to it. -/
theorem deployment_failure_cases {tree : FileTree} {request : Request} (plain : request.HasPlainPaths)
    {failure : Failure} (failed : deployment Settings.packaged tree request = .error failure) :
    checkDirectory tree request.directory = .error failure ∨
      failure = .noDeployRepository request.directory ∨ IsUnresolvedUrl failure ∨
      (failure = .nullInPath ∧ checkDirectory tree request.directory = .ok () ∧
        ∃ plan, request.plan Settings.packaged tree = .ok plan ∧
          plan.ComesTo (.fault .nullInPath)) := by
  cases valid : checkDirectory tree request.directory with
  | error other =>
    rw [deployment_eq, valid] at failed
    cases failed
    exact .inl rfl
  | ok _ =>
    right
    obtain ⟨plan, planned⟩ := exists_ok_of_failsOnly (failsOnly_plan_packaged tree plain)
    rcases comesTo_of_deployment tree plain valid planned failed with rfl | ⟨stop, comes, ends⟩
    · exact .inl rfl
    right
    obtain ⟨usual, -, -, -⟩ := fields_of_search (fields_of_plan tree planned).1
    rcases Search.failure_of_verdict usual ends with unresolved | rfl
    · exact .inl unresolved
    · obtain rfl := Plan.fault_of_comesTo comes
      exact .inr ⟨rfl, rfl, plan, planned, comes⟩

/-- Under the usual settings a deployment fails only in the ways that it announces, except that it stops
at a script to be applied whose path holds a null character. -/
theorem deployment_failures (tree : FileTree) (request : Request) (plain : request.HasPlainPaths) :
    (∀ failure, deployment Settings.packaged tree request = .error failure →
      request.Announces tree failure ∨ failure = .nullInPath) ∧
    (deployment Settings.packaged tree request = .error .nullInPath ↔
      checkDirectory tree request.directory = .ok () ∧
        ∃ plan, request.plan Settings.packaged tree = .ok plan ∧ plan.ComesTo (.fault .nullInPath)) ∧
    (deployment Settings.packaged tree request = .error .emptyWorkingDirectory ↔
      request.directory = []) ∧
    (∀ path, deployment Settings.packaged tree request = .error (.notADirectory path) ↔
      path = request.directory ∧ request.directory ≠ [] ∧
        tree.isDirectory request.directory = false) := by
  have announced : ∀ failure, deployment Settings.packaged tree request = .error failure →
      request.Announces tree failure ∨ failure = .nullInPath := by
    intro failure failed
    rcases deployment_failure_cases plain failed with bad | rfl | ⟨url, script, rfl⟩ | ⟨rfl, -⟩
    · exact .inl (announces_of_checkDirectory bad)
    · exact .inl .noRepository
    · exact .inl (.unresolvedUrl url script)
    · exact .inr rfl
  have ofDirectory : ∀ failure, checkDirectory tree request.directory = .error failure →
      deployment Settings.packaged tree request = .error failure := by
    intro failure bad
    rw [deployment_eq, bad]
    rfl
  refine ⟨announced, ⟨?_, ?_⟩, ⟨?_, ?_⟩, fun path => ⟨?_, ?_⟩⟩
  · intro failed
    rcases deployment_failure_cases plain failed with bad | same | ⟨url, script, same⟩ | ⟨-, comes⟩
    · rcases announces_of_checkDirectory bad
    · cases same
    · cases same
    · exact comes
  · rintro ⟨valid, plan, planned, comes⟩
    exact deployment_of_comesTo valid planned comes rfl rfl
  · intro failed
    rcases announced _ failed with may | same
    · cases may with
      | emptyDirectory empty => exact empty
    · cases same
  · intro empty
    apply ofDirectory
    rw [checkDirectory, empty]
    rfl
  · intro failed
    rcases announced _ failed with may | same
    · cases may with
      | noDirectory given absent => exact ⟨rfl, given, absent⟩
    · cases same
  · rintro ⟨rfl, given, absent⟩
    apply ofDirectory
    rw [checkDirectory, if_neg (by simpa using given), absent]
    rfl

/-! A build script that applies one whose path holds a null character. -/

def nullBuild : Script := ⟨"/build.gradle", "apply from: \"a\x00.gradle\"\n", .groovy⟩

def nullTree : FileTree :=
  ⟨⟨false, []⟩, [(["build.gradle"], .file nullBuild.content.toBytes)]⟩

def nullRequest : Request := { directory := "/", version := "1" }

def nullSearch : Search := ⟨Settings.packaged, nullTree, directoryNames "/", ∅, false⟩

def nullPlan : Plan := ⟨nullSearch, [.script "/build.gradle", .properties]⟩

theorem hasPlainPaths_nullRequest : nullRequest.HasPlainPaths where
  directory := by decide
  userHome := nofun

theorem search_nullRequest :
    nullRequest.search Settings.packaged nullTree = .ok nullSearch := by
  have suffix := Settings.text_packaged .snapshotSuffix (by decide)
  have file : Property.load nullTree (Path.join "/" "gradle.properties") = .ok ∅ := by
    decide
  have base : Property.base Settings.packaged nullTree "/" none = .ok (directoryNames "/") :=
    base_of_load file
  have overriding : Property.overriding Settings.packaged [] ∅ = .ok ∅ := by
    rw [overriding_packaged]
    rfl
  refine bind_eq_ok_iff.mpr ⟨false, ?_, bind_eq_ok_iff.mpr ⟨_, base, ?_⟩⟩
  · rw [isSnapshotVersion, suffix]
    rfl
  · exact bind_eq_ok_iff.mpr ⟨_, overriding, rfl⟩

theorem plan_nullRequest : nullRequest.plan Settings.packaged nullTree = .ok nullPlan := by
  have baseName := Settings.text_packaged .buildScript (by decide)
  have settingsName := Settings.text_packaged .settingsScript (by decide)
  have build : buildScript? Settings.packaged nullTree nullRequest =
      .ok (some "/build.gradle".toList) := by
    refine bind_eq_ok_iff.mpr ⟨_, baseName, bind_eq_ok_iff.mpr ⟨none, rfl, ?_⟩⟩
    rw [Script.find?_packaged]
    rfl
  have beside : Script.find? Settings.packaged nullTree "/"
      Settings.Setting.settingsScript.fallback = .ok none := by
    rw [Script.find?_packaged]
    rfl
  refine bind_eq_ok_iff.mpr ⟨_, search_nullRequest, ?_⟩
  refine bind_eq_ok_iff.mpr ⟨_, build, ?_⟩
  refine bind_eq_ok_iff.mpr ⟨_, settingsName, ?_⟩
  exact bind_eq_ok_iff.mpr ⟨_, beside, rfl⟩

theorem inspect_nullBuild : nullSearch.inspect ∅ nullBuild =
    .ok (.applied [⟨"/a\x00.gradle", Search.extraOf ∅ nullBuild⟩]) := by
  have usual : nullSearch.settings = Settings.packaged := by rw [nullSearch]
  have declared : declaredUrls nullSearch.settings nullBuild.dialect nullBuild.content = .ok [] := by
    rw [usual, declaredUrls, families_packaged]
    with_unfolding_all decide
  have paths : Script.appliedPaths nullSearch.settings nullBuild.dialect nullBuild.content
      (nullSearch.tableOf ∅ nullBuild) nullBuild.path = .ok ["/a\x00.gradle".toList] := by
    with_unfolding_all decide
  exact Search.inspect_of_appliedBy declared (Search.appliedBy_of_appliedPaths paths)

theorem stopsFrom_nullBuild : nullSearch.stopsFrom "/build.gradle" =
    [.script ⟨[], ∅, nullBuild⟩, .fault .nullInPath] := by
  let start : Visit := ⟨[], ∅, nullBuild⟩
  let next : Lead := ⟨[nullBuild], "/a\x00.gradle", Search.extraOf ∅ nullBuild⟩
  have below : nullSearch.followedBelow start = Search.leads start [next.pending] :=
    Search.followedBelow_of_applied inspect_nullBuild
  have single : Search.leads start [next.pending] = [next] := by rfl
  have built : Script.load? nullSearch.tree "/build.gradle" = .ok (some nullBuild) := by
    with_unfolding_all decide
  have fresh : nullSearch.tree.absolute next.pending.path ∉
      [nullSearch.tree.absolute nullBuild.path] := by
    decide
  have asked : Script.load? nullSearch.tree next.pending.path = .error .nullInPath := by
    decide
  rw [Search.stopsFrom, built]
  dsimp only
  rw [Search.walk, below, single, preorder_fault _ _ fresh asked, preorder_nil]
  rfl

theorem comesTo_nullPlan : nullPlan.ComesTo (.fault .nullInPath) := by
  refine ⟨[], .script "/build.gradle", [.properties], rfl, nofun, ?_⟩
  refine ⟨[.script ⟨[], ∅, nullBuild⟩], [], stopsFrom_nullBuild, ?_⟩
  intro other member
  obtain rfl := List.mem_singleton.mp member
  exact Search.verdict_of_applied inspect_nullBuild

theorem deployment_failures_nullRequest :
    nullRequest.HasPlainPaths ∧
      deployment Settings.packaged nullTree nullRequest = .error .nullInPath := by
  have valid : checkDirectory nullTree nullRequest.directory = .ok () := rfl
  have failures := deployment_failures nullTree nullRequest hasPlainPaths_nullRequest
  exact ⟨hasPlainPaths_nullRequest, failures.2.1.mpr ⟨valid, nullPlan, plan_nullRequest,
    comesTo_nullPlan⟩⟩

/-- That failure is none that is announced. -/
theorem not_forall_failure_announced : ¬ ∀ (tree : FileTree) (request : Request) (failure : Failure),
    request.HasPlainPaths → deployment Settings.packaged tree request = .error failure →
      request.Announces tree failure := by
  intro announced
  have failed : deployment Settings.packaged nullTree nullRequest = .error .nullInPath :=
    deployment_of_comesTo rfl plan_nullRequest comesTo_nullPlan rfl rfl
  cases announced nullTree nullRequest .nullInPath hasPlainPaths_nullRequest failed

end Repository

end GradlePublishing
