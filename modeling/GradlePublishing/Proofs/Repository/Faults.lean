import GradlePublishing.Proofs.FileTree
import GradlePublishing.Proofs.Repository.Source
import GradlePublishing.Proofs.Settings.Fault

/-!
What each step of a deployment can fail by, under any settings: a fault of the settings, a path that
holds a null character, and what the step itself announces.
-/

namespace GradlePublishing

theorem Path.mem_join {base path : Text} {c : Char} (member : c ∈ join base path) (other : c ≠ '/') :
    c ∈ base ∨ c ∈ path := by
  unfold join at member
  split at member
  · exact .inr member
  · split at member
    · exact List.mem_append.mp member
    · rcases List.mem_append.mp member with inside | behind
      · exact .inl inside
      · exact .inr ((List.mem_cons.mp behind).resolve_left other)

/-- A known option has a text with a null character. -/
def Settings.HoldsNull (settings : Settings) : Prop :=
  ∃ setting ∈ knownTexts, ∃ value, settings.text setting = .ok value ∧ FileTree.nullChar ∈ value

namespace Repository

section

variable {settings : Settings} {allowed : Failure → Prop}
  (faulty : ∀ failure, settings.Fault failure → allowed failure)

include faulty

/-! Settings, properties and URLs fail by the faults of the settings alone. -/

theorem failsOnly_known (setting : Settings.Setting) (known : setting ∈ Settings.knownTexts) :
    FailsOnly allowed (settings.text setting) :=
  Settings.failsOnly_text (fun failure uncomposed => faulty failure (.uncomposed uncomposed)) setting
    known

theorem failsOnly_knownList (setting : Settings.ListSetting)
    (known : setting ∈ Settings.knownLists) : FailsOnly allowed (settings.list setting) :=
  Settings.failsOnly_list (fun failure uncomposed => faulty failure (.uncomposed uncomposed)) setting
    known

theorem failsOnly_resolve (table : Table) (value : Text) :
    FailsOnly allowed (Property.resolve settings table value) := by
  unfold Property.resolve
  split
  · exact failsOnly_map _ (Settings.failsOnly_maxPropertyDepth faulty)
  · exact failsOnly_ok _

theorem failsOnly_declaredUrls (dialect : Dialect) (content : Text) :
    FailsOnly allowed (declaredUrls settings dialect content) := by
  unfold declaredUrls
  split
  · exact failsOnly_ok _
  · apply failsOnly_bind (Settings.failsOnly_families faulty)
    intro families _
    exact failsOnly_ok _

theorem failsOnly_keyOfUrl (keyless : ∀ failure, isKeyless failure = true → allowed failure)
    (url : Text) : FailsOnly allowed (keyOfUrl settings url) := by
  apply failsOnly_bind
  · unfold pathOfUrl
    split
    · exact failsOnly_error (keyless _ rfl)
    · split
      · exact failsOnly_ok _
      · exact failsOnly_error (keyless _ rfl)
  · intro path _
    apply failsOnly_bind (failsOnly_known faulty .urlMarker (by decide))
    intro marker _
    unfold keyInPath
    split
    · exact failsOnly_error (keyless _ rfl)
    · split
      · exact failsOnly_error (keyless _ rfl)
      · exact failsOnly_ok _

theorem failsOnly_keyOfUrl? (url : Text) : FailsOnly allowed (keyOfUrl? settings url) := by
  unfold keyOfUrl?
  cases found : keyOfUrl settings url with
  | ok key => exact failsOnly_ok _
  | error failure =>
    have ways : FailsOnly (fun failure => settings.Fault failure ∨ isKeyless failure = true)
        (keyOfUrl settings url) := failsOnly_keyOfUrl (fun _ => .inl) (fun _ => .inr) url
    dsimp only
    split
    · exact failsOnly_ok _
    · rename_i held
      exact failsOnly_error (faulty failure ((ways.allows failure found).resolve_right held))

/-! Choosing fails besides only if there is nothing to choose from. -/

theorem failsOnly_classify (isSnapshot : Bool) (candidate : Candidate) :
    FailsOnly allowed (classify settings isSnapshot candidate) := by
  unfold classify kindKeyword
  apply failsOnly_bind
  · cases isSnapshot with
    | true => exact failsOnly_known faulty .snapshotKeyword (by decide)
    | false => exact failsOnly_known faulty .releaseKeyword (by decide)
  · intro kind _
    apply failsOnly_bind (failsOnly_known faulty .deployKeyword (by decide))
    intro deploy _
    exact failsOnly_ok _

section

variable (absent : ∀ failure, failure.isAbsence = true → allowed failure)

include absent

theorem failsOnly_select (isSnapshot : Bool) (source : Text) (candidates : List Candidate) :
    FailsOnly allowed (select settings isSnapshot source candidates) := by
  apply failsOnly_bind
  · apply failsOnly_mapM
    intro candidate _
    apply failsOnly_bind (failsOnly_classify faulty isSnapshot candidate)
    intro selection _
    exact failsOnly_ok _
  · intro ranked _
    split
    · exact failsOnly_ok _
    · exact failsOnly_error (absent _ rfl)

theorem failsOnly_selectUrl (isSnapshot : Bool) (source : Text) (urls : List Text) :
    FailsOnly allowed (selectUrl settings isSnapshot source urls) := by
  unfold selectUrl
  dsimp only
  split
  · exact failsOnly_error (absent _ rfl)
  · apply failsOnly_bind (failsOnly_mapM fun url _ => failsOnly_keyOfUrl? faulty url)
    intro keys _
    split
    · exact failsOnly_error (absent _ rfl)
    · exact failsOnly_select faulty absent isSnapshot source _

theorem failsOnly_selectProperty (isSnapshot : Bool) (table : Table) :
    FailsOnly allowed (selectProperty settings isSnapshot table) := by
  apply failsOnly_bind
  · apply failsOnly_bind (failsOnly_knownList faulty .propertyNameKeywords (by decide))
    intro keywords _
    apply failsOnly_bind (failsOnly_known faulty .snapshotKeyword (by decide))
    intro snapshot _
    apply failsOnly_bind (failsOnly_known faulty .releaseKeyword (by decide))
    intro release _
    exact failsOnly_ok _
  · intro rules _
    refine failsOnly_bind (failsOnly_mapM fun entry _ => ?_) fun found _ =>
      failsOnly_select faulty absent isSnapshot _ _
    unfold candidate?
    dsimp only
    split
    · apply failsOnly_bind
      · unfold keyOfValue?
        split
        · exact failsOnly_keyOfUrl? faulty _
        · exact failsOnly_ok _
      · intro key _
        exact failsOnly_ok _
    · exact failsOnly_ok _

end

theorem failsOnly_appliedPaths (dialect : Dialect) (content : Text) (table : Table) (path : Text) :
    FailsOnly allowed (Script.appliedPaths settings dialect content table path) := by
  apply failsOnly_bind (failsOnly_mapM fun written _ => failsOnly_resolve faulty table written)
  intro resolved _
  exact failsOnly_ok _

end

/-- A URL of a script cannot be resolved. -/
def IsUnresolvedUrl (failure : Failure) : Prop := ∃ url script, failure = .unresolvedUrl url script

namespace Search

variable {search : Search}

theorem failsOnly_inspect {allowed : Failure → Prop}
    (faulty : ∀ failure, search.settings.Fault failure → allowed failure)
    (absent : ∀ failure, failure.isAbsence = true → allowed failure)
    (unresolved : ∀ failure, IsUnresolvedUrl failure → allowed failure) (inherited : Table)
    (script : Script) : FailsOnly allowed (search.inspect inherited script) := by
  unfold inspect
  apply failsOnly_bind (failsOnly_declaredUrls faulty _ _)
  intro written _
  apply failsOnly_bind (failsOnly_mapM fun url _ => failsOnly_resolve faulty _ url)
  intro urls _
  dsimp only
  split
  · apply failsOnly_bind (failsOnly_selectUrl faulty absent _ _ _)
    intro key _
    exact failsOnly_ok _
  · split
    · exact failsOnly_error (unresolved _ ⟨_, _, rfl⟩)
    · refine failsOnly_bind ?_ fun pending _ => failsOnly_ok _
      apply failsOnly_bind (failsOnly_appliedPaths faulty _ _ _ _)
      intro paths _
      exact failsOnly_ok _

end Search

theorem failsOnly_load? (tree : FileTree) (path : Text) :
    FailsOnly (fun failure => failure = .nullInPath ∧ FileTree.nullChar ∈ path)
      (Script.load? tree path) := by
  unfold Script.load? FileTree.readText
  split
  · rename_i null
    exact failsOnly_error ⟨rfl, List.contains_iff_mem.mp null⟩
  · exact failsOnly_ok _

section

variable {allowed : Failure → Prop} {settings : Settings} (tree : FileTree)

theorem failsOnly_load {path : Text} (null : FileTree.nullChar ∈ path → allowed .nullInPath) :
    FailsOnly allowed (Property.load tree path) := by
  apply failsOnly_bind
  · unfold FileTree.readText
    split
    · rename_i held
      exact failsOnly_error (null (List.contains_iff_mem.mp held))
    · exact failsOnly_ok _
  · intro content _
    exact failsOnly_ok _

/-! Before the sources only paths are made up. -/

variable (faulty : ∀ failure, settings.Fault failure → allowed failure)

include faulty

theorem failsOnly_extensions : FailsOnly allowed (Script.extensions settings) := by
  apply failsOnly_bind (failsOnly_known faulty .groovyExtension (by decide))
  intro groovy _
  apply failsOnly_bind (failsOnly_known faulty .kotlinExtension (by decide))
  intro kotlin _
  exact failsOnly_ok _

theorem failsOnly_find? (directory baseName : Text) :
    FailsOnly allowed (Script.find? settings tree directory baseName) := by
  apply failsOnly_bind (failsOnly_extensions faulty)
  intro extensions _
  exact failsOnly_ok _

theorem failsOnly_buildScript? (request : Request) :
    FailsOnly allowed (buildScript? settings tree request) := by
  apply failsOnly_bind (failsOnly_known faulty .buildScript (by decide))
  intro name _
  cases request.buildFile.filter (!·.isEmpty) with
  | none => exact failsOnly_find? tree faulty _ _
  | some file =>
    dsimp only
    split
    · exact failsOnly_ok _
    · refine failsOnly_bind (failsOnly_find? tree faulty _ _) fun asked _ => ?_
      cases asked with
      | some path => exact failsOnly_ok _
      | none => exact failsOnly_find? tree faulty _ _

theorem failsOnly_overriding (arguments : List Text) (environment : Table) :
    FailsOnly allowed (Property.overriding settings arguments environment) := by
  apply failsOnly_bind
  · apply failsOnly_bind (failsOnly_known faulty .projectPropertyPrefix (by decide))
    intro start _
    exact failsOnly_ok _
  · intro ofVariables _
    apply failsOnly_bind (failsOnly_knownList faulty .jvmOptionsVariables (by decide))
    intro optionVariables _
    exact failsOnly_ok _

section

variable (nulls : settings.HoldsNull → allowed .nullInPath)

include nulls

omit faulty in
theorem null_join_known {base value : Text} (null : FileTree.nullChar ∈ base → allowed .nullInPath)
    {setting : Settings.Setting} (given : settings.text setting = .ok value)
    (known : setting ∈ Settings.knownTexts) :
    FileTree.nullChar ∈ Path.join base value → allowed .nullInPath := by
  intro member
  rcases Path.mem_join member (by decide) with inside | behind
  · exact null inside
  · exact nulls ⟨setting, known, value, given, behind⟩

theorem failsOnly_base {directory : Text} {userHome : Option Text}
    (null : FileTree.nullChar ∈ directory → allowed .nullInPath)
    (nullHome : ∀ home, userHome = some home → FileTree.nullChar ∈ home → allowed .nullInPath) :
    FailsOnly allowed (Property.base settings tree directory userHome) := by
  apply failsOnly_bind (failsOnly_known faulty .propertiesFile (by decide))
  intro file given
  have goesOn : ∀ ofUser : Table, FailsOnly allowed (do
      let ofProject ← Property.load tree (Path.join directory file)
      return ((Table.merge [ofUser, ofProject]).setDefault "rootDir" directory).setDefault
        "projectDir" directory) := by
    intro ofUser
    apply failsOnly_bind (failsOnly_load tree (null_join_known nulls null given (by decide)))
    intro ofProject _
    exact failsOnly_ok _
  cases whole : userHome.filter (!·.isEmpty) with
  | none => exact goesOn ∅
  | some home =>
    have held := nullHome home (Option.filter_eq_some_iff.mp whole).1
    exact failsOnly_bind (failsOnly_load tree (null_join_known nulls held given (by decide)))
      fun ofUser _ => goesOn ofUser

theorem failsOnly_search {request : Request}
    (null : FileTree.nullChar ∈ request.directory → allowed .nullInPath)
    (nullHome : ∀ home, request.userHome = some home → FileTree.nullChar ∈ home →
      allowed .nullInPath) :
    FailsOnly allowed (request.search settings tree) := by
  apply failsOnly_bind
  · apply failsOnly_bind (failsOnly_known faulty .snapshotSuffix (by decide))
    intro suffix _
    exact failsOnly_ok _
  · intro isSnapshot _
    apply failsOnly_bind (failsOnly_base tree faulty nulls null nullHome)
    intro base _
    apply failsOnly_bind (failsOnly_overriding faulty _ _)
    intro overriding _
    exact failsOnly_ok _

theorem failsOnly_plan {request : Request}
    (null : FileTree.nullChar ∈ request.directory → allowed .nullInPath)
    (nullHome : ∀ home, request.userHome = some home → FileTree.nullChar ∈ home →
      allowed .nullInPath) :
    FailsOnly allowed (request.plan settings tree) := by
  apply failsOnly_bind (failsOnly_search tree faulty nulls null nullHome)
  intro search _
  apply failsOnly_bind (failsOnly_buildScript? tree faulty request)
  intro build _
  apply failsOnly_bind (failsOnly_known faulty .settingsScript (by decide))
  intro name _
  apply failsOnly_bind (failsOnly_find? tree faulty _ name)
  intro settingsScript _
  exact failsOnly_ok _

theorem failsOnly_initScripts {home : Text}
    (null : FileTree.nullChar ∈ home → allowed .nullInPath) :
    FailsOnly allowed (initScripts settings tree home) := by
  apply failsOnly_bind (failsOnly_knownList faulty .initScripts (by decide))
  intro named _
  apply failsOnly_bind (failsOnly_known faulty .initDirectory (by decide))
  intro directory given
  dsimp only
  split
  · rename_i held
    have below := null_join_known nulls null given (by decide)
    exact failsOnly_error (below (List.contains_iff_mem.mp held))
  · apply failsOnly_bind (failsOnly_extensions faulty)
    intro extensions _
    exact failsOnly_ok _

end

end

/-- The failures that a deployment announces: a bad directory, a URL that cannot be resolved, and the
want of a repository. -/
inductive Request.Announces (request : Request) (tree : FileTree) : Failure → Prop
  | emptyDirectory (empty : request.directory = []) : request.Announces tree .emptyWorkingDirectory
  | noDirectory (given : request.directory ≠ []) (absent : tree.isDirectory request.directory = false) :
      request.Announces tree (.notADirectory request.directory)
  | unresolvedUrl (url script : Text) : request.Announces tree (.unresolvedUrl url script)
  | noRepository : request.Announces tree (.noDeployRepository request.directory)

theorem announces_of_checkDirectory {tree : FileTree} {request : Request} {failure : Failure}
    (failed : checkDirectory tree request.directory = .error failure) :
    request.Announces tree failure := by
  unfold checkDirectory at failed
  split at failed
  · rename_i empty
    cases failed
    exact .emptyDirectory (List.isEmpty_iff.mp empty)
  · rename_i given
    split at failed
    · cases failed
    · rename_i absent
      cases failed
      exact .noDirectory (by simpa using given) (by simpa using absent)

theorem null_notMem_of_checkDirectory {tree : FileTree} (plain : tree.HasPlainNames) {path : Text}
    (valid : checkDirectory tree path = .ok ()) : FileTree.nullChar ∉ path := by
  unfold checkDirectory at valid
  split at valid
  · cases valid
  · split at valid
    · exact plain.null_notMem_of_isDirectory ‹_›
    · cases valid

/-- A script that can be read applies one whose path holds a null character. -/
def AppliesNull (settings : Settings) (tree : FileTree) : Prop :=
  ∃ path script table paths, Script.load? tree path = .ok (some script) ∧
    Script.appliedPaths settings script.dialect script.content table script.path = .ok paths ∧
    ∃ applied ∈ paths, FileTree.nullChar ∈ applied

section

variable {allowed : Failure → Prop}

namespace Search

variable {search : Search} (faulty : ∀ failure, search.settings.Fault failure → allowed failure)
  (unresolved : ∀ failure, IsUnresolvedUrl failure → allowed failure)
  (applied : AppliesNull search.settings search.tree → allowed .nullInPath)

include faulty unresolved

theorem failsOnly_inspect_or (inherited : Table) (script : Script) :
    FailsOnly (fun failure => failure.isAbsence = true ∨ allowed failure)
      (search.inspect inherited script) :=
  failsOnly_inspect (fun failure fault => .inr (faulty failure fault)) (fun _ => .inl)
    (fun failure url => .inr (unresolved failure url)) inherited script

omit faulty unresolved in
include applied in
/-- The paths that a script applies can be asked for, unless scripts apply one that cannot. -/
theorem null_of_inspect {inherited : Table} {script : Script} {path : Text} {pending : List Pending}
    (loaded : Script.load? search.tree path = .ok (some script))
    (inspected : search.inspect inherited script = .ok (.applied pending)) :
    ∀ next ∈ pending, FileTree.nullChar ∈ next.path → allowed .nullInPath := by
  intro next member null
  obtain ⟨paths, found, same⟩ := bind_eq_ok_iff.mp (appliedBy_of_inspect inspected)
  cases same
  obtain ⟨written, inside, rfl⟩ := List.mem_map.mp member
  exact applied ⟨path, script, _, paths, loaded, found, written, inside, null⟩

include applied

theorem failsOnly_follow (visited : List AbsolutePath) (pending : List Pending)
    (null : ∀ next ∈ pending, FileTree.nullChar ∈ next.path → allowed .nullInPath) :
    FailsOnly allowed (search.follow visited pending).result := by
  fun_induction follow search visited pending with
  | case1 visited => exact failsOnly_ok _
  | case2 visited next rest path known ih =>
    exact ih fun other member => null other (List.mem_cons_of_mem _ member)
  | case3 visited next rest path fresh failure loaded =>
    obtain ⟨rfl, held⟩ := (failsOnly_load? search.tree next.path).allows failure loaded
    exact failsOnly_error (null next List.mem_cons_self held)
  | case4 visited next rest path fresh loaded ih =>
    exact ih fun other member => null other (List.mem_cons_of_mem _ member)
  | case5 visited next rest path fresh script loaded failure inspected absent ih =>
    exact ih fun other member => null other (List.mem_cons_of_mem _ member)
  | case6 visited next rest path fresh script loaded failure inspected present =>
    have ways := (failsOnly_inspect_or faulty unresolved next.inherited script).allows failure inspected
    exact failsOnly_error (ways.resolve_left present)
  | case7 visited next rest path fresh script loaded key inspected => exact failsOnly_ok _
  | case8 visited next rest path fresh script loaded pending inspected ih =>
    apply ih
    intro other member
    rcases List.mem_append.mp member with below | later
    · exact null_of_inspect applied loaded inspected other below
    · exact null other (List.mem_cons_of_mem _ later)

theorem failsOnly_keyOfScript {path : Text} {script : Script} (inherited : Table)
    (loaded : Script.load? search.tree path = .ok (some script)) :
    FailsOnly (fun failure => failure.isAbsence = true ∨ allowed failure)
      (search.keyOfScript inherited script) := by
  apply failsOnly_bind
  · unfold run
    dsimp only
    split
    · rename_i failure inspected
      exact failsOnly_error
        ((failsOnly_inspect_or faulty unresolved inherited script).allows failure inspected)
    · exact failsOnly_ok _
    · rename_i pending inspected
      exact ⟨fun failure failed => .inr ((failsOnly_follow faulty unresolved applied _ _
        (null_of_inspect applied loaded inspected)).allows failure failed)⟩
  · intro found _
    cases found with
    | some key => exact failsOnly_ok _
    | none => exact failsOnly_error (.inl rfl)

theorem failsOnly_keyOfFile {path : Text} (plain : FileTree.nullChar ∉ path) :
    FailsOnly (fun failure => failure.isAbsence = true ∨ allowed failure)
      (search.keyOfFile path) := by
  apply failsOnly_bind
  · constructor
    intro failure failed
    exact absurd ((failsOnly_load? search.tree path).allows failure failed).2 plain
  · intro script? loaded
    cases script? with
    | none => exact failsOnly_error (.inl rfl)
    | some script => exact failsOnly_keyOfScript faulty unresolved applied ∅ loaded

end Search

end

theorem isFile_of_find? {settings : Settings} {tree : FileTree} {directory baseName path : Text}
    (found : Script.find? settings tree directory baseName = .ok (some path)) :
    tree.isFile path = true := by
  obtain ⟨extensions, -, found⟩ := bind_eq_ok_iff.mp found
  exact List.find?_some (Except.ok.inj found)

theorem isFile_of_buildScript? {settings : Settings} {tree : FileTree} {request : Request} {path : Text}
    (found : buildScript? settings tree request = .ok (some path)) : tree.isFile path = true := by
  obtain ⟨baseName, -, found⟩ := bind_eq_ok_iff.mp found
  cases given : request.buildFile.filter (!·.isEmpty) with
  | none =>
    rw [given] at found
    exact isFile_of_find? found
  | some file =>
    rw [given] at found
    dsimp only at found
    split at found
    · rename_i held
      cases found
      exact held
    · obtain ⟨asked, beside, found⟩ := bind_eq_ok_iff.mp found
      cases asked with
      | some other =>
        cases found
        exact isFile_of_find? beside
      | none => exact isFile_of_find? found

theorem isFile_of_mem_initScripts {settings : Settings} {tree : FileTree} {home path : Text}
    {paths : List Text} (found : initScripts settings tree home = .ok paths) (member : path ∈ paths) :
    tree.isFile path = true := by
  obtain ⟨named, -, found⟩ := bind_eq_ok_iff.mp found
  obtain ⟨directory, -, found⟩ := bind_eq_ok_iff.mp found
  dsimp only at found
  split at found
  · cases found
  · obtain ⟨extensions, -, found⟩ := bind_eq_ok_iff.mp found
    cases found
    exact (List.mem_filter.mp member).2

section

variable {settings : Settings} {tree : FileTree} {request : Request} {allowed : Failure → Prop}
  (plain : tree.HasPlainNames) (faulty : ∀ failure, settings.Fault failure → allowed failure)
  (announced : ∀ failure, request.Announces tree failure → allowed failure)
  (nulls : settings.HoldsNull → allowed .nullInPath)
  (applied : AppliesNull settings tree → allowed .nullInPath)
  (nullHome : ∀ home, request.userHome = some home → FileTree.nullChar ∈ home → allowed .nullInPath)

include plain faulty announced nulls applied nullHome

theorem failsOnly_outcome {plan : Plan} (planned : request.plan settings tree = .ok plan)
    {source : Source} (member : source ∈ plan.sources) :
    FailsOnly (fun failure => failure.isAbsence = true ∨ allowed failure)
      (source.outcome plan.search) := by
  have unresolved : ∀ failure, IsUnresolvedUrl failure → allowed failure := by
    rintro failure ⟨url, script, rfl⟩
    exact announced _ (.unresolvedUrl url script)
  obtain ⟨search, searched, planned⟩ := bind_eq_ok_iff.mp planned
  obtain ⟨build, buildFound, planned⟩ := bind_eq_ok_iff.mp planned
  obtain ⟨settingsName, -, planned⟩ := bind_eq_ok_iff.mp planned
  obtain ⟨settingsScript, settingsFound, planned⟩ := bind_eq_ok_iff.mp planned
  cases planned
  obtain ⟨rfl, rfl, -, -⟩ := fields_of_search searched
  have ofFile : ∀ path, search.tree.isFile path = true →
      FailsOnly (fun failure => failure.isAbsence = true ∨ allowed failure)
        (search.keyOfFile path) := fun path file =>
    Search.failsOnly_keyOfFile faulty unresolved applied (plain.null_notMem_of_isFile file)
  rcases List.mem_append.mp member with ofScripts | member
  · obtain ⟨path, found, rfl⟩ := List.mem_map.mp ofScripts
    apply failsOnly_map _ (ofFile path _)
    rcases List.mem_append.mp found with isBuild | isSettings
    · rw [Option.mem_toList.mp isBuild] at buildFound
      exact isFile_of_buildScript? buildFound
    · rw [Option.mem_toList.mp isSettings] at settingsFound
      exact isFile_of_find? settingsFound
  rcases List.mem_cons.mp member with rfl | ofHome
  · exact failsOnly_map _ (failsOnly_selectProperty
      (fun failure fault => .inr (faulty failure fault)) (fun _ => .inl) _ _)
  · unfold Request.initSources at ofHome
    split at ofHome
    · cases ofHome
    · rename_i home given
      have held := nullHome home (Option.filter_eq_some_iff.mp given).1
      split at ofHome
      · rename_i paths listed
        obtain ⟨path, inside, rfl⟩ := List.mem_map.mp ofHome
        exact failsOnly_map _ (ofFile path (isFile_of_mem_initScripts listed inside))
      · rename_i failure failed
        obtain rfl := List.mem_singleton.mp ofHome
        exact failsOnly_error
          (.inr ((failsOnly_initScripts search.tree faulty nulls held).allows failure failed))

/-- A deployment fails in a way that it announces, by a fault of the settings, or at a path with a null
character that the settings or a script holds. -/
theorem failsOnly_deployment : FailsOnly allowed (deployment settings tree request) := by
  rw [deployment_eq]
  apply failsOnly_bind
  · exact ⟨fun failure failed => announced failure (announces_of_checkDirectory failed)⟩
  intro _ valid
  apply failsOnly_bind (failsOnly_plan tree faulty nulls
    (fun null => absurd null (null_notMem_of_checkDirectory plain valid)) nullHome)
  intro plan planned
  cases decided : plan.decisive? with
  | none => exact failsOnly_error (announced _ .noRepository)
  | some source =>
    have ways := failsOnly_outcome plain faulty announced nulls applied nullHome planned
      (List.mem_of_find?_eq_some decided)
    have present := List.find?_some decided
    constructor
    intro failure failed
    dsimp only at present failed
    rw [failed] at present
    refine (ways.allows failure failed).resolve_left fun absent => ?_
    rw [isAbsent, absent] at present
    cases present

end

end Repository

end GradlePublishing
