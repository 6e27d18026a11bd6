import GradlePublishing.Proofs.Asking
import GradlePublishing.Proofs.Repository.Source

/-!
What a deployment asks of the file tree. It asks for what it needs to prepare the search, and then source
by source up to the one that decides. So no other part of the tree matters.
-/

namespace GradlePublishing.Repository

namespace Search

def on (search : Search) (tree : FileTree) : Search := { search with tree }

/-- The paths of the scripts that a search along pending scripts reads, up to the one that ends it. -/
def reads (search : Search) (visited : List AbsolutePath) : List Pending → List Text
  | [] => []
  | next :: rest =>
    let path := search.tree.absolute next.path
    if path ∈ visited then reads search visited rest
    else
      next.path ::
        match _ : Script.load? search.tree next.path with
        | .error _ => []
        | .ok none => reads search (path :: visited) rest
        | .ok (some script) =>
          match search.inspect next.inherited script with
          | .error failure =>
            if failure.isAbsence then reads search (path :: visited) rest else []
          | .ok (.key _) => []
          | .ok (.applied pending) => reads search (path :: visited) (pending ++ rest)
termination_by pending => ((unread search.tree visited).length, pending.length)
decreasing_by
  · exact .right _ (by simp)
  · exact Prod.Lex.right' _ (length_unread_cons _ _ _) (by simp)
  · exact Prod.Lex.right' _ (length_unread_cons _ _ _) (by simp)
  · exact .left _ _ (length_unread_of_load? ‹_› ‹_›)

theorem reads_known {search : Search} {visited : List AbsolutePath} {next : Pending}
    (rest : List Pending) (known : search.tree.absolute next.path ∈ visited) :
    search.reads visited (next :: rest) = search.reads visited rest := by
  rw [reads]
  exact if_pos known

theorem reads_fresh {search : Search} {visited : List AbsolutePath} {next : Pending}
    (rest : List Pending) (fresh : search.tree.absolute next.path ∉ visited) :
    search.reads visited (next :: rest) =
      next.path ::
        match Script.load? search.tree next.path with
        | .error _ => []
        | .ok none => search.reads (search.tree.absolute next.path :: visited) rest
        | .ok (some script) =>
          match search.inspect next.inherited script with
          | .error failure =>
            if failure.isAbsence then
              search.reads (search.tree.absolute next.path :: visited) rest
            else []
          | .ok (.key _) => []
          | .ok (.applied pending) =>
            search.reads (search.tree.absolute next.path :: visited) (pending ++ rest) := by
  rw [reads]
  simp only [if_neg fresh]
  split <;> simp_all

/-- What a search finds in a single script is not a matter of the tree. -/
theorem inspect_on (search : Search) (tree : FileTree) (inherited : Table) (script : Script) :
    (search.on tree).inspect inherited script = search.inspect inherited script := rfl

/-- A search comes to the same on a tree in which the scripts that it reads are the same. -/
theorem follow_on {search : Search} {other : FileTree} (same : other.current = search.tree.current)
    (visited : List AbsolutePath) (pending : List Pending)
    (agrees : ∀ path ∈ search.reads visited pending,
      other.readText path = search.tree.readText path) :
    (search.on other).follow visited pending = search.follow visited pending := by
  have absolute : ∀ path, (search.on other).tree.absolute path = search.tree.absolute path := by
    intro path
    exact congrArg (AbsolutePath.ofText · path) same
  have load : ∀ path, other.readText path = search.tree.readText path →
      Script.load? (search.on other).tree path = Script.load? search.tree path := by
    intro path equal
    rw [Script.load?, Script.load?, ← equal]
    rfl
  fun_induction follow search visited pending with
  | case1 visited => rw [follow]
  | case2 visited next rest path known ih =>
    rw [reads_known rest known] at agrees
    rw [← ih agrees, follow_known rest (by rwa [absolute])]
  | case3 visited next rest path fresh failure loaded =>
    rw [reads_fresh rest fresh] at agrees
    have here := load next.path (agrees next.path List.mem_cons_self)
    rw [follow_fault rest (by rwa [absolute]) (here.trans loaded), absolute]
  | case4 visited next rest path fresh loaded ih =>
    rw [reads_fresh rest fresh, loaded] at agrees
    have here := load next.path (agrees next.path List.mem_cons_self)
    rw [follow_missing rest (by rwa [absolute]) (here.trans loaded), absolute]
    apply ih
    intro path member
    exact agrees path (List.mem_cons_of_mem _ member)
  | case5 visited next rest path fresh script loaded failure inspected absent ih =>
    rw [reads_fresh rest fresh, loaded] at agrees
    simp only [inspected, if_pos absent] at agrees
    have here := load next.path (agrees next.path List.mem_cons_self)
    rw [follow_script rest (by rwa [absolute]) (here.trans loaded), absolute, inspect_on, inspected]
    simp only [if_pos absent]
    apply ih
    intro path member
    exact agrees path (List.mem_cons_of_mem _ member)
  | case6 visited next rest path fresh script loaded failure inspected absent =>
    rw [reads_fresh rest fresh] at agrees
    have here := load next.path (agrees next.path List.mem_cons_self)
    rw [follow_script rest (by rwa [absolute]) (here.trans loaded), absolute, inspect_on, inspected]
    simp only [if_neg absent, path]
  | case7 visited next rest path fresh script loaded key inspected =>
    rw [reads_fresh rest fresh] at agrees
    have here := load next.path (agrees next.path List.mem_cons_self)
    rw [follow_script rest (by rwa [absolute]) (here.trans loaded), absolute, inspect_on, inspected]
  | case8 visited next rest path fresh script loaded pending inspected ih =>
    rw [reads_fresh rest fresh, loaded] at agrees
    simp only [inspected] at agrees
    have here := load next.path (agrees next.path List.mem_cons_self)
    rw [follow_script rest (by rwa [absolute]) (here.trans loaded), absolute, inspect_on, inspected]
    apply ih
    intro path member
    exact agrees path (List.mem_cons_of_mem _ member)

/-- The paths of the scripts that a search from a script reads. -/
def readsFrom (search : Search) (inherited : Table) (script : Script) : List Text :=
  match search.inspect inherited script with
  | .ok (.applied pending) => search.reads [search.tree.absolute script.path] pending
  | _ => []

theorem keyOfScript_on (search : Search) {other : FileTree}
    (same : other.current = search.tree.current) {inherited : Table} {script : Script}
    (agrees : ∀ path ∈ search.readsFrom inherited script,
      other.readText path = search.tree.readText path) :
    (search.on other).keyOfScript inherited script = search.keyOfScript inherited script := by
  have start : (search.on other).tree.absolute script.path = search.tree.absolute script.path :=
    congrArg (AbsolutePath.ofText · script.path) same
  have ends : (search.on other).run inherited script = search.run inherited script := by
    unfold readsFrom at agrees
    rw [run, run, inspect_on, start]
    cases inspected : search.inspect inherited script with
    | error failure => rfl
    | ok finding =>
      cases finding with
      | key key => rfl
      | applied pending =>
        simp only [inspected] at agrees
        exact follow_on same _ pending agrees
  rw [keyOfScript, keyOfScript, ends]

end Search

open Asking (given isDirectory isFile names findScript baseProperties files)

/-! A deployment as a computation that asks. -/

section

variable {α : Type} (settings : Settings) (tree : FileTree)

def askUnlessAbsent (asking : Asking α) : Asking (Option α) where
  asked := asking.asked
  result tree := unlessAbsent (asking.result tree)
  determined same agrees := congrArg unlessAbsent (asking.determined same agrees)

def askDirectory (path : Text) : Asking Unit :=
  if path.isEmpty then given (.error .emptyWorkingDirectory)
  else do
    if ← isDirectory path then return ()
    given (.error (.notADirectory path))

theorem result_askDirectory (path : Text) :
    (askDirectory path).result tree = checkDirectory tree path := by
  unfold askDirectory checkDirectory
  cases path.isEmpty with
  | true => rfl
  | false =>
    change Asking.result (if tree.isDirectory path = true then _ else _) tree = _
    cases tree.isDirectory path with
    | true => rfl
    | false => rfl

/-- A tree in the place of one that is not known yet. -/
def blankTree : FileTree := ⟨⟨false, []⟩, []⟩

/-- The search of a request, on a tree that is left blank. -/
def askSearch (request : Request) : Asking Search := do
  let isSnapshot ← given (isSnapshotVersion settings request.version)
  let base ← baseProperties settings request.directory request.userHome
  let overriding ← given (Property.overriding settings request.arguments request.environment)
  return ⟨settings, blankTree, base, overriding, isSnapshot⟩

theorem result_askSearch (request : Request) :
    (askSearch settings request).result tree =
      (request.search settings tree).map (·.on blankTree) := by
  unfold askSearch Request.search
  simp only [Asking.result_bind, Asking.result_given, Asking.result_baseProperties]
  cases isSnapshotVersion settings request.version with
  | error failure => rfl
  | ok isSnapshot =>
    cases Property.base settings tree request.directory request.userHome with
    | error failure => rfl
    | ok base =>
      cases Property.overriding settings request.arguments request.environment with
      | error failure => rfl
      | ok overriding => rfl

def askBuildScript (request : Request) : Asking (Option Text) := do
  let baseName ← given (settings.text .buildScript)
  let asked ← match request.buildFile.filter (!·.isEmpty) with
    | some file =>
      let path := Path.join request.directory file
      if ← isFile path then pure (some path)
      else findScript settings (Path.directory path) baseName
    | none => pure none
  match asked with
  | some path => return some path
  | none => findScript settings request.directory baseName

theorem result_askBuildScript (request : Request) :
    (askBuildScript settings request).result tree = buildScript? settings tree request := by
  unfold askBuildScript buildScript?
  simp only [Asking.result_bind, Asking.result_given]
  apply bind_congr
  intro baseName
  cases request.buildFile.filter (!·.isEmpty) with
  | none => exact Asking.result_findScript settings request.directory baseName tree
  | some file =>
    simp only [Asking.result_bind, Asking.result_isFile]
    cases tree.isFile (Path.join request.directory file) with
    | true => rfl
    | false =>
      change ((findScript settings _ baseName).result tree >>= _) = (Script.find? settings tree _ _ >>= _)
      rw [Asking.result_findScript]
      apply bind_congr
      intro asked
      cases asked with
      | some path => rfl
      | none => exact Asking.result_findScript settings request.directory baseName tree

def askInitScripts (userHome : Text) : Asking (List Text) := do
  let named := (← given (settings.list .initScripts)).map (Path.join userHome)
  let directory := Path.join userHome (← given (settings.text .initDirectory))
  if directory.contains FileTree.nullChar then given (.error .nullInPath)
  else
    let names ← names directory
    let extensions ← given (Script.extensions settings)
    let scripts := names.filter fun name => extensions.any (·.isSuffixOf name)
    files (named ++ scripts.map (Path.join directory))

theorem result_askInitScripts (userHome : Text) :
    (askInitScripts settings userHome).result tree = initScripts settings tree userHome := by
  unfold askInitScripts initScripts
  simp only [Asking.result_bind, Asking.result_given]
  apply bind_congr
  intro named
  apply bind_congr
  intro directory
  by_cases null : (Path.join userHome directory).contains FileTree.nullChar = true
  · simp only [if_pos null]
    rfl
  · simp only [if_neg null, Asking.result_bind, Asking.result_names, Asking.result_given]
    change (Script.extensions settings >>= _) = _
    apply bind_congr
    intro extensions
    exact Asking.result_files _ tree

/-- The sources in the user home. That they cannot be listed is no failure yet. -/
def askInitSources (request : Request) : Asking (List Source) :=
  match request.userHome.filter (!·.isEmpty) with
  | none => pure []
  | some home =>
    let listing := askInitScripts settings home
    { asked := listing.asked
      result := fun tree =>
        match listing.result tree with
        | .ok paths => .ok (paths.map .initScript)
        | .error failure => .ok [.unlisted failure]
      determined := fun same agrees => by rw [listing.determined same agrees] }

theorem result_askInitSources (request : Request) :
    (askInitSources settings request).result tree =
      .ok (request.initSources settings tree) := by
  unfold askInitSources Request.initSources
  cases request.userHome.filter (!·.isEmpty) with
  | none => rfl
  | some home =>
    dsimp only
    rw [result_askInitScripts]
    cases initScripts settings tree home with
    | error failure => rfl
    | ok paths => rfl

end

section

variable (search : Search) (tree : FileTree)

def askKeyOfScript (script : Script) : Asking Text where
  asked tree := ((search.on tree).readsFrom ∅ script).map .text
  result tree := (search.on tree).keyOfScript ∅ script
  determined same agrees := by
    apply Search.keyOfScript_on (search.on _) same
    intro path member
    exact agrees (.text path) (List.mem_map_of_mem member)

def askKeyOfFile (path : Text) : Asking Text := do
  match ← Asking.script path with
  | some script => askKeyOfScript search script
  | none => given (.error (.noRepository path))

theorem result_askKeyOfFile (path : Text) :
    (askKeyOfFile search path).result tree = (search.on tree).keyOfFile path := by
  unfold askKeyOfFile Search.keyOfFile
  simp only [Asking.result_bind, Asking.result_script]
  apply bind_congr
  intro loaded
  cases loaded with
  | none => rfl
  | some script => rfl

def askOutcome : Source → Asking Deployment
  | .script path => do return ⟨← askKeyOfFile search path, .script path⟩
  | .properties =>
    given ((selectProperty search.settings search.isSnapshot
      (Table.merge [search.base, search.overriding])).map fun key => ⟨key, .properties⟩)
  | .initScript path => do return ⟨← askKeyOfFile search path, .initScripts⟩
  | .unlisted failure => given (.error failure)

theorem result_askOutcome (source : Source) :
    (askOutcome search source).result tree = source.outcome (search.on tree) := by
  cases source with
  | properties => rfl
  | unlisted failure => rfl
  | script path | initScript path =>
    simp only [askOutcome, Source.outcome, Asking.result_bind, result_askKeyOfFile]
    cases (search.on tree).keyOfFile path with
    | error failure => rfl
    | ok key => rfl

def askFirstPresent : List Source → Asking (Option Deployment)
  | [] => pure none
  | source :: rest => do
    match ← askUnlessAbsent (askOutcome search source) with
    | some found => return some found
    | none => askFirstPresent rest

theorem result_askFirstPresent (sources : List Source) :
    (askFirstPresent search sources).result tree = firstPresent (search.on tree) sources := by
  induction sources with
  | nil => rfl
  | cons source rest ih =>
    rw [askFirstPresent, firstPresent, Asking.result_bind]
    change (unlessAbsent ((askOutcome search source).result tree) >>= _) = _
    rw [result_askOutcome]
    apply bind_congr
    intro found
    cases found with
    | some found => rfl
    | none => exact ih

end

section

variable (settings : Settings) (tree : FileTree) (request : Request)

/-- What comes before the sources: the search, and the sources in the project. -/
def askProject : Asking Plan := do
  let search ← askSearch settings request
  let build ← askBuildScript settings request
  let settingsScript ←
    findScript settings request.directory (← given (settings.text .settingsScript))
  return ⟨search, (build.toList ++ settingsScript.toList).map .script ++ [.properties]⟩

/-- A deployment source by source. The init scripts are listed only after the project. -/
def askDeployment : Asking Deployment := do
  askDirectory request.directory
  let project ← askProject settings request
  match ← askFirstPresent project.search project.sources with
  | some found => return found
  | none =>
    match ← askFirstPresent project.search (← askInitSources settings request) with
    | some found => return found
    | none => given (.error (.noDeployRepository request.directory))

theorem plan_eq : request.plan settings tree = (do
    let project ← (askProject settings request).result tree
    return ⟨project.search.on tree, project.sources ++ request.initSources settings tree⟩) := by
  unfold askProject Request.plan
  simp only [Asking.result_bind, result_askSearch, result_askBuildScript, Asking.result_findScript,
    Asking.result_given]
  cases searched : request.search settings tree with
  | error failure => rfl
  | ok search =>
    obtain ⟨-, same, -, -⟩ := fields_of_search searched
    have restored : (search.on blankTree).on tree = search := by
      rw [← same]
      rfl
    change (pure search >>= _) = ((pure (search.on blankTree) >>= _) >>= _)
    simp only [bind_assoc, pure_bind]
    apply bind_congr
    intro build
    apply bind_congr
    intro baseName
    apply bind_congr
    intro settingsScript
    change _ = Except.ok (Plan.mk ((search.on blankTree).on tree) _)
    rw [restored, List.append_assoc]
    rfl

theorem result_askDeployment :
    (askDeployment settings request).result tree = deployment settings tree request := by
  unfold askDeployment
  simp only [Asking.result_bind, result_askDirectory, deployment_eq, outcome_decisive?, plan_eq,
    bind_assoc]
  apply bind_congr
  intro _
  apply bind_congr
  intro project
  change _ = _ >>= orNoRepository request.directory
  rw [result_askFirstPresent, firstPresent_append, bind_assoc]
  apply bind_congr
  intro found
  cases found with
  | some found => rfl
  | none =>
    simp only [Asking.result_bind, result_askInitSources]
    change ((askFirstPresent _ _).result tree >>= _) = _
    rw [result_askFirstPresent]
    apply bind_congr
    intro found
    cases found with
    | some found => rfl
    | none => rfl

end

/-! Nothing is asked for the sake of a source behind the one that decides. -/

section

variable {search : Search} {tree : FileTree}

theorem asked_askFirstPresent_append {earlier : List Source} (rest : List Source)
    (absent : ∀ other ∈ earlier, isAbsent (other.outcome (search.on tree)) = true) :
    (askFirstPresent search (earlier ++ rest)).asked tree =
      (earlier.flatMap fun other => (askOutcome search other).asked tree) ++
        (askFirstPresent search rest).asked tree := by
  induction earlier with
  | nil => rfl
  | cons source earlier ih =>
    have passes : (askUnlessAbsent (askOutcome search source)).result tree = .ok none := by
      change unlessAbsent ((askOutcome search source).result tree) = _
      rw [result_askOutcome, unlessAbsent_eq, if_pos (absent source List.mem_cons_self)]
    rw [List.cons_append, askFirstPresent, Asking.asked_bind_of_ok passes, List.flatMap_cons,
      List.append_assoc]
    dsimp only
    rw [ih fun other member => absent other (List.mem_cons_of_mem _ member)]
    rfl

theorem asked_askFirstPresent_cons {source : Source} (later : List Source)
    (present : isAbsent (source.outcome (search.on tree)) = false) :
    (askFirstPresent search (source :: later)).asked tree = (askOutcome search source).asked tree := by
  have ends : (askUnlessAbsent (askOutcome search source)).result tree =
      (source.outcome (search.on tree)).map some := by
    change unlessAbsent ((askOutcome search source).result tree) = _
    rw [result_askOutcome, unlessAbsent_eq, if_neg (by simpa using present)]
  rw [askFirstPresent]
  change (askUnlessAbsent (askOutcome search source)).asked tree ++ _ = _
  rw [ends]
  cases source.outcome (search.on tree) with
  | error failure => exact List.append_nil _
  | ok found => exact List.append_nil _

theorem asked_askFirstPresent {earlier later : List Source} {source : Source}
    (absent : ∀ other ∈ earlier, isAbsent (other.outcome (search.on tree)) = true)
    (present : isAbsent (source.outcome (search.on tree)) = false) :
    (askFirstPresent search (earlier ++ source :: later)).asked tree =
      (earlier ++ [source]).flatMap fun other => (askOutcome search other).asked tree := by
  rw [asked_askFirstPresent_append _ absent, asked_askFirstPresent_cons _ present,
    List.flatMap_append, List.flatMap_singleton]

theorem properties_mem_project {settings : Settings} {request : Request} {project : Plan}
    (prepared : (askProject settings request).result tree = .ok project) :
    .properties ∈ project.sources := by
  obtain ⟨search, -, prepared⟩ := bind_eq_ok_iff.mp prepared
  obtain ⟨build, -, prepared⟩ := bind_eq_ok_iff.mp prepared
  obtain ⟨baseName, -, prepared⟩ := bind_eq_ok_iff.mp prepared
  obtain ⟨settingsScript, -, prepared⟩ := bind_eq_ok_iff.mp prepared
  cases prepared
  exact List.mem_append_right _ (List.mem_singleton_self _)

/-- What is asked until a source has decided: about the directory and the project, and in the sources up
to that one. The init scripts are listed once the properties have been looked into. -/
def askedUpTo (settings : Settings) (request : Request) (search : Search) (tree : FileTree)
    (earlier : List Source) (source : Source) : List Query :=
  (askDirectory request.directory).asked tree ++ (askProject settings request).asked tree ++
    (if .properties ∈ earlier then (askInitSources settings request).asked tree else []) ++
    (earlier ++ [source]).flatMap fun other => (askOutcome search other).asked tree

theorem mem_asked_of_project {project : Plan} {rest : Option Deployment → Asking Deployment}
    (quiet : ∀ found, (rest (some found)).asked tree = []) {earlier later : List Source}
    {source : Source} (sources : project.sources = earlier ++ source :: later)
    (absent : ∀ other ∈ earlier, isAbsent (other.outcome (project.search.on tree)) = true)
    (present : isAbsent (source.outcome (project.search.on tree)) = false) {query : Query}
    (member : query ∈ (askFirstPresent project.search project.sources >>= rest).asked tree) :
    query ∈ (earlier ++ [source]).flatMap fun other => (askOutcome project.search other).asked tree := by
  have decided : (askFirstPresent project.search project.sources).result tree =
      (source.outcome (project.search.on tree)).map some := by
    rw [result_askFirstPresent, sources, firstPresent_of_absent _ _ absent, firstPresent_cons,
      if_neg (by simpa using present)]
  have within := Asking.mem_asked_of_quiet (fun found come => by
    cases found with
    | none => exact absurd (decided.symm.trans come) (map_some_ne_none _)
    | some found => exact quiet found) member
  rwa [sources, asked_askFirstPresent absent present] at within

theorem mem_asked_of_init {settings : Settings} {request : Request} {project : Plan}
    {rest : Option Deployment → Asking Deployment}
    (next : rest none = do
      match ← askFirstPresent project.search (← askInitSources settings request) with
      | some found => return found
      | none => given (.error (.noDeployRepository request.directory)))
    {passed later : List Source} {source : Source}
    (initial : request.initSources settings tree = passed ++ source :: later)
    (absent : ∀ other ∈ project.sources ++ passed,
      isAbsent (other.outcome (project.search.on tree)) = true)
    (present : isAbsent (source.outcome (project.search.on tree)) = false) {query : Query}
    (member : query ∈ (askFirstPresent project.search project.sources >>= rest).asked tree) :
    query ∈ (askInitSources settings request).asked tree ∨
      query ∈ (project.sources ++ passed ++ [source]).flatMap fun other =>
        (askOutcome project.search other).asked tree := by
  have before : ∀ other ∈ project.sources,
      isAbsent (other.outcome (project.search.on tree)) = true :=
    fun other member => absent other (List.mem_append_left _ member)
  have behind : ∀ other ∈ passed, isAbsent (other.outcome (project.search.on tree)) = true :=
    fun other member => absent other (List.mem_append_right _ member)
  have asked := asked_askFirstPresent_append [] before
  have none : (askFirstPresent project.search project.sources).result tree = .ok none := by
    rw [result_askFirstPresent, ← List.append_nil project.sources, firstPresent_of_absent _ _ before]
    rfl
  rw [List.append_nil] at asked
  rw [Asking.asked_bind_of_ok none, asked, next] at member
  rw [List.append_assoc, List.flatMap_append]
  rcases List.mem_append.mp member with inProject | member
  · right
    rcases List.mem_append.mp inProject with inside | inside
    · exact List.mem_append_left _ inside
    · cases inside
  rw [Asking.asked_bind_of_ok (result_askInitSources settings tree request)] at member
  rcases List.mem_append.mp member with listing | member
  · exact .inl listing
  · right
    apply List.mem_append_right
    have within := Asking.mem_asked_of_quiet (fun found _ => by cases found <;> rfl) member
    rwa [initial, asked_askFirstPresent behind present] at within

theorem decisive_split {project initial earlier later : List Source} {source : Source}
    (sources : project ++ initial = earlier ++ source :: later) :
    (∃ passed, earlier = project ++ passed ∧ initial = passed ++ source :: later) ∨
      ∃ rest, project = earlier ++ source :: rest := by
  rcases List.append_eq_append_iff.mp sources with behind | ⟨rest, same, final⟩
  · exact .inl behind
  · cases rest with
    | nil => exact .inl ⟨[], by simp [same], final.symm⟩
    | cons first rest =>
      cases final
      exact .inr ⟨rest, same⟩

/-- A deployment asks for nothing behind the source that decides. -/
theorem mem_askedUpTo {settings : Settings} {request : Request} {plan : Plan}
    (valid : checkDirectory tree request.directory = .ok ())
    (planned : request.plan settings tree = .ok plan) {earlier later : List Source} {source : Source}
    (sources : plan.sources = earlier ++ source :: later)
    (absent : ∀ other ∈ earlier, isAbsent (other.outcome plan.search) = true)
    (present : isAbsent (source.outcome plan.search) = false) {query : Query}
    (member : query ∈ (askDeployment settings request).asked tree) :
    query ∈ askedUpTo settings request plan.search tree earlier source := by
  rw [plan_eq] at planned
  obtain ⟨project, prepared, planned⟩ := bind_eq_ok_iff.mp planned
  cases planned
  have checked : (askDirectory request.directory).result tree = .ok () := by
    rw [result_askDirectory, valid]
  rw [askDeployment, Asking.asked_bind_of_ok checked, Asking.asked_bind_of_ok prepared] at member
  unfold askedUpTo
  rcases List.mem_append.mp member with inDirectory | member
  · simp only [List.append_assoc]
    exact List.mem_append_left _ inDirectory
  rcases List.mem_append.mp member with inProject | member
  · simp only [List.append_assoc]
    exact List.mem_append_right _ (List.mem_append_left _ inProject)
  rcases decisive_split sources with ⟨passed, rfl, initial⟩ | ⟨rest, inProject⟩
  · have listed : .properties ∈ project.sources ++ passed :=
      List.mem_append_left _ (properties_mem_project prepared)
    rw [if_pos listed]
    rcases mem_asked_of_init rfl initial absent present member with listing | inSources
    · exact List.mem_append_left _ (List.mem_append_right _ listing)
    · exact List.mem_append_right _ inSources
  · exact List.mem_append_right _
      (mem_asked_of_project (fun _ => rfl) inProject absent present member)

end

end GradlePublishing.Repository
