import GradlePublishing.Proofs.Repository.Reach

/-!
The sources of a deployment: the scripts of the project, the properties, and each init script of the user
home. They are looked into one after the other, and the first that does not end in an absence decides
(`deployment_eq`).
-/

namespace GradlePublishing.Repository

/-- Something that a deployment looks into. Init scripts that cannot be listed stand as a failure in the
place of all of them. -/
inductive Source
  | script (path : Text)
  | properties
  | initScript (path : Text)
  | unlisted (failure : Failure)
  deriving DecidableEq

def isAbsent {α : Type} : Except Failure α → Bool
  | .ok _ => false
  | .error failure => failure.isAbsence

/-- The repository key in the script at a path and in the scripts that it applies. -/
def Search.keyOfFile (search : Search) (path : Text) : Except Failure Text := do
  match ← Script.load? search.tree path with
  | some script => search.keyOfScript ∅ script
  | none => throw (.noRepository path)

def Source.outcome (search : Search) : Source → Except Failure Deployment
  | .script path => (search.keyOfFile path).map fun key => ⟨key, .script path⟩
  | .properties =>
    (selectProperty search.settings search.isSnapshot
      (Table.merge [search.base, search.overriding])).map fun key => ⟨key, .properties⟩
  | .initScript path => (search.keyOfFile path).map fun key => ⟨key, .initScripts⟩
  | .unlisted failure => .error failure

def Request.initSources (request : Request) (settings : Settings) (tree : FileTree) : List Source :=
  match request.userHome.filter (!·.isEmpty) with
  | none => []
  | some home =>
    match initScripts settings tree home with
    | .ok paths => paths.map .initScript
    | .error failure => [.unlisted failure]

/-- What a deployment is about to do: the search, and the sources in their order. -/
structure Plan where
  search : Search
  sources : List Source

def Request.plan (request : Request) (settings : Settings) (tree : FileTree) : Except Failure Plan := do
  let search ← request.search settings tree
  let build ← buildScript? settings tree request
  let settingsScript ←
    Script.find? settings tree request.directory (← settings.text .settingsScript)
  return ⟨search, (build.toList ++ settingsScript.toList).map .script ++
    .properties :: request.initSources settings tree⟩

/-- The first source that does not end in an absence. -/
def Plan.decisive? (plan : Plan) : Option Source :=
  plan.sources.find? fun source => !isAbsent (source.outcome plan.search)

def firstPresent (search : Search) : List Source → Except Failure (Option Deployment)
  | [] => .ok none
  | source :: rest => do
    match ← unlessAbsent (source.outcome search) with
    | some found => return some found
    | none => firstPresent search rest

section Absence

variable {α β : Type}

theorem unlessAbsent_eq (result : Except Failure α) :
    unlessAbsent result = if isAbsent result = true then .ok none else result.map some := by
  cases result with
  | ok value => rfl
  | error failure => rfl

theorem map_some_ne_none (result : Except Failure α) : result.map some ≠ .ok none := by
  cases result with
  | ok value => exact nofun
  | error failure => exact nofun

theorem isAbsent_map (next : α → β) (result : Except Failure α) :
    isAbsent (result.map next) = isAbsent result := by
  cases result with
  | ok value => rfl
  | error failure => rfl

theorem unlessAbsent_map (next : α → β) (result : Except Failure α) :
    unlessAbsent (result.map next) = (unlessAbsent result).map (Option.map next) := by
  rw [unlessAbsent_eq, unlessAbsent_eq, isAbsent_map]
  by_cases absent : isAbsent result = true
  · rw [if_pos absent, if_pos absent]
    rfl
  · rw [if_neg absent, if_neg absent]
    cases result with
    | ok value => rfl
    | error failure => rfl

theorem isAbsent_unlessAbsent (result : Except Failure α) : isAbsent (unlessAbsent result) = false := by
  rw [unlessAbsent_eq]
  by_cases absent : isAbsent result = true
  · rw [if_pos absent]
    rfl
  · rw [if_neg absent, isAbsent_map]
    simpa using absent

theorem unlessAbsent_of_present {failure : Failure} (present : failure.isAbsence = false) :
    unlessAbsent (.error failure : Except Failure α) = .error failure := by
  rw [unlessAbsent, present]
  rfl

theorem isAbsent_bind {first : Except Failure α} {next : α → Except Failure β}
    (before : isAbsent first = false) (after : ∀ value, isAbsent (next value) = false) :
    isAbsent (first >>= next) = false := by
  cases first with
  | ok value => exact after value
  | error failure => exact before

end Absence

/-- A path that cannot be asked for is not taken for an absent repository. -/
theorem isAbsent_load? (tree : FileTree) (path : Text) : isAbsent (Script.load? tree path) = false := by
  unfold Script.load? FileTree.readText
  split
  · rfl
  · rfl

theorem isAbsent_firstScript? (search : Search) (paths : List Text) :
    isAbsent (firstScript? search paths) = false := by
  induction paths with
  | nil => rfl
  | cons path more ih =>
    rw [firstScript?]
    apply isAbsent_bind (isAbsent_load? _ _)
    intro loaded
    cases loaded with
    | none => exact ih
    | some script =>
      apply isAbsent_bind (isAbsent_unlessAbsent _)
      intro found
      cases found with
      | none => exact ih
      | some key => rfl

section FirstPresent

variable (search : Search)

theorem firstPresent_cons (source : Source) (rest : List Source) :
    firstPresent search (source :: rest) =
      if isAbsent (source.outcome search) = true then firstPresent search rest
      else (source.outcome search).map some := by
  rw [firstPresent, unlessAbsent_eq]
  by_cases absent : isAbsent (source.outcome search) = true
  · rw [if_pos absent, if_pos absent]
    rfl
  · rw [if_neg absent, if_neg absent]
    cases source.outcome search with
    | ok found => rfl
    | error failure => rfl

theorem firstPresent_singleton (source : Source) :
    firstPresent search [source] = unlessAbsent (source.outcome search) := by
  rw [firstPresent_cons, unlessAbsent_eq]
  rfl

theorem firstPresent_of_absent {earlier : List Source} (rest : List Source)
    (absent : ∀ other ∈ earlier, isAbsent (other.outcome search) = true) :
    firstPresent search (earlier ++ rest) = firstPresent search rest := by
  induction earlier with
  | nil => rfl
  | cons source earlier ih =>
    rw [List.cons_append, firstPresent_cons, if_pos (absent source List.mem_cons_self)]
    exact ih fun other member => absent other (List.mem_cons_of_mem _ member)

/-- Sources are taken in their order, and later ones only if all earlier ones end in an absence. -/
theorem firstPresent_append (first rest : List Source) :
    firstPresent search (first ++ rest) = (do
      match ← firstPresent search first with
      | some found => return some found
      | none => firstPresent search rest) := by
  induction first with
  | nil => rfl
  | cons source first ih =>
    rw [List.cons_append, firstPresent_cons, firstPresent_cons, ih]
    by_cases absent : isAbsent (source.outcome search) = true
    · rw [if_pos absent, if_pos absent]
    · rw [if_neg absent, if_neg absent]
      cases source.outcome search with
      | ok found => rfl
      | error failure => rfl

theorem firstPresent_eq (sources : List Source) :
    firstPresent search sources =
      match sources.find? fun source => !isAbsent (source.outcome search) with
      | some source => (source.outcome search).map some
      | none => .ok none := by
  induction sources with
  | nil => rfl
  | cons source rest ih =>
    rw [firstPresent_cons, List.find?_cons]
    cases absent : isAbsent (source.outcome search) with
    | true => exact ih
    | false => rfl

/-- The scripts at some paths are looked into as sources of one kind. -/
theorem firstPresent_map {source : Text → Source} (place : Text → Place)
    (same : ∀ path, (source path).outcome search =
      (search.keyOfFile path).map fun key => ⟨key, place path⟩) (paths : List Text) :
    firstPresent search (paths.map source) =
      (firstScript? search paths).map (Option.map fun found => ⟨found.2, place found.1⟩) := by
  induction paths with
  | nil => rfl
  | cons path more ih =>
    rw [List.map_cons, firstPresent, same, unlessAbsent_map, firstScript?, Search.keyOfFile, ih]
    have readable := isAbsent_load? search.tree path
    cases loaded : Script.load? search.tree path with
    | error failure =>
      rw [loaded] at readable
      change ((unlessAbsent (Except.error failure : Except Failure Text)).map _ >>= _) = _
      rw [unlessAbsent_of_present readable]
      rfl
    | ok script? =>
      cases script? with
      | none => rfl
      | some script =>
        change ((unlessAbsent (search.keyOfScript ∅ script)).map _ >>= _) =
          Except.map _ (unlessAbsent (search.keyOfScript ∅ script) >>= _)
        cases unlessAbsent (search.keyOfScript ∅ script) with
        | error failure => rfl
        | ok found =>
          cases found with
          | none => rfl
          | some key => rfl

end FirstPresent

theorem firstPresent_initSources (request : Request) (search : Search) {home : Text}
    (given : request.userHome.filter (!·.isEmpty) = some home) :
    firstPresent search (request.initSources search.settings search.tree) =
      (unlessAbsent (keyOfInitScripts search home)).map
        (Option.map fun key => ⟨key, .initScripts⟩) := by
  cases listed : initScripts search.settings search.tree home with
  | error failure =>
    have single : request.initSources search.settings search.tree = [.unlisted failure] := by
      simp only [Request.initSources, given, listed]
    have failed : keyOfInitScripts search home = .error failure := by
      rw [keyOfInitScripts, listed]
      rfl
    rw [single, failed, firstPresent_singleton, ← unlessAbsent_map]
    rfl
  | ok paths =>
    have scripts : request.initSources search.settings search.tree = paths.map .initScript := by
      simp only [Request.initSources, given, listed]
    have present := isAbsent_firstScript? search paths
    rw [scripts, firstPresent_map search (fun _ => .initScripts) (fun _ => rfl),
      keyOfInitScripts, listed]
    change _ = (unlessAbsent (firstScript? search paths >>= _)).map _
    cases tried : firstScript? search paths with
    | error failure =>
      rw [tried] at present
      change _ = (unlessAbsent (.error failure : Except Failure Text)).map _
      rw [unlessAbsent_of_present present]
      rfl
    | ok found =>
      cases found with
      | none => rfl
      | some found => rfl

/-- The end of a deployment: what the sources come to, or that there is no repository. -/
def orNoRepository (directory : Text) : Option Deployment → Except Failure Deployment
  | some found => .ok found
  | none => .error (.noDeployRepository directory)

/-- What is left when no script of the project names a repository: the properties, and the user home. -/
theorem firstPresent_properties {request : Request} {settings : Settings} {tree : FileTree}
    {search : Search} (searched : request.search settings tree = .ok search) :
    (do
      if let some key ← unlessAbsent (selectProperty settings search.isSnapshot
          (Table.merge [search.base, search.overriding])) then
        return ⟨key, .properties⟩
      if let some home := request.userHome.filter (!·.isEmpty) then
        if let some key ← unlessAbsent (keyOfInitScripts search home) then
          return ⟨key, .initScripts⟩
      throw (.noDeployRepository request.directory)) =
    firstPresent search (.properties :: request.initSources settings tree) >>=
      orNoRepository request.directory := by
  obtain ⟨usual, same, -, -⟩ := fields_of_search searched
  rw [firstPresent, Source.outcome, unlessAbsent_map, usual]
  cases unlessAbsent (selectProperty settings search.isSnapshot
      (Table.merge [search.base, search.overriding])) with
  | error failure => rfl
  | ok property =>
    cases property with
    | some key => rfl
    | none =>
      cases given : request.userHome.filter (!·.isEmpty) with
      | none =>
        have absent : request.initSources settings tree = [] := by
          simp only [Request.initSources, given]
        rw [absent]
        rfl
      | some home =>
        have initial := firstPresent_initSources request search given
        rw [usual, same] at initial
        rw [initial]
        dsimp only
        cases unlessAbsent (keyOfInitScripts search home) with
        | error failure => rfl
        | ok key =>
          cases key with
          | none => rfl
          | some key => rfl

theorem outcome_decisive? (plan : Plan) (directory : Text) :
    (match plan.decisive? with
      | some source => source.outcome plan.search
      | none => .error (.noDeployRepository directory)) =
      firstPresent plan.search plan.sources >>= orNoRepository directory := by
  rw [firstPresent_eq, Plan.decisive?]
  cases plan.sources.find? fun source => !isAbsent (source.outcome plan.search) with
  | none => rfl
  | some source =>
    dsimp only
    cases source.outcome plan.search with
    | error failure => rfl
    | ok found => rfl

/-- The first source that does not end in an absence decides a deployment. -/
theorem deployment_eq (settings : Settings) (tree : FileTree) (request : Request) :
    deployment settings tree request = (do
      checkDirectory tree request.directory
      let plan ← request.plan settings tree
      match plan.decisive? with
      | some source => source.outcome plan.search
      | none => .error (.noDeployRepository request.directory)) := by
  simp only [deployment, Request.plan, bind_assoc, pure_bind]
  apply bind_congr
  intro _
  cases searched : request.search settings tree with
  | error failure => rfl
  | ok search =>
    change (pure search >>= _) = (pure search >>= _)
    rw [pure_bind, pure_bind]
    apply bind_congr
    intro build
    apply bind_congr
    intro baseName
    apply bind_congr
    intro settingsScript
    rw [outcome_decisive?, firstPresent_append,
      firstPresent_map search .script (fun _ => rfl)]
    cases firstScript? search (build.toList ++ settingsScript.toList) with
    | error failure => rfl
    | ok first =>
      cases first with
      | some found => rfl
      | none => exact firstPresent_properties searched

/-! Failures inside a source. -/

/-- A search comes to a stop if those before it do not end the search. -/
def Search.ComesTo (search : Search) (stops : List Stop) (stop : Stop) : Prop :=
  ∃ passed rest, stops = passed ++ stop :: rest ∧ ∀ other ∈ passed, search.verdict other = .ok none

theorem Search.decision_eq_error_iff {search : Search} {stops : List Stop} {failure : Failure} :
    search.decision stops = .error failure ↔
      ∃ stop, search.ComesTo stops stop ∧ search.verdict stop = .error failure := by
  induction stops with
  | nil =>
    constructor
    · intro decided
      cases decided
    · rintro ⟨stop, ⟨passed, rest, same, -⟩, -⟩
      cases passed <;> cases same
  | cons first stops ih =>
    rw [decision]
    constructor
    · intro decided
      cases met : search.verdict first with
      | error other =>
        simp only [met] at decided
        cases decided
        exact ⟨first, ⟨[], stops, rfl, fun _ member => absurd member List.not_mem_nil⟩, met⟩
      | ok found =>
        cases found with
        | some key =>
          simp only [met] at decided
          cases decided
        | none =>
          simp only [met] at decided
          obtain ⟨stop, ⟨passed, rest, same, passes⟩, ends⟩ := ih.mp decided
          refine ⟨stop, ⟨first :: passed, rest, by rw [same]; rfl, ?_⟩, ends⟩
          intro other member
          rcases List.mem_cons.mp member with rfl | member
          · exact met
          · exact passes other member
    · rintro ⟨stop, ⟨passed, rest, same, passes⟩, ends⟩
      cases passed with
      | nil =>
        cases same
        simp only [ends]
      | cons head passed =>
        cases same
        simp only [passes first List.mem_cons_self]
        apply ih.mpr
        exact ⟨stop, ⟨passed, rest, rfl, fun other member => passes other
          (List.mem_cons_of_mem _ member)⟩, ends⟩

theorem Search.verdict_of_applied {search : Search} {visit : Visit} {pending : List Pending}
    (found : search.inspect visit.inherited visit.script = .ok (.applied pending)) :
    search.verdict (.script visit) = .ok none := by
  simp only [verdict, found]

/-- What the search that starts at the script at a path comes by. -/
def Search.stopsFrom (search : Search) (path : Text) : List Stop :=
  match Script.load? search.tree path with
  | .ok (some script) => search.walk search.followedBelow ∅ script
  | .ok none => []
  | .error failure => [.fault failure]

def Source.stops (search : Search) : Source → List Stop
  | .script path | .initScript path => search.stopsFrom path
  | .properties | .unlisted _ => []

/-- A deployment comes to a stop in the first source that does not end in an absence, or before. -/
def Plan.ComesTo (plan : Plan) (stop : Stop) : Prop :=
  ∃ earlier source later, plan.sources = earlier ++ source :: later ∧
    (∀ other ∈ earlier, isAbsent (other.outcome plan.search) = true) ∧
    plan.search.ComesTo (source.stops plan.search) stop

theorem Search.keyOfFile_of_decision {search : Search} {path : Text} {failure : Failure}
    (decided : search.decision (search.stopsFrom path) = .error failure) :
    search.keyOfFile path = .error failure := by
  unfold stopsFrom at decided
  split at decided
  · rename_i script loaded
    rw [keyOfFile, loaded]
    change search.keyOfScript ∅ script = _
    rw [keyOfScript_eq, decided]
  · cases decided
  · rename_i other loaded
    rw [decision_fault] at decided
    cases decided
    rw [keyOfFile, loaded]
    rfl

/-- A failure to which the search in a source comes is its outcome. -/
theorem Source.outcome_of_comesTo {search : Search} {source : Source} {stop : Stop}
    {failure : Failure} (comes : search.ComesTo (source.stops search) stop)
    (ends : search.verdict stop = .error failure) : source.outcome search = .error failure := by
  have decided : search.decision (source.stops search) = .error failure :=
    Search.decision_eq_error_iff.mpr ⟨stop, comes, ends⟩
  cases source with
  | properties => cases decided
  | unlisted other => cases decided
  | script path | initScript path =>
    rw [outcome, Search.keyOfFile_of_decision decided]
    rfl

theorem Plan.decisive?_eq_some_iff {plan : Plan} {source : Source} :
    plan.decisive? = some source ↔ isAbsent (source.outcome plan.search) = false ∧
      ∃ earlier later, plan.sources = earlier ++ source :: later ∧
        ∀ other ∈ earlier, isAbsent (other.outcome plan.search) = true := by
  rw [decisive?, List.find?_eq_some_iff_append]
  simp

/-- A failure that is no absence is the outcome of the deployment that comes to it. -/
theorem deployment_of_comesTo {settings : Settings} {tree : FileTree} {request : Request} {plan : Plan}
    (valid : checkDirectory tree request.directory = .ok ())
    (planned : request.plan settings tree = .ok plan) {stop : Stop} {failure : Failure}
    (comes : plan.ComesTo stop) (ends : plan.search.verdict stop = .error failure)
    (present : failure.isAbsence = false) :
    deployment settings tree request = .error failure := by
  obtain ⟨earlier, source, later, same, absent, within⟩ := comes
  have outcome : source.outcome plan.search = .error failure :=
    Source.outcome_of_comesTo within ends
  have decisive : plan.decisive? = some source := by
    apply Plan.decisive?_eq_some_iff.mpr
    exact ⟨by rw [outcome]; exact present, earlier, later, same, absent⟩
  rw [deployment_eq, valid, planned]
  change (match plan.decisive? with | some source => _ | none => _) = _
  rw [decisive]
  exact outcome

end GradlePublishing.Repository
