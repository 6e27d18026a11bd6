import GradlePublishing.Proofs.Repository.Inspection
import GradlePublishing.Proofs.Repository.Walk
import GradlePublishing.Repository.Deployment

/-!
The scripts that a deployment comes by. Its walks start at the scripts of the project and at those of
the user home, and a key that it finds in a script stands in one of those that it comes by
(`deployment_cases`).
-/

namespace GradlePublishing.Repository

/-- The extra properties that come down a chain of scripts, the last one first. -/
def inheritedOf : List Script → Table
  | [] => ∅
  | script :: chain => Search.extraOf (inheritedOf chain) script

/-- Scripts from the last one back to the first. Each was applied by the next in the list, and the
search went on from there. -/
inductive Chain (search : Search) (first : Script) : List Script → Prop
  | start : Chain search first [first]
  | next {script applied : Script} {chain : List Script} {pending : List Pending} {next : Pending}
      (led : Chain search first (script :: chain))
      (inspected : search.inspect (inheritedOf chain) script = .ok (.applied pending))
      (member : next ∈ pending)
      (loaded : Script.load? search.tree next.path = .ok (some applied)) :
      Chain search first (applied :: script :: chain)

theorem chain_of_mem_walk {search : Search} {first : Script} {visit : Visit}
    (member : .script visit ∈ search.walk search.followedBelow ∅ first) :
    visit.inherited = inheritedOf visit.appliers ∧
      Chain search first (visit.script :: visit.appliers) := by
  refine Search.walk_induction (motive := fun visit => visit.inherited = inheritedOf visit.appliers ∧
    Chain search first (visit.script :: visit.appliers)) ⟨rfl, .start⟩ ?_ member
  intro visit lead applied _ reached below _ loaded
  unfold Search.followedBelow at below
  split at below
  · rename_i pending inspected
    obtain ⟨next, inside, rfl⟩ := List.mem_map.mp below
    have inherited := Search.inherited_of_appliedBy (Search.appliedBy_of_inspect inspected) inside
    rw [reached.1] at inherited inspected
    exact ⟨inherited, .next reached.2 inspected inside loaded⟩
  · cases below

/-- The scripts that a deployment can start from: the build script, the settings script, and the init
scripts of the user home. -/
inductive Request.IsSource (request : Request) (settings : Settings) (tree : FileTree) : Text → Prop
  | build {path : Text} (found : buildScript? settings tree request = .ok (some path)) :
      request.IsSource settings tree path
  | settings {path baseName : Text} (named : settings.text .settingsScript = .ok baseName)
      (found : Script.find? settings tree request.directory baseName = .ok (some path)) :
      request.IsSource settings tree path
  | init {path home : Text} {paths : List Text}
      (given : request.userHome.filter (!·.isEmpty) = some home)
      (listed : initScripts settings tree home = .ok paths) (member : path ∈ paths) :
      request.IsSource settings tree path

/-- A deployment comes by a script on the walk from one of its sources. -/
structure Request.Reaches (request : Request) (settings : Settings) (tree : FileTree)
    (search : Search) (first : Script) (visit : Visit) : Prop where
  directory : checkDirectory tree request.directory = .ok ()
  searched : request.search settings tree = .ok search
  source : ∃ path, request.IsSource settings tree path ∧
    Script.load? tree path = .ok (some first)
  walked : .script visit ∈ search.walk search.followedBelow ∅ first

theorem fields_of_search {request : Request} {settings : Settings} {tree : FileTree}
    {search : Search} (searched : request.search settings tree = .ok search) :
    search.settings = settings ∧ search.tree = tree ∧
      Property.base settings tree request.directory request.userHome = .ok search.base ∧
      Property.overriding settings request.arguments request.environment =
        .ok search.overriding := by
  obtain ⟨isSnapshot, -, found⟩ := bind_eq_ok_iff.mp searched
  obtain ⟨base, below, found⟩ := bind_eq_ok_iff.mp found
  obtain ⟨overriding, above, found⟩ := bind_eq_ok_iff.mp found
  cases found
  exact ⟨rfl, rfl, below, above⟩

/-! Where a key comes from. -/

theorem Search.exists_visit_of_decision {search : Search} {stops : List Stop} {key : Text}
    (decided : search.decision stops = .ok (some key)) :
    ∃ visit, .script visit ∈ stops ∧
      search.inspect visit.inherited visit.script = .ok (.key key) := by
  induction stops with
  | nil => cases decided
  | cons stop stops ih =>
    have later : search.decision stops = .ok (some key) → ∃ visit, .script visit ∈ stop :: stops ∧
        search.inspect visit.inherited visit.script = .ok (.key key) := by
      intro decided
      obtain ⟨visit, member, found⟩ := ih decided
      exact ⟨visit, List.mem_cons_of_mem _ member, found⟩
    cases stop with
    | fault failure =>
      rw [decision_fault] at decided
      cases decided
    | script visit =>
      rw [decision_script] at decided
      cases inspected : search.inspect visit.inherited visit.script with
      | error failure =>
        simp only [inspected] at decided
        split at decided
        · exact later decided
        · cases decided
      | ok finding =>
        cases finding with
        | key found =>
          simp only [inspected] at decided
          cases decided
          exact ⟨visit, List.mem_cons_self, inspected⟩
        | applied pending =>
          simp only [inspected] at decided
          exact later decided

theorem unlessAbsent_eq_some_iff {result : Except Failure α} {value : α} :
    unlessAbsent result = .ok (some value) ↔ result = .ok value := by
  unfold unlessAbsent
  cases result with
  | ok other => simp
  | error failure => by_cases absent : failure.isAbsence = true <;> simp [absent]

theorem mem_of_firstScript? {search : Search} {paths : List Text} {path key : Text}
    (found : firstScript? search paths = .ok (some (path, key))) :
    path ∈ paths ∧ ∃ script, Script.load? search.tree path = .ok (some script) ∧
      search.keyOfScript ∅ script = .ok key := by
  induction paths with
  | nil => cases found
  | cons next more ih =>
    have later : firstScript? search more = .ok (some (path, key)) → path ∈ next :: more ∧
        ∃ script, Script.load? search.tree path = .ok (some script) ∧
          search.keyOfScript ∅ script = .ok key := by
      intro found
      exact ⟨List.mem_cons_of_mem _ (ih found).1, (ih found).2⟩
    rw [firstScript?] at found
    obtain ⟨loaded, read, found⟩ := bind_eq_ok_iff.mp found
    cases loaded with
    | none => exact later found
    | some script =>
      obtain ⟨yielded, searched, found⟩ := bind_eq_ok_iff.mp found
      cases yielded with
      | none => exact later found
      | some other =>
        cases found
        exact ⟨List.mem_cons_self, script, read, unlessAbsent_eq_some_iff.mp searched⟩

/-- The key of the init scripts is that of the first one among them that yields a key. -/
theorem exists_of_keyOfInitScripts {search : Search} {userHome key : Text}
    (found : keyOfInitScripts search userHome = .ok key) :
    ∃ paths path, initScripts search.settings search.tree userHome = .ok paths ∧
      firstScript? search paths = .ok (some (path, key)) := by
  obtain ⟨paths, listed, found⟩ := bind_eq_ok_iff.mp found
  obtain ⟨first, tried, found⟩ := bind_eq_ok_iff.mp found
  cases first with
  | none => cases found
  | some result =>
    cases found
    exact ⟨paths, result.1, listed, tried⟩

theorem exists_reaches_of_firstScript? {request : Request} {settings : Settings} {tree : FileTree}
    {search : Search} {paths : List Text} {path key : Text}
    (directory : checkDirectory tree request.directory = .ok ())
    (searched : request.search settings tree = .ok search)
    (sources : ∀ path ∈ paths, request.IsSource settings tree path)
    (found : firstScript? search paths = .ok (some (path, key))) :
    ∃ first visit, request.Reaches settings tree search first visit ∧
      search.inspect visit.inherited visit.script = .ok (.key key) := by
  obtain ⟨member, first, loaded, yielded⟩ := mem_of_firstScript? found
  obtain ⟨visit, walked, inspected⟩ :=
    Search.exists_visit_of_decision (Search.keyOfScript_eq_ok_iff.mp yielded)
  obtain ⟨-, same, -, -⟩ := fields_of_search searched
  rw [same] at loaded
  exact ⟨first, visit, ⟨directory, searched, ⟨path, sources path member, loaded⟩, walked⟩, inspected⟩

/-- The key of a deployment stands in a script that it comes by, or in a property. -/
theorem deployment_cases {request : Request} {settings : Settings} {tree : FileTree}
    {found : Deployment} (deployed : deployment settings tree request = .ok found) :
    (∃ search first visit, request.Reaches settings tree search first visit ∧
      search.inspect visit.inherited visit.script = .ok (.key found.key)) ∨
    (∃ search, request.search settings tree = .ok search ∧
      selectProperty settings search.isSnapshot (Table.merge [search.base, search.overriding]) =
        .ok found.key) := by
  obtain ⟨_, directory, deployed⟩ := bind_eq_ok_iff.mp deployed
  obtain ⟨search, searched, deployed⟩ := bind_eq_ok_iff.mp deployed
  obtain ⟨build, asked, deployed⟩ := bind_eq_ok_iff.mp deployed
  obtain ⟨baseName, named, deployed⟩ := bind_eq_ok_iff.mp deployed
  obtain ⟨settingsScript, beside, deployed⟩ := bind_eq_ok_iff.mp deployed
  dsimp only at deployed
  obtain ⟨first, tried, deployed⟩ := bind_eq_ok_iff.mp deployed
  have sources : ∀ path ∈ build.toList ++ settingsScript.toList,
      request.IsSource settings tree path := by
    intro path member
    rcases List.mem_append.mp member with ofBuild | ofSettings
    · rw [Option.mem_toList] at ofBuild
      exact .build (ofBuild ▸ asked)
    · rw [Option.mem_toList] at ofSettings
      exact .settings named (ofSettings ▸ beside)
  cases first with
  | some result =>
    cases deployed
    left
    exact ⟨search, exists_reaches_of_firstScript? directory searched sources tried⟩
  | none =>
    obtain ⟨property, selected, deployed⟩ := bind_eq_ok_iff.mp deployed
    cases property with
    | some key =>
      cases deployed
      right
      exact ⟨search, searched, unlessAbsent_eq_some_iff.mp selected⟩
    | none =>
      dsimp only at deployed
      split at deployed
      · rename_i home given
        obtain ⟨last, initial, deployed⟩ := bind_eq_ok_iff.mp deployed
        cases last with
        | some key =>
          cases deployed
          left
          obtain ⟨paths, path, listed, tried⟩ :=
            exists_of_keyOfInitScripts (unlessAbsent_eq_some_iff.mp initial)
          obtain ⟨usual, same, -, -⟩ := fields_of_search searched
          rw [usual, same] at listed
          have initial : ∀ path ∈ paths, request.IsSource settings tree path :=
            fun path member => .init given listed member
          exact ⟨search, exists_reaches_of_firstScript? directory searched initial tried⟩
        | none => cases deployed
      · cases deployed

end GradlePublishing.Repository
