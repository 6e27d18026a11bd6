import GradlePublishing.Command.Invocation
import GradlePublishing.Proofs.Coordinates.Gathered
import GradlePublishing.Proofs.Repository.Reach
import GradlePublishing.Proofs.Settings.Usual

/-!
Settings matter only through the known options. Where two settings give these the same values, every question
has the same answer (`answer_of_readAlike`), and the packaged file gives every known option the value that it
has without any settings (`answer_empty`).
-/

namespace GradlePublishing

namespace Settings

structure ReadAlike (first second : Settings) : Prop where
  text : ∀ setting ∈ knownTexts, first.text setting = second.text setting
  list : ∀ setting ∈ knownLists, first.list setting = second.list setting

theorem value?_empty (heading option : Text) : empty.value? heading option = .ok none := by
  have written : empty.written? heading option = none := by
    unfold written? own?
    split
    · rename_i found
      cases found
    · split <;> rfl
  rw [value?, written]
  rfl

theorem readAlike_empty : empty.ReadAlike packaged where
  text setting known := by
    rw [text_packaged setting known, text, value?_empty]
    rfl
  list setting known := by
    rw [list_packaged setting known, list, listOr, value?_empty]
    rfl

end Settings

open Settings (ReadAlike)

section

variable {first second : Settings} (alike : first.ReadAlike second)

include alike

theorem maxPropertyDepth_alike : first.maxPropertyDepth = second.maxPropertyDepth := by
  rw [Settings.maxPropertyDepth, Settings.maxPropertyDepth, alike.text .maxPropertyDepth (by decide)]

theorem resolve_alike : Property.resolve first = Property.resolve second := by
  funext table value
  rw [Property.resolve, Property.resolve, maxPropertyDepth_alike alike]

theorem ofEnvironment_alike : Property.ofEnvironment first = Property.ofEnvironment second := by
  funext environment
  rw [Property.ofEnvironment, Property.ofEnvironment, alike.text .projectPropertyPrefix (by decide)]

theorem userHome_alike : Property.userHome first = Property.userHome second := by
  funext home environment
  rw [Property.userHome, Property.userHome, alike.text .userHomeVariable (by decide),
    alike.text .userHomeDirectory (by decide)]

theorem base_alike : Property.base first = Property.base second := by
  funext tree directory userHome
  rw [Property.base, Property.base, alike.text .propertiesFile (by decide)]

theorem overriding_alike : Property.overriding first = Property.overriding second := by
  funext arguments environment
  rw [Property.overriding, Property.overriding, ofEnvironment_alike alike,
    alike.list .jvmOptionsVariables (by decide)]

theorem extensions_alike : Script.extensions first = Script.extensions second := by
  rw [Script.extensions, Script.extensions, alike.text .groovyExtension (by decide),
    alike.text .kotlinExtension (by decide)]

theorem find?_alike : Script.find? first = Script.find? second := by
  funext tree directory baseName
  rw [Script.find?, Script.find?, extensions_alike alike]

theorem appliedPaths_alike : Script.appliedPaths first = Script.appliedPaths second := by
  funext dialect content table path
  rw [Script.appliedPaths, Script.appliedPaths, resolve_alike alike]

/-! Repositories. -/

namespace Repository

theorem families_alike : families first = families second := by
  rw [families, families, alike.list .repositoryBlocks (by decide)]

theorem declaredUrls_alike : declaredUrls first = declaredUrls second := by
  funext dialect content
  rw [declaredUrls, declaredUrls, families_alike alike]

theorem keyOfUrl_alike : keyOfUrl first = keyOfUrl second := by
  funext url
  rw [keyOfUrl, keyOfUrl, alike.text .urlMarker (by decide)]

theorem keyOfUrl?_alike : keyOfUrl? first = keyOfUrl? second := by
  funext url
  rw [keyOfUrl?, keyOfUrl?, keyOfUrl_alike alike]

theorem classify_alike : classify first = classify second := by
  funext isSnapshot candidate
  have kind : kindKeyword first isSnapshot = kindKeyword second isSnapshot := by
    cases isSnapshot with
    | true => exact alike.text .snapshotKeyword (by decide)
    | false => exact alike.text .releaseKeyword (by decide)
  rw [classify, classify, kind, alike.text .deployKeyword (by decide)]

theorem select_alike : select first = select second := by
  funext isSnapshot source candidates
  rw [select, select, classify_alike alike]

theorem selectUrl_alike : selectUrl first = selectUrl second := by
  funext isSnapshot source urls
  rw [selectUrl, selectUrl, keyOfUrl?_alike alike, select_alike alike]

theorem selectProperty_alike : selectProperty first = selectProperty second := by
  have rules : nameRules first = nameRules second := by
    funext isSnapshot
    rw [nameRules, nameRules, alike.list .propertyNameKeywords (by decide),
      alike.text .snapshotKeyword (by decide), alike.text .releaseKeyword (by decide)]
  have candidates : candidate? first = candidate? second := by
    funext rules entry
    have value : keyOfValue? first = keyOfValue? second := by
      funext value
      rw [keyOfValue?, keyOfValue?, keyOfUrl?_alike alike]
    rw [candidate?, candidate?, value]
  funext isSnapshot table
  rw [selectProperty, selectProperty, rules, candidates, select_alike alike]

theorem isSnapshotVersion_alike : isSnapshotVersion first = isSnapshotVersion second := by
  funext version
  rw [isSnapshotVersion, isSnapshotVersion, alike.text .snapshotSuffix (by decide)]

theorem initScripts_alike : initScripts first = initScripts second := by
  funext tree userHome
  rw [initScripts, initScripts, alike.list .initScripts (by decide),
    alike.text .initDirectory (by decide), extensions_alike alike]

theorem buildScript?_alike : buildScript? first = buildScript? second := by
  funext tree request
  rw [buildScript?, buildScript?, alike.text .buildScript (by decide), find?_alike alike]

end Repository

end

/-! A search under other settings. -/

namespace Repository

namespace Search

def under (search : Search) (settings : Settings) : Search := { search with settings := settings }

variable {search : Search} {settings : Settings} (alike : search.settings.ReadAlike settings)

include alike

theorem inspect_under : (search.under settings).inspect = search.inspect := by
  have table : (search.under settings).tableOf = search.tableOf := rfl
  have applied : (search.under settings).appliedBy = search.appliedBy := by
    funext inherited script
    rw [appliedBy, appliedBy, appliedPaths_alike alike, table]
    rfl
  funext inherited script
  rw [inspect, inspect, declaredUrls_alike alike, resolve_alike alike, selectUrl_alike alike, table, applied]
  rfl

theorem follow_under (visited : List AbsolutePath) (pending : List Pending) :
    (search.under settings).follow visited pending = search.follow visited pending := by
  have inspected := inspect_under alike
  have step := @follow_script (search.under settings)
  fun_induction follow search visited pending with
  | case1 visited => rw [follow]
  | case2 visited next rest path known ih =>
    rw [← ih]
    exact follow_known rest known
  | case3 visited next rest path fresh failure loaded =>
    exact @follow_fault (search.under settings) visited next rest fresh failure loaded
  | case4 visited next rest path fresh loaded ih =>
    rw [← ih]
    exact follow_missing rest fresh loaded
  | case5 visited next rest path fresh script loaded failure found absent ih =>
    rw [step rest fresh loaded, inspected, found, ← ih]
    exact if_pos absent
  | case6 visited next rest path fresh script loaded failure found absent =>
    rw [step rest fresh loaded, inspected, found]
    exact if_neg absent
  | case7 visited next rest path fresh script loaded key found =>
    rw [step rest fresh loaded, inspected, found]
    rfl
  | case8 visited next rest path fresh script loaded pending found ih =>
    rw [step rest fresh loaded, inspected, found, ← ih]
    rfl

theorem keyOfScript_under : (search.under settings).keyOfScript = search.keyOfScript := by
  funext inherited script
  have ran : (search.under settings).run inherited script = search.run inherited script := by
    simp only [run, inspect_under alike, follow_under alike]
    rfl
  rw [keyOfScript, keyOfScript, ran]

end Search

section

variable {search : Search} {settings : Settings} (alike : search.settings.ReadAlike settings)

include alike

theorem firstScript?_under (paths : List Text) :
    firstScript? (search.under settings) paths = firstScript? search paths := by
  induction paths with
  | nil => rfl
  | cons path paths ih =>
    rw [firstScript?, firstScript?, ih, Search.keyOfScript_under alike]
    rfl

theorem keyOfInitScripts_under (userHome : Text) :
    keyOfInitScripts (search.under settings) userHome = keyOfInitScripts search userHome := by
  have listed : initScripts (search.under settings).settings = initScripts search.settings :=
    (initScripts_alike alike).symm
  rw [keyOfInitScripts, keyOfInitScripts, listed]
  simp only [firstScript?_under alike]
  rfl

end

section

variable {first second : Settings} (alike : first.ReadAlike second)

include alike

theorem search_alike (request : Request) (tree : FileTree) :
    request.search second tree = (request.search first tree).map (·.under second) := by
  rw [Request.search, Request.search, isSnapshotVersion_alike alike, base_alike alike,
    overriding_alike alike]
  cases isSnapshotVersion second request.version with
  | error failure => rfl
  | ok isSnapshot =>
    cases Property.base second tree request.directory request.userHome with
    | error failure => rfl
    | ok base => cases Property.overriding second request.arguments request.environment <;> rfl

theorem deployment_alike : deployment first = deployment second := by
  funext tree request
  rw [deployment, deployment, search_alike alike, buildScript?_alike alike, find?_alike alike,
    alike.text .settingsScript (by decide), selectProperty_alike alike]
  apply bind_congr
  intro _
  cases searched : request.search first tree with
  | error failure => rfl
  | ok search =>
    obtain ⟨rfl, -, -, -⟩ := fields_of_search searched
    change (pure search >>= _) = (pure (search.under second) >>= _)
    rw [pure_bind, pure_bind]
    simp only [firstScript?_under alike, keyOfInitScripts_under alike]
    rfl

end

end Repository

/-! The coordinates of a project under other settings. -/

namespace Coordinates

def Gathering.under (gathering : Gathering) (settings : Settings) : Gathering :=
  { gathering with settings := settings }

section

variable {gathering : Gathering} {settings : Settings} (alike : gathering.settings.ReadAlike settings)

include alike

theorem gather_under (visited : List AbsolutePath) (paths : List Text) (queue : List Script) :
    (gathering.under settings).gather visited paths queue = gathering.gather visited paths queue := by
  fun_induction Gathering.gather gathering visited paths queue with
  | case1 visited => rw [Gathering.gather]
  | case2 visited script queue ih =>
    rw [Gathering.gather_head, appliedPaths_alike alike]
    simp only [ih]
    rfl
  | case3 visited path paths queue absolute known ih =>
    rw [← ih]
    exact @Gathering.gather_known (gathering.under settings) _ _ _ _ known
  | case4 visited path paths queue absolute fresh failure loaded =>
    exact @Gathering.gather_fault (gathering.under settings) _ _ _ _ fresh _ loaded
  | case5 visited path paths queue absolute fresh loaded ih =>
    rw [← ih]
    exact @Gathering.gather_missing (gathering.under settings) _ _ _ _ fresh loaded
  | case6 visited path paths queue absolute fresh script loaded ih =>
    rw [← ih]
    exact @Gathering.gather_script (gathering.under settings) _ _ _ _ fresh _ loaded

end

section

variable {first second : Settings} (alike : first.ReadAlike second)

include alike

theorem scriptsOf_alike : scriptsOf first = scriptsOf second := by
  funext tree table build
  exact (@gather_under ⟨first, tree, table⟩ second alike _ _ _).symm

theorem resolved?_alike : resolved? first = resolved? second := by
  funext table value
  cases value with
  | none => rfl
  | some value => rw [resolved?, resolved?, resolve_alike alike]

theorem buildScript_alike : buildScript first = buildScript second := by
  funext tree directory
  rw [buildScript, buildScript, alike.text .buildScript (by decide), find?_alike alike]

theorem rootName_alike : rootName first = rootName second := by
  funext tree table directory
  rw [rootName, rootName, alike.text .settingsScript (by decide), find?_alike alike, resolve_alike alike]

theorem ofProject_alike : ofProject first = ofProject second := by
  funext tree directory overriding
  rw [ofProject, ofProject, buildScript_alike alike, base_alike alike, scriptsOf_alike alike,
    resolved?_alike alike, rootName_alike alike]

end

end Coordinates

/-! Gradle commands under other settings. -/

namespace Command

variable {first second : Settings} (alike : first.ReadAlike second)

include alike

theorem buildFile_alike : buildFile first = buildFile second := by
  funext arguments
  induction arguments with
  | nil => rfl
  | cons argument rest ih =>
    rw [buildFile, buildFile, ih, alike.text .buildScript (by decide),
      alike.text .groovyExtension (by decide)]

theorem isPublishing_alike : isPublishing first = isPublishing second := by
  funext tasks
  rw [isPublishing, isPublishing, alike.text .publishTask (by decide),
    alike.text .publishTaskStart (by decide), alike.text .localTaskEnd (by decide)]

theorem ofArguments_alike : Invocation.ofArguments first = Invocation.ofArguments second := by
  funext arguments
  rw [Invocation.ofArguments, Invocation.ofArguments, buildFile_alike alike]

end Command

/-! All that is asked of the settings. -/

/-- The questions that settings have a part in, by the type of the answer. What is left out, such as the
blocks of a script, the properties in it and its coordinates, takes no settings. -/
inductive Question : Type → Type
  | projectProperties (environment : Table) : Question Table
  | userHome (home : Text) (environment : Table) : Question Text
  | baseProperties (tree : FileTree) (directory : Text) (home : Option Text) : Question Table
  | overridingProperties (arguments : List Text) (environment : Table) : Question Table
  | resolved (table : Table) (value : Text) : Question Text
  | scriptPath (tree : FileTree) (directory baseName : Text) : Question (Option Text)
  | appliedPaths (dialect : Dialect) (content : Text) (table : Table) (path : Text) :
      Question (List Text)
  | blockFamilies : Question (List Repository.Family)
  | declaredUrls (dialect : Dialect) (content : Text) : Question (List Text)
  | keyOfUrl (url : Text) : Question Text
  | selection (isSnapshot : Bool) (candidate : Repository.Candidate) : Question Repository.Selection
  | selectedKey (isSnapshot : Bool) (source : Text) (candidates : List Repository.Candidate) :
      Question Text
  | keyOfUrls (isSnapshot : Bool) (source : Text) (urls : List Text) : Question Text
  | keyOfProperties (isSnapshot : Bool) (table : Table) : Question Text
  | isSnapshotVersion (version : Text) : Question Bool
  | keyOfScript (tree : FileTree) (base overriding : Table) (isSnapshot : Bool) (inherited : Table)
      (script : Script) : Question Text
  | initScripts (tree : FileTree) (home : Text) : Question (List Text)
  | keyOfInitScripts (tree : FileTree) (base overriding : Table) (isSnapshot : Bool) (home : Text) :
      Question Text
  | deployment (tree : FileTree) (request : Repository.Request) : Question Repository.Deployment
  | projectScripts (tree : FileTree) (table : Table) (build : Script) : Question (List Script)
  | coordinates (tree : FileTree) (directory : Text) (overriding : Table) : Question Coordinates
  | isPublishing (tasks : List Text) : Question Bool
  | buildFile (arguments : List Text) : Question Text
  | invocation (arguments : List Text) : Question Command.Invocation

namespace Question

/-- The answer to a question under some settings, or why there is none. -/
def answer (settings : Settings) : Question α → Except Failure α
  | projectProperties environment => Property.ofEnvironment settings environment
  | userHome home environment => Property.userHome settings home environment
  | baseProperties tree directory home => Property.base settings tree directory home
  | overridingProperties arguments environment => Property.overriding settings arguments environment
  | resolved table value => Property.resolve settings table value
  | scriptPath tree directory baseName => Script.find? settings tree directory baseName
  | appliedPaths dialect content table path => Script.appliedPaths settings dialect content table path
  | blockFamilies => Repository.families settings
  | declaredUrls dialect content => Repository.declaredUrls settings dialect content
  | keyOfUrl url => Repository.keyOfUrl settings url
  | selection isSnapshot candidate => Repository.classify settings isSnapshot candidate
  | selectedKey isSnapshot source candidates => Repository.select settings isSnapshot source candidates
  | keyOfUrls isSnapshot source urls => Repository.selectUrl settings isSnapshot source urls
  | keyOfProperties isSnapshot table => Repository.selectProperty settings isSnapshot table
  | isSnapshotVersion version => Repository.isSnapshotVersion settings version
  | keyOfScript tree base overriding isSnapshot inherited script =>
    Repository.Search.keyOfScript ⟨settings, tree, base, overriding, isSnapshot⟩ inherited script
  | initScripts tree home => Repository.initScripts settings tree home
  | keyOfInitScripts tree base overriding isSnapshot home =>
    Repository.keyOfInitScripts ⟨settings, tree, base, overriding, isSnapshot⟩ home
  | deployment tree request => Repository.deployment settings tree request
  | projectScripts tree table build => Coordinates.scriptsOf settings tree table build
  | coordinates tree directory overriding => Coordinates.ofProject settings tree directory overriding
  | isPublishing tasks => Command.isPublishing settings tasks
  | buildFile arguments => Command.buildFile settings arguments
  | invocation arguments => Command.Invocation.ofArguments settings arguments

/-- Settings in which the known options have the same values answer every question alike. -/
theorem answer_of_readAlike {first second : Settings} (alike : first.ReadAlike second)
    (question : Question α) : question.answer first = question.answer second := by
  cases question with
  | projectProperties environment => exact congrFun (ofEnvironment_alike alike) environment
  | userHome home environment => exact congrFun₂ (userHome_alike alike) home environment
  | baseProperties tree directory home =>
    exact congrFun₃ (base_alike alike) tree directory home
  | overridingProperties arguments environment =>
    exact congrFun₂ (overriding_alike alike) arguments environment
  | resolved table value => exact congrFun₂ (resolve_alike alike) table value
  | scriptPath tree directory baseName => exact congrFun₃ (find?_alike alike) tree directory baseName
  | appliedPaths dialect content table path =>
    exact congrFun (congrFun₃ (appliedPaths_alike alike) dialect content table) path
  | blockFamilies => exact Repository.families_alike alike
  | declaredUrls dialect content =>
    exact congrFun₂ (Repository.declaredUrls_alike alike) dialect content
  | keyOfUrl url => exact congrFun (Repository.keyOfUrl_alike alike) url
  | selection isSnapshot candidate =>
    exact congrFun₂ (Repository.classify_alike alike) isSnapshot candidate
  | selectedKey isSnapshot source candidates =>
    exact congrFun₃ (Repository.select_alike alike) isSnapshot source candidates
  | keyOfUrls isSnapshot source urls =>
    exact congrFun₃ (Repository.selectUrl_alike alike) isSnapshot source urls
  | keyOfProperties isSnapshot table =>
    exact congrFun₂ (Repository.selectProperty_alike alike) isSnapshot table
  | isSnapshotVersion version => exact congrFun (Repository.isSnapshotVersion_alike alike) version
  | keyOfScript tree base overriding isSnapshot inherited script =>
    let search : Repository.Search := ⟨first, tree, base, overriding, isSnapshot⟩
    have same : (search.under second).keyOfScript = search.keyOfScript :=
      Repository.Search.keyOfScript_under alike
    exact congrFun₂ same.symm inherited script
  | initScripts tree home => exact congrFun₂ (Repository.initScripts_alike alike) tree home
  | keyOfInitScripts tree base overriding isSnapshot home =>
    let search : Repository.Search := ⟨first, tree, base, overriding, isSnapshot⟩
    have same : Repository.keyOfInitScripts (search.under second) home =
        Repository.keyOfInitScripts search home :=
      Repository.keyOfInitScripts_under alike home
    exact same.symm
  | deployment tree request => exact congrFun₂ (Repository.deployment_alike alike) tree request
  | projectScripts tree table build =>
    exact congrFun₃ (Coordinates.scriptsOf_alike alike) tree table build
  | coordinates tree directory overriding =>
    exact congrFun₃ (Coordinates.ofProject_alike alike) tree directory overriding
  | isPublishing tasks => exact congrFun (Command.isPublishing_alike alike) tasks
  | buildFile arguments => exact congrFun (Command.buildFile_alike alike) arguments
  | invocation arguments => exact congrFun (Command.ofArguments_alike alike) arguments

/-- Without any settings every question has the answer that it has with the packaged file. -/
theorem answer_empty (question : Question α) : question.answer .empty = question.answer .packaged :=
  answer_of_readAlike Settings.readAlike_empty question

end Question

end GradlePublishing
