import GradlePublishing.Proofs.Repository.KeyText
import GradlePublishing.Proofs.Repository.Precedence

/-!
Keys that hold a reference. A deployment resolves the URLs of scripts and passes over those that cannot
be resolved, but it takes the values of properties as they are written. So a reference in its key was in
such a value, or it came about when a URL lost its tabs and line breaks (`source_of_unresolved_key`).
-/

namespace GradlePublishing.Repository

open Property (hasReference)

/-- A script that the deployment comes by declares the URL, which is resolved and can be used. -/
def Request.OffersUrl (request : Request) (settings : Settings) (tree : FileTree) (url : Text) : Prop :=
  ∃ search first visit usable, request.Reaches settings tree search first visit ∧
    search.usableUrls visit.inherited visit.script = .ok usable ∧ url ∈ usable

/-- A property that the deployment sees has the value, and it may name a repository. -/
def Request.OffersValue (request : Request) (settings : Settings) (tree : FileTree) (value : Text) :
    Prop :=
  ∃ search rules name, request.search settings tree = .ok search ∧
    nameRules settings search.isSnapshot = .ok rules ∧ rules.admits name = true ∧
    (name, value) ∈ (Table.merge [search.base, search.overriding]).entries

theorem hasReference_of_mem_usableUrls {search : Search} {inherited : Table} {script : Script}
    {usable : List Text} {url : Text} (found : search.usableUrls inherited script = .ok usable)
    (member : url ∈ usable) : hasReference url = false := by
  obtain ⟨written, urls, -, -, rfl⟩ := Search.usableUrls_eq_ok_iff.mp found
  have isUsable := (List.mem_filter.mp member).2
  simp only [Search.isUsable, Bool.and_eq_true, Bool.not_eq_true'] at isUsable
  exact isUsable.1

/-- A reference in the key of a URL was in the URL, or a break parts it there. -/
theorem hasReference_of_keyOfUrl {settings : Settings} {url key : Text}
    (found : keyOfUrl settings (Text.strip url) = .ok key) (unresolved : hasReference key = true) :
    hasReference url = true ∨ PartsDollar url := by
  have inside := (key_isInfix found).trans (Url.withoutBreaks_isInfix (Text.strip_isInfix url))
  exact Property.hasReference_of_withoutBreaks (Property.hasReference_of_infix inside unresolved)

example : keyOfUrl Settings.empty "http://h/artifactory/$\trepo" = .ok "$repo" := rfl

theorem hasReference_of_keyOfValue? {settings : Settings} {value key : Text}
    (found : keyOfValue? settings (Text.strip value) = .ok (some key))
    (unresolved : hasReference key = true) : hasReference value = true ∨ PartsDollar value := by
  unfold keyOfValue? at found
  split at found
  · exact hasReference_of_keyOfUrl (keyOfUrl?_eq_some_iff.mp found) unresolved
  · cases found
    exact .inl (Property.hasReference_of_infix (Text.strip_isInfix value) unresolved)

/-- The text behind a key with a reference: a usable URL in which a break parts a `$` from what follows
it, or the value of a property, which is not resolved. -/
inductive Request.UnresolvedSource (request : Request) (settings : Settings) (tree : FileTree)
    (key : Text) : Prop
  | url {url : Text} (offered : request.OffersUrl settings tree url)
      (taken : keyOfUrl settings (Text.strip url) = .ok key) (parted : PartsDollar url)
  | value {value : Text} (offered : request.OffersValue settings tree value)
      (taken : keyOfValue? settings (Text.strip value) = .ok (some key))
      (held : hasReference value = true ∨ PartsDollar value)

/-- A key with a reference is taken from one of two kinds of text, and from no other. -/
theorem source_of_unresolved_key {request : Request} {settings : Settings} {tree : FileTree}
    {found : Deployment} (deployed : deployment settings tree request = .ok found)
    (unresolved : hasReference found.key = true) :
    request.UnresolvedSource settings tree found.key := by
  rcases deployment_cases deployed with ⟨search, first, visit, reaches, inspected⟩ |
    ⟨search, searched, selected⟩
  · obtain ⟨usual, -, -, -⟩ := fields_of_search reaches.searched
    rcases Search.inspect_cases inspected with ⟨usable, key, held, chosen, same⟩ | ⟨_, _, _, same⟩
    · cases same
      obtain ⟨url, member, ofUrl⟩ := mem_of_selectUrl chosen
      rw [usual] at ofUrl
      have resolved := hasReference_of_mem_usableUrls held member
      exact .url ⟨search, first, visit, usable, reaches, held, member⟩ ofUrl
        ((hasReference_of_keyOfUrl ofUrl unresolved).resolve_left (by simp [resolved]))
    · cases same
  · obtain ⟨rules, ruled, ⟨name, value⟩, listed, admitted, -, ofValue⟩ :=
      mem_of_selectProperty selected
    exact .value ⟨search, rules, name, searched, ruled, admitted, listed⟩ ofValue
      (hasReference_of_keyOfValue? ofValue unresolved)

/-! A property whose value refers to one that does not exist. -/

def unresolvedTree : FileTree :=
  ⟨⟨false, []⟩,
    [(["gradle.properties"],
      .file (Text.toBytes "deployUrl=http://h/artifactory/${repoKey}\n"))]⟩

def unresolvedRequest : Request := { directory := "/", version := "1" }

def unresolvedBase : Table :=
  .ofList [("deployUrl", "http://h/artifactory/${repoKey}"), ("rootDir", "/"),
    ("projectDir", "/")]

theorem search_unresolvedRequest :
    unresolvedRequest.search Settings.packaged unresolvedTree =
      .ok ⟨Settings.packaged, unresolvedTree, unresolvedBase, ∅, false⟩ := by
  have suffix := Settings.text_packaged .snapshotSuffix (by decide)
  have file : Property.load unresolvedTree (Path.join "/" "gradle.properties") =
      .ok (.ofList [("deployUrl", "http://h/artifactory/${repoKey}")]) := by
    with_unfolding_all decide
  have base : Property.base Settings.packaged unresolvedTree "/" none = .ok unresolvedBase :=
    base_of_load file
  have overriding : Property.overriding Settings.packaged [] ∅ = .ok ∅ := by
    rw [overriding_packaged]
    rfl
  refine bind_eq_ok_iff.mpr ⟨false, ?_, bind_eq_ok_iff.mpr ⟨_, base, ?_⟩⟩
  · rw [isSnapshotVersion, suffix]
    rfl
  · exact bind_eq_ok_iff.mpr ⟨_, overriding, rfl⟩

theorem selectProperty_unresolvedBase :
    selectProperty Settings.packaged false (Table.merge [unresolvedBase, ∅]) =
      .ok "${repoKey}" := by
  have keywords := Settings.list_packaged .propertyNameKeywords (by decide)
  have snapshot := Settings.text_packaged .snapshotKeyword (by decide)
  have release := Settings.text_packaged .releaseKeyword (by decide)
  have deploy := Settings.text_packaged .deployKeyword (by decide)
  have marker := Settings.text_packaged .urlMarker (by decide)
  have candidates : candidate? Settings.packaged = candidate? Settings.empty := by
    have usual : Settings.empty.text .urlMarker = .ok Settings.Setting.urlMarker.fallback := rfl
    funext rules entry
    simp only [candidate?, keyOfValue?, keyOfUrl?, keyOfUrl, marker, usual]
  have sorted : ((Table.merge [unresolvedBase, ∅]).entries.mergeSort fun a b =>
      Text.le a.1 b.1) =
        [("deployUrl".toList, "http://h/artifactory/${repoKey}".toList),
          ("projectDir".toList, "/".toList), ("rootDir".toList, "/".toList)] := by
    have entries : (Table.merge [unresolvedBase, ∅]).entries =
        [("deployUrl".toList, "http://h/artifactory/${repoKey}".toList),
          ("rootDir".toList, "/".toList), ("projectDir".toList, "/".toList)] := by
      decide
    rw [entries]
    simp [List.mergeSort, List.MergeSort.Internal.splitInTwo, Text.le]
  simp only [selectProperty, nameRules, sorted, candidates, select, classify, kindKeyword, keywords,
    snapshot, release, deploy, Bool.false_eq_true, if_false]
  rfl

theorem deployment_unresolvedRequest :
    deployment Settings.packaged unresolvedTree unresolvedRequest =
      .ok ⟨"${repoKey}", .properties⟩ := by
  have baseName := Settings.text_packaged .buildScript (by decide)
  have settingsName := Settings.text_packaged .settingsScript (by decide)
  have build : buildScript? Settings.packaged unresolvedTree unresolvedRequest = .ok none := by
    rw [buildScript?, baseName]
    simp only [Script.find?_packaged]
    rfl
  have beside : Script.find? Settings.packaged unresolvedTree "/"
      Settings.Setting.settingsScript.fallback = .ok none := by
    rw [Script.find?_packaged]
    rfl
  refine bind_eq_ok_iff.mpr ⟨(), rfl, ?_⟩
  refine bind_eq_ok_iff.mpr ⟨_, search_unresolvedRequest, ?_⟩
  refine bind_eq_ok_iff.mpr ⟨_, build, ?_⟩
  refine bind_eq_ok_iff.mpr ⟨_, settingsName, ?_⟩
  refine bind_eq_ok_iff.mpr ⟨_, beside, ?_⟩
  refine bind_eq_ok_iff.mpr ⟨none, rfl, ?_⟩
  exact bind_eq_ok_iff.mpr ⟨_, unlessAbsent_eq_some_iff.mpr selectProperty_unresolvedBase, rfl⟩

theorem source_of_unresolvedRequest :
    deployment Settings.packaged unresolvedTree unresolvedRequest =
        .ok ⟨"${repoKey}", .properties⟩ ∧
      hasReference "${repoKey}" = true ∧
      unresolvedRequest.UnresolvedSource Settings.packaged unresolvedTree "${repoKey}" := by
  have unresolved : hasReference "${repoKey}" = true := by decide
  exact ⟨deployment_unresolvedRequest, unresolved,
    source_of_unresolved_key deployment_unresolvedRequest unresolved⟩

/-- Keys with a reference do leave the search. -/
theorem not_forall_key_resolved : ¬ ∀ (request : Request) (tree : FileTree) (found : Deployment),
    deployment Settings.packaged tree request = .ok found → hasReference found.key = false := by
  intro resolved
  have absent := resolved _ _ _ deployment_unresolvedRequest
  have unresolved : hasReference "${repoKey}" = true := by decide
  rw [unresolved] at absent
  cases absent

end GradlePublishing.Repository
