import GradlePublishing.Proofs.Repository.Unresolved

/-!
What a repository key looks like. A key that any of the searches yields is a single segment of a path: it
is not empty and holds no slash (`key_isSegment`).
-/

namespace GradlePublishing

namespace Repository

/-- A text that can stand between two slashes of a path. -/
def IsSegment (key : Text) : Prop := key ≠ [] ∧ '/' ∉ key

theorem isSegment_of_mem_segments {path segment : Text} (member : segment ∈ Url.segments path) :
    IsSegment segment := by
  obtain ⟨piece, filled⟩ := List.mem_filter.mp member
  constructor
  · rintro rfl
    cases filled
  · exact Text.not_mem_of_mem_splitOn piece

theorem isSegment_of_keyOfUrl {settings : Settings} {url key : Text}
    (found : keyOfUrl settings url = .ok key) : IsSegment key := by
  obtain ⟨path, -, found⟩ := bind_eq_ok_iff.mp found
  obtain ⟨marker, -, found⟩ := bind_eq_ok_iff.mp found
  exact isSegment_of_mem_segments (mem_segments_of_keyInPath found)

theorem isSegment_of_keyOfValue? {settings : Settings} {value key : Text}
    (admitted : admitsValue value = true) (found : keyOfValue? settings value = .ok (some key)) :
    IsSegment key := by
  unfold keyOfValue? at found
  split at found
  · exact isSegment_of_keyOfUrl (keyOfUrl?_eq_some_iff.mp found)
  · rename_i bare
    cases found
    rw [Bool.or_eq_true, not_or] at bare
    constructor
    · rintro rfl
      cases admitted
    · simpa using bare.1

theorem isSegment_of_selectUrl {settings : Settings} {isSnapshot : Bool} {source key : Text}
    {urls : List Text} (chosen : selectUrl settings isSnapshot source urls = .ok key) :
    IsSegment key := by
  obtain ⟨url, -, found⟩ := mem_of_selectUrl chosen
  exact isSegment_of_keyOfUrl found

theorem isSegment_of_selectProperty {settings : Settings} {isSnapshot : Bool} {table : Table}
    {key : Text} (chosen : selectProperty settings isSnapshot table = .ok key) : IsSegment key := by
  obtain ⟨rules, -, entry, -, -, admitted, found⟩ := mem_of_selectProperty chosen
  exact isSegment_of_keyOfValue? admitted found

namespace Search

variable {search : Search} {inherited : Table} {script : Script} {key : Text}

theorem isSegment_of_inspect (found : search.inspect inherited script = .ok (.key key)) :
    IsSegment key := by
  rcases inspect_cases found with ⟨usable, other, -, chosen, same⟩ | ⟨pending, -, -, same⟩
  · cases same
    exact isSegment_of_selectUrl chosen
  · cases same

theorem isSegment_of_decision {stops : List Stop}
    (decided : search.decision stops = .ok (some key)) : IsSegment key := by
  obtain ⟨visit, -, found⟩ := exists_visit_of_decision decided
  exact isSegment_of_inspect found

theorem isSegment_of_follow {visited : List AbsolutePath} {pending : List Pending}
    (found : (search.follow visited pending).result = .ok (some key)) : IsSegment key := by
  let start : Visit := ⟨[], ∅, ⟨[], [], .groovy⟩⟩
  have walked := search.result_follow visited (leads start pending)
  rw [pending_leads, found] at walked
  exact isSegment_of_decision walked.symm

theorem isSegment_of_keyOfScript (found : search.keyOfScript inherited script = .ok key) :
    IsSegment key :=
  isSegment_of_decision (keyOfScript_eq_ok_iff.mp found)

end Search

theorem isSegment_of_keyOfInitScripts {search : Search} {userHome key : Text}
    (found : keyOfInitScripts search userHome = .ok key) : IsSegment key := by
  obtain ⟨paths, path, -, tried⟩ := exists_of_keyOfInitScripts found
  obtain ⟨-, script, -, yielded⟩ := mem_of_firstScript? tried
  exact Search.isSegment_of_keyOfScript yielded

/-- Whatever yields a key, from the choice among URLs to the whole deployment, the key is a segment. -/
theorem key_isSegment (settings : Settings) (key : Text) :
    (∀ isSnapshot source urls, selectUrl settings isSnapshot source urls = .ok key → IsSegment key) ∧
    (∀ isSnapshot table, selectProperty settings isSnapshot table = .ok key → IsSegment key) ∧
    (∀ (search : Search) visited pending,
      (search.follow visited pending).result = .ok (some key) → IsSegment key) ∧
    (∀ (search : Search) inherited script,
      search.keyOfScript inherited script = .ok key → IsSegment key) ∧
    (∀ (search : Search) userHome, keyOfInitScripts search userHome = .ok key → IsSegment key) ∧
    (∀ tree request place, deployment settings tree request = .ok ⟨key, place⟩ → IsSegment key) := by
  refine ⟨?_, ?_, ?_, ?_, ?_, ?_⟩
  · intro isSnapshot source urls chosen
    exact isSegment_of_selectUrl chosen
  · intro isSnapshot table chosen
    exact isSegment_of_selectProperty chosen
  · intro search visited pending found
    exact search.isSegment_of_follow found
  · intro search inherited script found
    exact Search.isSegment_of_keyOfScript found
  · intro search userHome found
    exact isSegment_of_keyOfInitScripts found
  · intro tree request place deployed
    rcases deployment_cases deployed with ⟨search, first, visit, -, found⟩ | ⟨search, -, chosen⟩
    · exact Search.isSegment_of_inspect found
    · exact isSegment_of_selectProperty chosen

/-! A URL with odd parts, and a property whose value is not resolved. -/

theorem selectUrl_oddUrl : selectUrl Settings.packaged false "build.gradle"
    ["//h?/a/artifactory/b".toList, "artifactory//a\tb//?q#f".toList] = .ok "ab" := by
  have marker := Settings.text_packaged .urlMarker (by decide)
  have release := Settings.text_packaged .releaseKeyword (by decide)
  have deploy := Settings.text_packaged .deployKeyword (by decide)
  have keys : keyOfUrl? Settings.packaged = keyOfUrl? Settings.empty := by
    have usual : Settings.empty.text .urlMarker = .ok Settings.Setting.urlMarker.fallback := rfl
    funext url
    simp only [keyOfUrl?, keyOfUrl, marker, usual]
  simp only [selectUrl, keys, select, classify, kindKeyword, release, deploy, Bool.false_eq_true,
    if_false]
  rfl

theorem key_isSegment_of_oddSources :
    selectUrl Settings.packaged false "build.gradle"
        ["//h?/a/artifactory/b".toList, "artifactory//a\tb//?q#f".toList] = .ok "ab" ∧
      IsSegment "ab" ∧
      deployment Settings.packaged unresolvedTree unresolvedRequest =
        .ok ⟨"${repoKey}", .properties⟩ ∧
      IsSegment "${repoKey}" := by
  have ofUrl := (key_isSegment Settings.packaged "ab").1 _ _ _ selectUrl_oddUrl
  have deployed := (key_isSegment Settings.packaged "${repoKey}").2.2.2.2.2 _ _ _
    deployment_unresolvedRequest
  exact ⟨selectUrl_oddUrl, ofUrl, deployment_unresolvedRequest, deployed⟩

end Repository

end GradlePublishing
