import GradlePublishing.Proofs.Failure
import GradlePublishing.Proofs.Property.Unresolved
import GradlePublishing.Proofs.Text.Split
import GradlePublishing.Proofs.Text.Trimmed
import GradlePublishing.Repository.Property

/-!
Where the text of a repository key stands. A key is a piece of the URL or of the property value that it
comes from, once tabs and line breaks are taken out of that; so it holds no reference that is not there.
-/

namespace GradlePublishing

namespace Url

theorem cutScheme_isSuffix (s : Text) : (cutScheme s).2 <:+ s := by
  unfold cutScheme
  split
  · rename_i c scheme rest found
    split
    · have whole := Text.cut?_eq_some found
      rw [whole]
      exact (List.suffix_cons ':' rest).trans (List.suffix_append _ _)
    · exact List.suffix_rfl
  · exact List.suffix_rfl

theorem cutAuthority_isSuffix (s : Text) : (cutAuthority s).2 <:+ s := by
  unfold cutAuthority
  split
  · rename_i rest found
    rw [Text.after?_eq_some_iff.mp found]
    exact (List.dropWhile_suffix _).trans (List.suffix_append _ _)
  · exact List.suffix_rfl

theorem cutAt_isPrefix (mark : Char) (s : Text) : (cutAt mark s).1 <+: s := by
  unfold cutAt
  cases found : Text.cut? mark s with
  | none => exact List.prefix_rfl
  | some parts =>
    rw [Text.cut?_eq_some found]
    exact List.prefix_append _ _

theorem path_isInfix {s : Text} {url : Url} (cut : split s = .ok url) : url.path <:+: clean s := by
  simp only [split] at cut
  split at cut
  · cases cut
  · cases cut
    have located := (cutAuthority_isSuffix (cutScheme (clean s)).2).trans (cutScheme_isSuffix (clean s))
    exact ((cutAt_isPrefix _ _).trans (cutAt_isPrefix _ _)).isInfix.trans located.isInfix

end Url

namespace Repository

open Property

theorem afterMarker?_eq_some_iff {marker : Text} {segments rest : List Text} :
    afterMarker? marker segments = some rest ↔
      ∃ front, segments = front ++ marker :: rest ∧ marker ∉ front := by
  unfold afterMarker?
  constructor
  · intro found
    split at found
    · cases found
    · rename_i head more same
      cases found
      have first := List.head?_dropWhile_not (· != marker) segments
      rw [same] at first
      obtain rfl : head = marker := by simpa using first
      refine ⟨segments.takeWhile (· != head), ?_, fun member => ?_⟩
      · rw [← same, List.takeWhile_append_dropWhile]
      · simpa using List.mem_takeWhile_imp member
  · rintro ⟨front, rfl, absent⟩
    have passes : ∀ segment ∈ front, (segment != marker) = true := by
      intro segment member
      rw [bne_iff_ne]
      rintro rfl
      exact absent member
    rw [List.dropWhile_append_of_pos passes, List.dropWhile_cons_of_neg (by simp)]

theorem keyInPath_eq_ok_iff {marker url path key : Text} : keyInPath marker url path = .ok key ↔
    ∃ front, Url.segments path = front ++ [key] ∧ marker ∈ front := by
  constructor
  · intro found
    unfold keyInPath at found
    split at found
    · cases found
    · rename_i rest located
      split at found
      · cases found
      · rename_i last final
        cases found
        obtain ⟨front, whole, -⟩ := afterMarker?_eq_some_iff.mp located
        obtain ⟨between, rfl⟩ := List.getLast?_eq_some_iff.mp final
        exact ⟨front ++ marker :: between, by simp [whole], by simp⟩
  · rintro ⟨front, whole, member⟩
    obtain ⟨before, between, rfl, absent⟩ := List.eq_append_cons_of_mem member
    have located : afterMarker? marker (Url.segments path) = some (between ++ [key]) :=
      afterMarker?_eq_some_iff.mpr ⟨before, by simp [whole], absent⟩
    rw [keyInPath, located]
    dsimp only
    rw [List.getLast?_concat]

theorem pathOfUrl_eq_ok_iff {url path : Text} : pathOfUrl url = .ok path ↔
    url ≠ [] ∧ ∃ parts, Url.split url = .ok parts ∧ parts.path = path := by
  unfold pathOfUrl
  split
  · rename_i empty
    simp [List.isEmpty_iff.mp empty]
  · rename_i filled
    rw [List.isEmpty_iff] at filled
    cases Url.split url with
    | ok parts => simp [filled]
    | error fault => simp

theorem mem_segments_of_keyInPath {marker url path key : Text}
    (found : keyInPath marker url path = .ok key) : key ∈ Url.segments path := by
  obtain ⟨front, whole, -⟩ := keyInPath_eq_ok_iff.mp found
  rw [whole]
  exact List.mem_append_right front List.mem_cons_self

theorem infix_of_keyInPath {marker url path key : Text}
    (found : keyInPath marker url path = .ok key) : key <:+: path :=
  Text.infix_of_mem_splitOn (List.mem_filter.mp (mem_segments_of_keyInPath found)).1

theorem key_isInfix {settings : Settings} {url key : Text} (found : keyOfUrl settings url = .ok key) :
    key <:+: Url.withoutBreaks url := by
  obtain ⟨path, cut, found⟩ := bind_eq_ok_iff.mp found
  obtain ⟨marker, -, found⟩ := bind_eq_ok_iff.mp found
  obtain ⟨-, parts, parted, rfl⟩ := pathOfUrl_eq_ok_iff.mp cut
  exact (infix_of_keyInPath found).trans ((Url.path_isInfix parted).trans
    ((Url.clean_isInfix _).trans (Url.withoutBreaks_isInfix (Text.strip_isInfix url))))

theorem keyOfUrl?_eq_some_iff {settings : Settings} {url key : Text} :
    keyOfUrl? settings url = .ok (some key) ↔ keyOfUrl settings url = .ok key := by
  unfold keyOfUrl?
  cases keyOfUrl settings url with
  | ok other => simp
  | error failure => by_cases keyless : isKeyless failure = true <;> simp [keyless]

/-! Every key that is chosen was offered. -/

theorem mem_of_strongest? {ranked : List (Selection × Candidate)} {candidate : Candidate}
    (found : strongest? ranked = some candidate) : ∃ rank, (rank, candidate) ∈ ranked := by
  obtain ⟨⟨rank, best⟩, first, rfl⟩ := Option.map_eq_some_iff.mp found
  obtain ⟨selection, -, first⟩ := List.exists_of_findSome?_eq_some first
  exact ⟨rank, List.mem_of_find?_eq_some first⟩

theorem mem_of_select {settings : Settings} {isSnapshot : Bool} {source key : Text}
    {candidates : List Candidate} (chosen : select settings isSnapshot source candidates = .ok key) :
    ∃ candidate ∈ candidates, candidate.key = key := by
  obtain ⟨ranked, classified, chosen⟩ := bind_eq_ok_iff.mp chosen
  split at chosen
  · rename_i candidate best
    cases chosen
    obtain ⟨rank, member⟩ := mem_of_strongest? best
    obtain ⟨other, inside, found⟩ := exists_of_mem_mapM classified member
    obtain ⟨_, -, same⟩ := bind_eq_ok_iff.mp found
    cases same
    exact ⟨candidate, inside, rfl⟩
  · cases chosen

theorem mem_of_selectUrl {settings : Settings} {isSnapshot : Bool} {source key : Text}
    {urls : List Text} (chosen : selectUrl settings isSnapshot source urls = .ok key) :
    ∃ url ∈ urls, keyOfUrl settings (Text.strip url) = .ok key := by
  unfold selectUrl at chosen
  dsimp only at chosen
  split at chosen
  · cases chosen
  · obtain ⟨offered, computed, chosen⟩ := bind_eq_ok_iff.mp chosen
    split at chosen
    · cases chosen
    · obtain ⟨candidate, member, rfl⟩ := mem_of_select chosen
      obtain ⟨key, inside, rfl⟩ := List.mem_map.mp member
      obtain ⟨_, held, rfl⟩ := List.mem_filterMap.mp inside
      obtain ⟨_, distinct, found⟩ := exists_of_mem_mapM computed held
      obtain ⟨url, listed, rfl⟩ := List.mem_map.mp (List.mem_eraseDups.mp distinct)
      exact ⟨url, listed, keyOfUrl?_eq_some_iff.mp found⟩

theorem eraseDupsBy_sublist {α : Type} (same : α → α → Bool) (xs : List α) :
    (xs.eraseDupsBy same).Sublist xs := by
  match xs with
  | [] => exact List.Sublist.refl _
  | x :: xs =>
    rw [List.eraseDupsBy_cons]
    have later := eraseDupsBy_sublist same (xs.filter fun y => same y x = false)
    exact (later.trans List.filter_sublist).cons_cons x
termination_by xs.length
decreasing_by
  have shorter := List.length_filter_le (fun y => same y x = false) xs
  simp only [List.length_cons]
  omega

theorem mem_of_selectProperty {settings : Settings} {isSnapshot : Bool} {table : Table} {key : Text}
    (chosen : selectProperty settings isSnapshot table = .ok key) :
    ∃ rules, nameRules settings isSnapshot = .ok rules ∧ ∃ entry ∈ table.entries,
      rules.admits entry.1 = true ∧ admitsValue (Text.strip entry.2) = true ∧
        keyOfValue? settings (Text.strip entry.2) = .ok (some key) := by
  obtain ⟨rules, ruled, chosen⟩ := bind_eq_ok_iff.mp chosen
  obtain ⟨offered, computed, chosen⟩ := bind_eq_ok_iff.mp chosen
  obtain ⟨candidate, member, rfl⟩ := mem_of_select chosen
  have inside := (eraseDupsBy_sublist _ _).subset member
  obtain ⟨option, held, same⟩ := List.mem_filterMap.mp inside
  obtain ⟨entry, listed, found⟩ := exists_of_mem_mapM computed held
  refine ⟨rules, ruled, entry, List.mem_mergeSort.mp listed, ?_⟩
  unfold candidate? at found
  dsimp only at found
  split at found
  · rename_i admitted
    obtain ⟨value, ofValue, found⟩ := bind_eq_ok_iff.mp found
    cases found
    obtain ⟨key, rfl, rfl⟩ := Option.map_eq_some_iff.mp same
    rw [Bool.and_eq_true] at admitted
    exact ⟨admitted.1, admitted.2, ofValue⟩
  · cases found
    cases same

end Repository

end GradlePublishing
