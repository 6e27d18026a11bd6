import GradlePublishing.Proofs.Failure
import GradlePublishing.Repository.Search

/-!
What the inspection of a single script can come to. Usable URLs decide alone; only without any does
the search go on to the scripts that are applied (`inspect_cases`).
-/

namespace GradlePublishing.Repository

theorem selectUrl_nil (settings : Settings) (isSnapshot : Bool) (source : Text) :
    selectUrl settings isSnapshot source [] = .error (.noRepositoryUrl source) := by
  rfl

namespace Search

variable {search : Search} {inherited : Table} {script : Script}

/-- The URLs of the repositories of a script alone that can hold a key. -/
def usableUrls (search : Search) (inherited : Table) (script : Script) :
    Except Failure (List Text) := do
  let written ← declaredUrls search.settings script.dialect script.content
  let table := search.tableOf inherited script
  return (← written.mapM (Property.resolve search.settings table)).filter isUsable

theorem usableUrls_eq_ok_iff {usable : List Text} :
    search.usableUrls inherited script = .ok usable ↔
      ∃ written urls, declaredUrls search.settings script.dialect script.content = .ok written ∧
        written.mapM (Property.resolve search.settings (search.tableOf inherited script)) =
          .ok urls ∧
        urls.filter isUsable = usable := by
  rw [usableUrls, bind_eq_ok_iff]
  refine exists_congr fun written => ?_
  rw [bind_eq_ok_iff]
  simp [pure, Except.pure]

/-- An inspection that does not fail finds a key among usable URLs, or there are none and it goes on
to the applied scripts. -/
theorem inspect_cases {finding : Finding} (found : search.inspect inherited script = .ok finding) :
    (∃ usable key, search.usableUrls inherited script = .ok usable ∧
      selectUrl search.settings search.isSnapshot script.path usable = .ok key ∧
      finding = .key key) ∨
    (∃ pending, search.usableUrls inherited script = .ok [] ∧
      search.appliedBy inherited script = .ok pending ∧ finding = .applied pending) := by
  obtain ⟨written, declared, found⟩ := bind_eq_ok_iff.mp found
  obtain ⟨urls, resolved, found⟩ := bind_eq_ok_iff.mp found
  dsimp only at found
  by_cases empty : urls.filter isUsable = []
  · right
    have usable : search.usableUrls inherited script = .ok [] :=
      usableUrls_eq_ok_iff.mpr ⟨written, urls, declared, resolved, empty⟩
    rw [empty] at found
    simp only [List.isEmpty_nil, Bool.not_true, Bool.false_eq_true, if_false] at found
    split at found
    · cases found
    · obtain ⟨pending, applied, found⟩ := bind_eq_ok_iff.mp found
      cases found
      exact ⟨pending, usable, applied, rfl⟩
  · left
    have usable : search.usableUrls inherited script = .ok (urls.filter isUsable) :=
      usableUrls_eq_ok_iff.mpr ⟨written, urls, declared, resolved, rfl⟩
    rw [if_pos (by simpa using empty)] at found
    obtain ⟨key, selected, found⟩ := bind_eq_ok_iff.mp found
    cases found
    exact ⟨urls.filter isUsable, key, usable, selected, rfl⟩

theorem inspect_of_selectUrl {usable : List Text} {key : Text}
    (held : search.usableUrls inherited script = .ok usable)
    (selected : selectUrl search.settings search.isSnapshot script.path usable = .ok key) :
    search.inspect inherited script = .ok (.key key) := by
  obtain ⟨written, urls, declared, resolved, rfl⟩ := usableUrls_eq_ok_iff.mp held
  refine bind_eq_ok_iff.mpr ⟨written, declared, bind_eq_ok_iff.mpr ⟨urls, resolved, ?_⟩⟩
  have nonempty : urls.filter isUsable ≠ [] := by
    intro empty
    rw [empty, selectUrl_nil] at selected
    cases selected
  dsimp only
  rw [if_pos (by simpa using nonempty), selected]
  rfl

theorem appliedBy_of_appliedPaths {paths : List Text}
    (found : Script.appliedPaths search.settings script.dialect script.content
      (search.tableOf inherited script) script.path = .ok paths) :
    search.appliedBy inherited script = .ok (paths.map (⟨·, extraOf inherited script⟩)) :=
  bind_eq_ok_iff.mpr ⟨paths, found, rfl⟩

/-- A script that declares no repository leaves everything to those that it applies. -/
theorem inspect_of_appliedBy {pending : List Pending}
    (declared : declaredUrls search.settings script.dialect script.content = .ok [])
    (applied : search.appliedBy inherited script = .ok pending) :
    search.inspect inherited script = .ok (.applied pending) := by
  refine bind_eq_ok_iff.mpr ⟨[], declared, bind_eq_ok_iff.mpr ⟨[], rfl, ?_⟩⟩
  exact bind_eq_ok_iff.mpr ⟨pending, applied, rfl⟩

theorem appliedBy_of_inspect {pending : List Pending}
    (found : search.inspect inherited script = .ok (.applied pending)) :
    search.appliedBy inherited script = .ok pending := by
  rcases inspect_cases found with ⟨_, _, _, _, same⟩ | ⟨other, _, applied, same⟩
  · cases same
  · cases same
    exact applied

/-- The applied scripts inherit the extra properties of the one that applies them. -/
theorem inherited_of_appliedBy {pending : List Pending} {next : Pending}
    (applied : search.appliedBy inherited script = .ok pending) (member : next ∈ pending) :
    next.inherited = extraOf inherited script := by
  obtain ⟨paths, -, same⟩ := bind_eq_ok_iff.mp applied
  cases same
  obtain ⟨path, -, rfl⟩ := List.mem_map.mp member
  rfl

end Search

end GradlePublishing.Repository
