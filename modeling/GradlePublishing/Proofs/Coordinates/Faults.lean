import GradlePublishing.Coordinates.Project
import GradlePublishing.Proofs.Repository.Faults

/-!
What the coordinates of a project can fail by, under any settings.
-/

namespace GradlePublishing.Coordinates

open Repository

/-- The failures that are announced: a bad directory, the want of a build script, and coordinates that
are missing. -/
inductive Announces (tree : FileTree) (directory : Text) : Failure → Prop
  | badDirectory {failure : Failure} (failed : checkDirectory tree directory = .error failure) :
      Announces tree directory failure
  | noBuildScript : Announces tree directory (.noBuildScript directory)
  | missing (fields : List Text) : Announces tree directory (.missingCoordinates fields directory)

section

variable {allowed : Failure → Prop}

/-- Gathering the scripts fails by a fault of the settings, or at a path that cannot be asked for. -/
theorem failsOnly_gather {gathering : Gathering}
    (faulty : ∀ failure, gathering.settings.Fault failure → allowed failure)
    (applied : AppliesNull gathering.settings gathering.tree → allowed .nullInPath)
    {visited : List AbsolutePath} {paths : List Text} {queue : List Script}
    (null : ∀ path ∈ paths, FileTree.nullChar ∈ path → allowed .nullInPath)
    (read : ∀ script ∈ queue, ∃ path, Script.load? gathering.tree path = .ok (some script)) :
    FailsOnly allowed (gathering.gather visited paths queue) := by
  fun_induction Gathering.gather gathering visited paths queue with
  | case1 visited => exact failsOnly_ok _
  | case2 visited script queue ih =>
    apply failsOnly_bind (failsOnly_appliedPaths faulty _ _ _ _)
    intro paths found
    obtain ⟨place, loaded⟩ := read script List.mem_cons_self
    have held : ∀ path ∈ paths, FileTree.nullChar ∈ path → allowed .nullInPath :=
      fun path member null => applied ⟨place, script, _, paths, loaded, found, path, member, null⟩
    apply failsOnly_bind (ih paths held fun other member => read other (List.mem_cons_of_mem _ member))
    intro gathered _
    exact failsOnly_ok _
  | case3 visited path paths queue absolute known ih =>
    exact ih (fun other member => null other (List.mem_cons_of_mem _ member)) read
  | case4 visited path paths queue absolute fresh failure loaded =>
    obtain ⟨rfl, held⟩ := (failsOnly_load? gathering.tree path).allows failure loaded
    exact failsOnly_error (null path List.mem_cons_self held)
  | case5 visited path paths queue absolute fresh loaded ih =>
    exact ih (fun other member => null other (List.mem_cons_of_mem _ member)) read
  | case6 visited path paths queue absolute fresh script loaded ih =>
    apply ih fun other member => null other (List.mem_cons_of_mem _ member)
    intro other member
    rcases List.mem_append.mp member with before | last
    · exact read other before
    · exact ⟨path, List.mem_singleton.mp last ▸ loaded⟩

variable {settings : Settings} {tree : FileTree} (plain : tree.HasPlainNames)
  (faulty : ∀ failure, settings.Fault failure → allowed failure)

include faulty in
theorem failsOnly_resolved? (table : Table) (value : Option Text) :
    FailsOnly allowed (resolved? settings table value) := by
  cases value with
  | none => exact failsOnly_ok _
  | some value => exact failsOnly_map _ (failsOnly_resolve faulty table value)

include plain in
theorem failsOnly_load?_of_find? {directory baseName path : Text}
    (found : Script.find? settings tree directory baseName = .ok (some path)) :
    FailsOnly allowed (Script.load? tree path) := by
  constructor
  intro failure failed
  exact absurd ((failsOnly_load? tree path).allows failure failed).2
    (plain.null_notMem_of_isFile (isFile_of_find? found))

theorem exists_load?_of_buildScript {directory : Text} {build : Script}
    (found : buildScript settings tree directory = .ok build) :
    ∃ path, Script.load? tree path = .ok (some build) := by
  obtain ⟨baseName, -, found⟩ := bind_eq_ok_iff.mp found
  obtain ⟨path?, -, found⟩ := bind_eq_ok_iff.mp found
  cases path? with
  | none => cases found
  | some path =>
    obtain ⟨script, loaded, found⟩ := bind_eq_ok_iff.mp found
    cases script with
    | none => cases found
    | some script =>
      cases found
      exact ⟨path, loaded⟩

include plain faulty

theorem failsOnly_rootName (table : Table) (directory : Text) :
    FailsOnly allowed (rootName settings tree table directory) := by
  apply failsOnly_bind (failsOnly_known faulty .settingsScript (by decide))
  intro baseName _
  apply failsOnly_bind (failsOnly_find? tree faulty directory baseName)
  intro path? found
  cases path? with
  | none => exact failsOnly_ok _
  | some path =>
    apply failsOnly_bind (failsOnly_load?_of_find? plain found)
    intro script _
    cases script.bind fun script => rootNameOf? script.content with
    | none => exact failsOnly_ok _
    | some name =>
      apply failsOnly_bind (failsOnly_resolve faulty table name)
      intro resolved _
      exact failsOnly_ok _

variable {directory : Text} (announced : ∀ failure, Announces tree directory failure → allowed failure)

include announced

theorem failsOnly_buildScript : FailsOnly allowed (buildScript settings tree directory) := by
  apply failsOnly_bind (failsOnly_known faulty .buildScript (by decide))
  intro baseName _
  apply failsOnly_bind (failsOnly_find? tree faulty directory baseName)
  intro path? found
  cases path? with
  | none => exact failsOnly_error (announced _ .noBuildScript)
  | some path =>
    apply failsOnly_bind (failsOnly_load?_of_find? plain found)
    intro script _
    cases script with
    | none => exact failsOnly_error (announced _ .noBuildScript)
    | some script => exact failsOnly_ok _

omit plain faulty in
theorem failsOnly_complete (group version name : Option Text) (directoryName : Text) :
    FailsOnly allowed (match present? group, present? version with
      | some group, some version => return ⟨group, (present? name).getD directoryName, version⟩
      | some _, none => throw (.missingCoordinates ["version"] directory)
      | none, some _ => throw (.missingCoordinates ["group"] directory)
      | none, none => throw (.missingCoordinates ["group", "version"] directory) :
        Except Failure Coordinates) := by
  split
  · exact failsOnly_ok _
  all_goals exact failsOnly_error (announced _ (.missing _))

/-- Coordinates fail in a way that is announced, by a fault of the settings, or at a path with a null
character that the settings or a script holds. -/
theorem failsOnly_ofProject (overriding : Table) (nulls : settings.HoldsNull → allowed .nullInPath)
    (applied : AppliesNull settings tree → allowed .nullInPath) :
    FailsOnly allowed (ofProject settings tree directory overriding) := by
  apply failsOnly_bind
  · exact ⟨fun failure failed => announced failure (.badDirectory failed)⟩
  intro _ valid
  apply failsOnly_bind (failsOnly_buildScript plain faulty announced)
  intro build found
  apply failsOnly_bind (failsOnly_base tree faulty nulls
    (fun null => absurd null (null_notMem_of_checkDirectory plain valid))
    fun home given => absurd given.symm (Option.some_ne_none home))
  intro base _
  apply failsOnly_bind
  · refine failsOnly_gather faulty applied (fun path member => absurd member List.not_mem_nil)
      fun script member => ?_
    rw [List.mem_singleton.mp member]
    exact exists_load?_of_buildScript found
  intro scripts _
  dsimp only
  apply failsOnly_bind (failsOnly_resolved? faulty _ _)
  intro group _
  apply failsOnly_bind (failsOnly_resolved? faulty _ _)
  intro version _
  apply failsOnly_bind (failsOnly_resolved? faulty _ _)
  intro artifact _
  cases artifact with
  | some artifact => exact failsOnly_complete announced _ _ (some artifact) _
  | none =>
    apply failsOnly_bind (failsOnly_rootName plain faulty _ directory)
    intro name _
    exact failsOnly_complete announced _ _ name _

end

end GradlePublishing.Coordinates
