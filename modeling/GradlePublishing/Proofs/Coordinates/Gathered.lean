import GradlePublishing.Coordinates.Project
import GradlePublishing.Proofs.Script.Place

/-!
The scripts that are gathered for the coordinates of a project: the build script and all that can be come
to from it with one table of properties (`of_mem_scriptsOf`, `exists_mem_scriptsOf`).
-/

namespace GradlePublishing.Coordinates

open Script (Applies)

namespace Gathering

variable {gathering : Gathering} {visited : List AbsolutePath} {paths : List Text}
  {queue scripts : List Script}

theorem gather_nil (gathering : Gathering) (visited : List AbsolutePath) :
    gathering.gather visited [] [] = .ok [] := by
  rw [gather]

theorem gather_head (script : Script) :
    gathering.gather visited [] (script :: queue) = (do
      let paths ← Script.appliedPaths gathering.settings script.dialect script.content gathering.table
        script.path
      return script :: (← gathering.gather visited paths queue)) := by
  rw [gather]

theorem gather_next {script : Script}
    (applied : Script.appliedPaths gathering.settings script.dialect script.content gathering.table
      script.path = .ok paths) (rest : gathering.gather visited paths queue = .ok scripts) :
    gathering.gather visited [] (script :: queue) = .ok (script :: scripts) := by
  rw [gather_head, applied]
  exact bind_eq_ok_iff.mpr ⟨paths, rfl, bind_eq_ok_iff.mpr ⟨scripts, rest, rfl⟩⟩

theorem gather_known {path : Text} (known : gathering.tree.absolute path ∈ visited) :
    gathering.gather visited (path :: paths) queue = gathering.gather visited paths queue := by
  rw [gather]
  exact if_pos known

theorem gather_fault {path : Text} (fresh : gathering.tree.absolute path ∉ visited) {failure : Failure}
    (loaded : Script.load? gathering.tree path = .error failure) :
    gathering.gather visited (path :: paths) queue = .error failure := by
  rw [gather]
  simp only [if_neg fresh]
  split <;> simp_all

theorem gather_missing {path : Text} (fresh : gathering.tree.absolute path ∉ visited)
    (loaded : Script.load? gathering.tree path = .ok none) :
    gathering.gather visited (path :: paths) queue =
      gathering.gather (gathering.tree.absolute path :: visited) paths queue := by
  rw [gather]
  simp only [if_neg fresh]
  split <;> simp_all

theorem gather_script {path : Text} (fresh : gathering.tree.absolute path ∉ visited) {script : Script}
    (loaded : Script.load? gathering.tree path = .ok (some script)) :
    gathering.gather visited (path :: paths) queue =
      gathering.gather (gathering.tree.absolute path :: visited) paths (queue ++ [script]) := by
  rw [gather]
  simp only [if_neg fresh]
  split <;> simp_all

/-- What is handed on from script to applied script holds of everything that is gathered. -/
theorem of_mem_gather {reached : Script → Prop}
    (onward : ∀ script, reached script → ∀ next,
      Applies gathering.settings gathering.tree gathering.table script next →
      gathering.tree.absolute next.path ∉ visited → reached next)
    (ahead : ∀ path ∈ paths, ∀ script, Script.load? gathering.tree path = .ok (some script) →
      gathering.tree.absolute path ∉ visited → reached script)
    (queued : ∀ script ∈ queue, reached script)
    (gathered : gathering.gather visited paths queue = .ok scripts) :
    ∀ script ∈ scripts, reached script := by
  revert scripts
  fun_induction gather gathering visited paths queue with
  | case1 visited =>
    intro scripts gathered
    cases gathered
    exact nofun
  | case2 visited script queue ih =>
    intro scripts gathered
    obtain ⟨paths, applied, gathered⟩ := bind_eq_ok_iff.mp gathered
    obtain ⟨later, rest, gathered⟩ := bind_eq_ok_iff.mp gathered
    cases gathered
    have here := queued script List.mem_cons_self
    refine List.forall_mem_cons.mpr ⟨here, ih paths onward (fun path member next loaded fresh => ?_)
      (fun other member => queued other (List.mem_cons_of_mem _ member)) rest⟩
    obtain rfl := Script.path_of_load? loaded
    exact onward script here next (Script.applies_of_load? applied member loaded) fresh
  | case3 visited path paths queue absolute known ih =>
    intro scripts gathered
    exact ih onward (fun other member => ahead other (List.mem_cons_of_mem _ member)) queued gathered
  | case4 visited path paths queue absolute fresh failure loaded =>
    intro scripts gathered
    cases gathered
  | case5 visited path paths queue absolute fresh loaded ih =>
    intro scripts gathered
    refine ih (fun script held next applies unknown => ?_) (fun other member script loaded unknown => ?_)
      queued gathered
    · exact onward script held next applies (List.not_mem_of_not_mem_cons unknown)
    · exact ahead other (List.mem_cons_of_mem _ member) script loaded
        (List.not_mem_of_not_mem_cons unknown)
  | case6 visited path paths queue absolute fresh script loaded ih =>
    intro scripts gathered
    refine ih (fun script held next applies unknown => ?_) (fun other member script loaded unknown => ?_)
      (List.forall_mem_append.mpr ⟨queued, ?_⟩) gathered
    · exact onward script held next applies (List.not_mem_of_not_mem_cons unknown)
    · exact ahead other (List.mem_cons_of_mem _ member) script loaded
        (List.not_mem_of_not_mem_cons unknown)
    · exact List.forall_mem_singleton.mpr (ahead path List.mem_cons_self script loaded fresh)

/-- A place is known, or one of the scripts is there. -/
def IsMet (gathering : Gathering) (visited : List AbsolutePath) (scripts : List Script)
    (place : AbsolutePath) : Prop :=
  place ∈ visited ∨ ∃ script ∈ scripts, gathering.tree.absolute script.path = place

/-- A script is to be read, or applied by one that is gathered. -/
def IsAhead (gathering : Gathering) (paths : List Text) (scripts : List Script) (next : Script) :
    Prop :=
  next.path ∈ paths ∨
    ∃ script ∈ scripts, Applies gathering.settings gathering.tree gathering.table script next

theorem IsAhead.elim_cons {path : Text} {next : Script} {goal : Prop}
    (ahead : gathering.IsAhead (path :: paths) scripts next) (first : next.path = path → goal)
    (other : gathering.IsAhead paths scripts next → goal) : goal := by
  rcases ahead with member | further
  · rcases List.mem_cons.mp member with same | member
    · exact first same
    · exact other (.inl member)
  · exact other (.inr further)

/-- What the first script of the queue applies is to be read after it. -/
theorem IsAhead.of_head {script next : Script}
    (applied : Script.appliedPaths gathering.settings script.dialect script.content gathering.table
      script.path = .ok paths)
    (ahead : gathering.IsAhead [] (script :: scripts) next) : gathering.IsAhead paths scripts next := by
  obtain ⟨source, member, applies⟩ := ahead.resolve_left List.not_mem_nil
  rcases List.mem_cons.mp member with rfl | member
  · obtain ⟨others, again, listed, -⟩ := applies
    rw [applied] at again
    exact .inl (Except.ok.inj again ▸ listed)
  · exact .inr ⟨source, member, applies⟩

theorem IsMet.cons {place : AbsolutePath} (script : Script)
    (met : gathering.IsMet visited scripts place) : gathering.IsMet visited (script :: scripts) place :=
  met.imp_right fun ⟨other, member, same⟩ => ⟨other, List.mem_cons_of_mem _ member, same⟩

/-- A place that is known by now was known before, or it is the one that was added. -/
theorem IsMet.elim_known {known place : AbsolutePath}
    (met : gathering.IsMet (known :: visited) scripts place)
    (added : place = known → gathering.IsMet visited scripts place) :
    gathering.IsMet visited scripts place := by
  rcases met with member | later
  · rcases List.mem_cons.mp member with same | before
    · exact added same
    · exact .inl before
  · exact .inr later

theorem isMet_of_isAhead (settled : gathering.tree.IsSettled) (plain : gathering.tree.HasPlainNames)
    (normal : ∀ path ∈ paths, Path.IsNormal path)
    (gathered : gathering.gather visited paths queue = .ok scripts) :
    (∀ script ∈ queue, script ∈ scripts) ∧
      ∀ next, next.IsIn gathering.tree → gathering.IsAhead paths scripts next →
        gathering.IsMet visited scripts (gathering.tree.absolute next.path) := by
  revert scripts
  fun_induction gather gathering visited paths queue with
  | case1 visited =>
    intro scripts gathered
    cases gathered
    refine ⟨nofun, fun next inside ahead => ?_⟩
    simp [IsAhead] at ahead
  | case2 visited script queue ih =>
    intro scripts gathered
    obtain ⟨paths, applied, gathered⟩ := bind_eq_ok_iff.mp gathered
    obtain ⟨later, rest, gathered⟩ := bind_eq_ok_iff.mp gathered
    cases gathered
    obtain ⟨kept, met⟩ := ih paths (fun _ => Script.isNormal_of_mem_appliedPaths applied) rest
    refine ⟨List.forall_mem_cons.mpr ⟨List.mem_cons_self,
      fun other member => List.mem_cons_of_mem _ (kept other member)⟩, fun next inside ahead => ?_⟩
    exact (met next inside (ahead.of_head applied)).cons script
  | case3 visited path paths queue absolute known ih =>
    intro scripts gathered
    obtain ⟨kept, met⟩ := ih (fun other member => normal other (List.mem_cons_of_mem _ member)) gathered
    refine ⟨kept, fun next inside ahead => ahead.elim_cons (fun same => ?_) (met next inside)⟩
    exact .inl (same ▸ known)
  | case4 visited path paths queue absolute fresh failure loaded =>
    intro scripts gathered
    cases gathered
  | case5 visited path paths queue absolute fresh loaded ih =>
    intro scripts gathered
    obtain ⟨kept, met⟩ := ih (fun other member => normal other (List.mem_cons_of_mem _ member)) gathered
    refine ⟨kept, fun next inside ahead => ?_⟩
    have unreadable : gathering.tree.absolute next.path ≠ absolute :=
      inside.absolute_ne settled plain (normal path List.mem_cons_self) (by simp [loaded])
    have further : gathering.IsAhead paths scripts next :=
      ahead.elim_cons (fun same => absurd (same ▸ rfl) unreadable) id
    exact (met next inside further).elim_known fun same => absurd same unreadable
  | case6 visited path paths queue absolute fresh script loaded ih =>
    intro scripts gathered
    obtain ⟨kept, met⟩ := ih (fun other member => normal other (List.mem_cons_of_mem _ member)) gathered
    have here : gathering.IsMet visited scripts absolute := by
      refine .inr ⟨script, kept script (List.mem_append_right _ (List.mem_singleton_self script)), ?_⟩
      rw [Script.path_of_load? loaded]
    refine ⟨fun other member => kept other (List.mem_append_left _ member), fun next inside ahead =>
      ahead.elim_cons (fun same => same ▸ here) fun further => ?_⟩
    exact (met next inside further).elim_known fun same => same ▸ here

end Gathering

section

variable {settings : Settings} {tree : FileTree} {table : Table} {build : Script}
  {scripts : List Script}

theorem scriptsOf_of_isolated
    (applied : Script.appliedPaths settings build.dialect build.content table build.path = .ok []) :
    scriptsOf settings tree table build = .ok [build] :=
  Gathering.gather_next applied (Gathering.gather_nil _ _)

theorem scriptsOf_of_leaf {path : Text} {next : Script}
    (applied : Script.appliedPaths settings build.dialect build.content table build.path = .ok [path])
    (elsewhere : tree.absolute path ≠ tree.absolute build.path)
    (loaded : Script.load? tree path = .ok (some next))
    (last : Script.appliedPaths settings next.dialect next.content table next.path = .ok []) :
    scriptsOf settings tree table build = .ok [build, next] := by
  let gathering : Gathering := ⟨settings, tree, table⟩
  have fresh : gathering.tree.absolute path ∉ [tree.absolute build.path] := by simpa using elsewhere
  have rest : gathering.gather [tree.absolute build.path] [path] [] = .ok [next] := by
    rw [Gathering.gather_script fresh loaded]
    exact Gathering.gather_next last (Gathering.gather_nil _ _)
  exact Gathering.gather_next applied rest

/-- What holds of the build script and is handed on to applied scripts holds of all scripts of a project.
None of the others is at its place. -/
theorem of_mem_scriptsOf {motive : Script → Prop}
    (gathered : scriptsOf settings tree table build = .ok scripts) (start : motive build)
    (next : ∀ script applied, motive script → Applies settings tree table script applied →
      tree.absolute applied.path ≠ tree.absolute build.path → motive applied) :
    ∀ script ∈ scripts, motive script := by
  refine Gathering.of_mem_gather (fun script held applied applies fresh => ?_)
    (fun _ member => absurd member List.not_mem_nil) (List.forall_mem_singleton.mpr start)
    gathered
  exact next script applied held applies fun same => fresh (List.mem_singleton.mpr same)

theorem exists_mem_scriptsOf (settled : tree.IsSettled) (plain : tree.HasPlainNames)
    (gathered : scriptsOf settings tree table build = .ok scripts) :
    build ∈ scripts ∧ ∀ script ∈ scripts, ∀ next, Applies settings tree table script next →
      ∃ other ∈ scripts, tree.absolute other.path = tree.absolute next.path := by
  have whole : Gathering.gather ⟨settings, tree, table⟩ [tree.absolute build.path] [] [build] =
      .ok scripts := gathered
  obtain ⟨kept, met⟩ := Gathering.isMet_of_isAhead settled plain
    (fun _ member => absurd member List.not_mem_nil) whole
  have first : build ∈ scripts := kept build (List.mem_singleton_self build)
  refine ⟨first, fun script member next applies => ?_⟩
  rcases met next applies.isIn (.inr ⟨script, member, applies⟩) with known | later
  · exact ⟨build, first, (List.mem_singleton.mp known).symm⟩
  · exact later

end

end GradlePublishing.Coordinates
