import Mathlib.Data.List.Nodup
import GradlePublishing.Coordinates.Project
import GradlePublishing.Proofs.Run

/-!
How the scripts of a project are read along their apply statements. The search for a repository reads
them depth first, the gathering of the scripts breadth first. Cut into single steps, both come to an end
whatever the scripts apply, and neither asks for a path twice (`reading_ends_without_repetition`).
-/

namespace GradlePublishing

open Step (Follows Runs)

namespace Repository.Search

/-- Where a search stands: before its first script, or with scripts that are pending. -/
inductive Stage
  | start (inherited : Table) (script : Script)
  | following (visited : List AbsolutePath) (pending : List Pending)

def Stage.known (search : Search) : Stage → List AbsolutePath
  | start _ script => [search.tree.absolute script.path]
  | following visited _ => visited

/-- One step of a search: it looks into the first script, or takes one of those that are pending. -/
def step (search : Search) : Stage → Step Stage Outcome
  | .start inherited script =>
    let visited := [search.tree.absolute script.path]
    ⟨none,
      match search.inspect inherited script with
      | .error failure => .inr ⟨visited, .error failure⟩
      | .ok (.key key) => .inr ⟨visited, .ok (some key)⟩
      | .ok (.applied pending) => .inl (.following visited pending)⟩
  | .following visited [] => ⟨none, .inr ⟨visited, .ok none⟩⟩
  | .following visited (next :: rest) =>
    let path := search.tree.absolute next.path
    if path ∈ visited then ⟨none, .inl (.following visited rest)⟩
    else
      ⟨some path,
        match Script.load? search.tree next.path with
        | .error failure => .inr ⟨path :: visited, .error failure⟩
        | .ok none => .inl (.following (path :: visited) rest)
        | .ok (some script) =>
          match search.inspect next.inherited script with
          | .error failure =>
            if failure.isAbsence then .inl (.following (path :: visited) rest)
            else .inr ⟨path :: visited, .error failure⟩
          | .ok (.key key) => .inr ⟨path :: visited, .ok (some key)⟩
          | .ok (.applied pending) => .inl (.following (path :: visited) (pending ++ rest))⟩

theorem step_known {search : Search} {visited : List AbsolutePath} {next : Pending}
    (rest : List Pending) (known : search.tree.absolute next.path ∈ visited) :
    search.step (.following visited (next :: rest)) = ⟨none, .inl (.following visited rest)⟩ := by
  simp only [step, if_pos known]

theorem learns (search : Search) (state : Stage) :
    Step.Learns search.step (Stage.known search) state := by
  match state with
  | .start inherited script =>
    refine .nothing rfl fun later follows => ?_
    simp only [Follows, step] at follows
    repeat' split at follows
    all_goals cases follows
    rfl
  | .following visited [] => exact .nothing rfl nofun
  | .following visited (next :: rest) =>
    by_cases known : search.tree.absolute next.path ∈ visited
    · have here := step_known rest known
      refine .nothing (by rw [here]) fun later follows => ?_
      rw [Follows, here] at follows
      cases follows
      rfl
    · refine .path (search.tree.absolute next.path) (by simp only [step, if_neg known]) known ?_
      intro later follows
      simp only [Follows, step, if_neg known] at follows
      repeat' split at follows
      all_goals cases follows
      all_goals rfl

/-- From everywhere a search comes to its end, having asked for the paths that it then has visited. -/
theorem exists_runs_follow (search : Search) (visited : List AbsolutePath) (pending : List Pending) :
    ∃ asked, Runs search.step (.following visited pending) asked (search.follow visited pending) ∧
      (search.follow visited pending).visited = asked.reverse ++ visited := by
  fun_induction follow search visited pending with
  | case1 visited => exact ⟨_, .last none rfl, rfl⟩
  | case2 visited next rest path known ih =>
    obtain ⟨asked, run, same⟩ := ih
    exact ⟨asked, .more none (step_known rest known) run, same⟩
  | case3 visited next rest path fresh failure loaded =>
    refine ⟨_, .last (some path) ?_, rfl⟩
    simp only [step, if_neg fresh, loaded, path]
  | case4 visited next rest path fresh loaded ih =>
    obtain ⟨asked, run, same⟩ := ih
    refine ⟨_, .more (some path) ?_ run, by simp [same]⟩
    simp only [step, if_neg fresh, loaded, path]
  | case5 visited next rest path fresh script loaded failure inspected absent ih =>
    obtain ⟨asked, run, same⟩ := ih
    refine ⟨_, .more (some path) ?_ run, by simp [same]⟩
    simp only [step, if_neg fresh, loaded, inspected, if_pos absent, path]
  | case6 visited next rest path fresh script loaded failure inspected absent =>
    refine ⟨_, .last (some path) ?_, rfl⟩
    simp only [step, if_neg fresh, loaded, inspected, if_neg absent, path]
  | case7 visited next rest path fresh script loaded key inspected =>
    refine ⟨_, .last (some path) ?_, rfl⟩
    simp only [step, if_neg fresh, loaded, inspected, path]
  | case8 visited next rest path fresh script loaded pending inspected ih =>
    obtain ⟨asked, run, same⟩ := ih
    refine ⟨_, .more (some path) ?_ run, by simp [same]⟩
    simp only [step, if_neg fresh, loaded, inspected, path]

theorem exists_runs (search : Search) (inherited : Table) (script : Script) :
    ∃ asked, Runs search.step (.start inherited script) asked (search.run inherited script) ∧
      (search.run inherited script).visited =
        asked.reverse ++ [search.tree.absolute script.path] := by
  cases inspected : search.inspect inherited script with
  | error failure =>
    refine ⟨_, .last none ?_, ?_⟩ <;> simp only [step, run, inspected]
    rfl
  | ok finding =>
    cases finding with
    | key key =>
      refine ⟨_, .last none ?_, ?_⟩ <;> simp only [step, run, inspected]
      rfl
    | applied pending =>
      obtain ⟨asked, followed, same⟩ :=
        search.exists_runs_follow [search.tree.absolute script.path] pending
      have further : search.run inherited script =
          search.follow [search.tree.absolute script.path] pending := by
        simp only [run, inspected]
      rw [further]
      refine ⟨asked, .more none ?_ followed, same⟩
      simp only [step, inspected]

theorem exists_runs_stage (search : Search) (stage : Stage) :
    ∃ asked outcome, Runs search.step stage asked outcome := by
  match stage with
  | .start inherited script =>
    obtain ⟨asked, run, -⟩ := search.exists_runs inherited script
    exact ⟨asked, _, run⟩
  | .following visited pending =>
    obtain ⟨asked, run, -⟩ := search.exists_runs_follow visited pending
    exact ⟨asked, _, run⟩

end Repository.Search

namespace Coordinates.Gathering

/-- Where the gathering of scripts stands. `paths` are still to be read, `queue` holds the scripts whose
apply statements are still to be looked at, and those of `gathered` are done. -/
structure Stage where
  visited : List AbsolutePath
  paths : List Text
  queue : List Script
  gathered : List Script

/-- One step of the gathering: it reads a path, or takes the next script from the queue. -/
def step (gathering : Gathering) : Stage → Step Stage (Except Failure (List Script))
  | ⟨_, [], [], gathered⟩ => ⟨none, .inr (.ok gathered)⟩
  | ⟨visited, [], script :: queue, gathered⟩ =>
    ⟨none,
      match Script.appliedPaths gathering.settings script.dialect script.content gathering.table
        script.path with
      | .error failure => .inr (.error failure)
      | .ok paths => .inl ⟨visited, paths, queue, gathered ++ [script]⟩⟩
  | ⟨visited, path :: paths, queue, gathered⟩ =>
    let absolute := gathering.tree.absolute path
    if absolute ∈ visited then ⟨none, .inl ⟨visited, paths, queue, gathered⟩⟩
    else
      ⟨some absolute,
        match Script.load? gathering.tree path with
        | .error failure => .inr (.error failure)
        | .ok none => .inl ⟨absolute :: visited, paths, queue, gathered⟩
        | .ok (some script) => .inl ⟨absolute :: visited, paths, queue ++ [script], gathered⟩⟩

theorem step_known {gathering : Gathering} {visited : List AbsolutePath} {path : Text}
    (paths : List Text) (queue gathered : List Script)
    (known : gathering.tree.absolute path ∈ visited) :
    gathering.step ⟨visited, path :: paths, queue, gathered⟩ =
      ⟨none, .inl ⟨visited, paths, queue, gathered⟩⟩ := by
  simp only [step, if_pos known]

theorem learns (gathering : Gathering) (state : Stage) :
    Step.Learns gathering.step Stage.visited state := by
  match state with
  | ⟨visited, [], [], gathered⟩ => exact .nothing rfl nofun
  | ⟨visited, [], script :: queue, gathered⟩ =>
    refine .nothing rfl fun later follows => ?_
    simp only [Follows, step] at follows
    split at follows
    all_goals cases follows
    rfl
  | ⟨visited, path :: paths, queue, gathered⟩ =>
    by_cases known : gathering.tree.absolute path ∈ visited
    · have here := step_known paths queue gathered known
      refine .nothing (by rw [here]) fun later follows => ?_
      rw [Follows, here] at follows
      cases follows
      rfl
    · refine .path (gathering.tree.absolute path) (by simp only [step, if_neg known]) known ?_
      intro later follows
      simp only [Follows, step, if_neg known] at follows
      split at follows
      all_goals cases follows
      all_goals rfl

/-- From everywhere the gathering comes to its end, with the scripts that were gathered before in front
of the others. -/
theorem exists_runs_gather (gathering : Gathering) (visited : List AbsolutePath) (paths : List Text)
    (queue gathered : List Script) :
    ∃ asked, Runs gathering.step ⟨visited, paths, queue, gathered⟩ asked
      ((gathering.gather visited paths queue).map (gathered ++ ·)) := by
  fun_induction gather gathering visited paths queue generalizing gathered with
  | case1 visited =>
    refine ⟨_, .last none ?_⟩
    simp only [step, Except.map, List.append_nil]
  | case2 visited script queue ih =>
    cases applied : Script.appliedPaths gathering.settings script.dialect script.content
        gathering.table script.path with
    | error failure =>
      refine ⟨_, .last none ?_⟩
      simp only [step, applied]
      rfl
    | ok paths =>
      obtain ⟨asked, run⟩ := ih paths (gathered ++ [script])
      have same : (gathering.gather visited paths queue).map ((gathered ++ [script]) ++ ·) =
          (do return script :: (← gathering.gather visited paths queue)).map (gathered ++ ·) := by
        cases gathering.gather visited paths queue with
        | error failure => rfl
        | ok scripts =>
          simp only [Except.map, bind, Except.bind, pure, Except.pure, List.append_assoc,
            List.singleton_append]
      rw [same] at run
      refine ⟨_, .more none ?_ run⟩
      simp only [step, applied]
  | case3 visited path paths queue absolute known ih =>
    obtain ⟨asked, run⟩ := ih gathered
    exact ⟨asked, .more none (step_known paths queue gathered known) run⟩
  | case4 visited path paths queue absolute fresh failure loaded =>
    refine ⟨_, .last (some absolute) ?_⟩
    simp only [step, if_neg fresh, loaded, absolute]
    rfl
  | case5 visited path paths queue absolute fresh loaded ih =>
    obtain ⟨asked, run⟩ := ih gathered
    refine ⟨_, .more (some absolute) ?_ run⟩
    simp only [step, if_neg fresh, loaded, absolute]
  | case6 visited path paths queue absolute fresh script loaded ih =>
    obtain ⟨asked, run⟩ := ih gathered
    refine ⟨_, .more (some absolute) ?_ run⟩
    simp only [step, if_neg fresh, loaded, absolute]

theorem exists_runs_stage (gathering : Gathering) (stage : Stage) :
    ∃ asked result, Runs gathering.step stage asked result := by
  obtain ⟨asked, run⟩ :=
    gathering.exists_runs_gather stage.visited stage.paths stage.queue stage.gathered
  exact ⟨asked, _, run⟩

end Coordinates.Gathering

open Coordinates Repository in
/-- Whatever the scripts apply, both ways of reading them end. Neither asks for a path twice, nor for
that of the first script, and a search has every path only once among those it visited. -/
theorem reading_ends_without_repetition (search : Search) (inherited : Table)
    (gathering : Gathering) (script : Script) :
    Step.ReadsOnce search.step (.start inherited script) [search.tree.absolute script.path]
        (search.run inherited script) ∧
      (search.run inherited script).visited.Nodup ∧
      Step.ReadsOnce gathering.step ⟨[gathering.tree.absolute script.path], [], [script], []⟩
        [gathering.tree.absolute script.path]
        (scriptsOf gathering.settings gathering.tree gathering.table script) := by
  obtain ⟨asked, searched, visited⟩ := search.exists_runs inherited script
  have once := Step.ReadsOnce.of_learns search.learns search.exists_runs_stage searched
  refine ⟨once, ?_, ?_⟩
  · obtain ⟨-, distinct, unknown⟩ := once.once asked _ searched
    rw [visited, List.nodup_append]
    refine ⟨List.nodup_reverse.mpr distinct, List.nodup_singleton _, ?_⟩
    rintro path member other known rfl
    exact unknown path (List.mem_reverse.mp member) known
  · obtain ⟨asked, gathered⟩ := gathering.exists_runs_gather
      [gathering.tree.absolute script.path] [] [script] []
    have whole : (gathering.gather [gathering.tree.absolute script.path] [] [script]).map ([] ++ ·) =
        scriptsOf gathering.settings gathering.tree gathering.table script := by
      rw [scriptsOf]
      cases gathering.gather [gathering.tree.absolute script.path] [] [script] <;> rfl
    rw [whole] at gathered
    exact .of_learns gathering.learns gathering.exists_runs_stage gathered

end GradlePublishing
