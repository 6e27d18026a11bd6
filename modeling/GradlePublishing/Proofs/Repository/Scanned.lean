import GradlePublishing.Proofs.Repository.Failures
import GradlePublishing.Proofs.Script.Place

/-!
The scripts that a search looks into. Where no script declares a repository and the search comes to its
end, they are the first script and all that are applied, each with the extra properties of those that led
to it (`exists_scans`, `Scans.induction`).
-/

namespace GradlePublishing.Repository

open Script (Applies)

variable {tree : FileTree} {below : Visit → List Lead}

/-- A place is known, or a walk comes by a script there. -/
def IsPassed (tree : FileTree) (visited : List AbsolutePath) (stops : List Stop)
    (place : AbsolutePath) : Prop :=
  place ∈ visited ∨ ∃ visit, .script visit ∈ stops ∧ tree.absolute visit.script.path = place

/-- A lead is to be taken, or goes on from a script that a walk comes by. -/
def IsAhead (below : Visit → List Lead) (leads : List Lead) (stops : List Stop) (lead : Lead) : Prop :=
  lead ∈ leads ∨ ∃ visit, .script visit ∈ stops ∧ lead ∈ below visit

theorem IsAhead.elim_cons {next lead : Lead} {leads : List Lead} {stops : List Stop} {goal : Prop}
    (ahead : IsAhead below (next :: leads) stops lead) (first : lead = next → goal)
    (other : IsAhead below leads stops lead → goal) : goal := by
  rcases ahead with member | further
  · rcases List.mem_cons.mp member with same | member
    · exact first same
    · exact other (.inl member)
  · exact other (.inr further)

theorem IsAhead.of_fault {leads : List Lead} {stops : List Stop} {failure : Failure} {lead : Lead}
    (ahead : IsAhead below leads (.fault failure :: stops) lead) : IsAhead below leads stops lead :=
  ahead.imp_right fun ⟨visit, member, further⟩ =>
    ⟨visit, (List.mem_cons.mp member).resolve_left nofun, further⟩

theorem IsPassed.cons {visited : List AbsolutePath} {stops : List Stop} {place : AbsolutePath}
    (stop : Stop) (passed : IsPassed tree visited stops place) :
    IsPassed tree visited (stop :: stops) place :=
  passed.imp_right fun ⟨visit, member, same⟩ => ⟨visit, List.mem_cons_of_mem _ member, same⟩

theorem IsPassed.of_unread {visited : List AbsolutePath} {stops : List Stop}
    {place path : AbsolutePath} (passed : IsPassed tree (path :: visited) stops place)
    (unread : place ≠ path) : IsPassed tree visited stops place :=
  passed.imp_left fun member => (List.mem_cons.mp member).resolve_left unread

theorem isPassed_of_isAhead (settled : tree.IsSettled) (plain : tree.HasPlainNames)
    (onward : ∀ visit, ∀ lead ∈ below visit, Path.IsNormal lead.pending.path)
    {visited : List AbsolutePath} {leads : List Lead}
    (normal : ∀ lead ∈ leads, Path.IsNormal lead.pending.path) {lead : Lead} {script : Script}
    (inside : script.IsIn tree) (path : script.path = lead.pending.path)
    (ahead : IsAhead below leads (preorder tree below visited leads).stops lead) :
    IsPassed tree visited (preorder tree below visited leads).stops (tree.absolute script.path) := by
  fun_induction preorder tree below visited leads with
  | case1 visited => simp [IsAhead] at ahead
  | case2 visited next more place known ih =>
    refine ahead.elim_cons (fun same => ?_)
      (ih fun other member => normal other (List.mem_cons_of_mem _ member))
    rw [same] at path
    exact .inl (path ▸ known)
  | case3 visited next more place fresh failure loaded ih =>
    have unread : tree.absolute script.path ≠ place :=
      inside.absolute_ne settled plain (normal next List.mem_cons_self) (by simp [loaded])
    have further : IsAhead below more _ lead :=
      ahead.of_fault.elim_cons (fun same => absurd (by rw [path, same]) unread) id
    exact ((ih (fun other member => normal other (List.mem_cons_of_mem _ member)) further).of_unread
      unread).cons _
  | case4 visited next more place fresh loaded ih =>
    have unread : tree.absolute script.path ≠ place :=
      inside.absolute_ne settled plain (normal next List.mem_cons_self) (by simp [loaded])
    have further : IsAhead below more _ lead :=
      ahead.elim_cons (fun same => absurd (by rw [path, same]) unread) id
    exact (ih (fun other member => normal other (List.mem_cons_of_mem _ member)) further).of_unread
      unread
  | case5 visited next more place fresh found loaded here ih =>
    have passedHere : IsPassed tree visited
        (.script here :: (preorder tree below (place :: visited) (below here ++ more)).stops) place :=
      .inr ⟨here, List.mem_cons_self, congrArg _ (Script.path_of_load? loaded)⟩
    refine ahead.elim_cons (fun same => ?_) fun ahead => ?_
    · rw [path, same]
      exact passedHere
    · have further : IsAhead below (below here ++ more)
          (preorder tree below (place :: visited) (below here ++ more)).stops lead := by
        rcases ahead with member | ⟨visit, member, further⟩
        · exact .inl (List.mem_append_right _ member)
        · rcases List.mem_cons.mp member with same | member
          · rw [Stop.script.inj same] at further
            exact .inl (List.mem_append_left _ further)
          · exact .inr ⟨visit, member, further⟩
      have passed := ih (List.forall_mem_append.mpr ⟨onward here,
        fun other member => normal other (List.mem_cons_of_mem _ member)⟩) further
      by_cases same : tree.absolute script.path = place
      · rw [same]
        exact passedHere
      · exact (passed.of_unread same).cons _

namespace Search

/-- The search looks into a script. -/
def Scans (search : Search) (inherited : Table) (build : Script) (visit : Visit) : Prop :=
  search.ComesTo (search.walk search.followedBelow inherited build) (.script visit)

variable {search : Search} {inherited : Table} {build : Script}

theorem verdict_of_decision {stops : List Stop} (undecided : search.decision stops = .ok none) :
    ∀ stop ∈ stops, search.verdict stop = .ok none := by
  induction stops with
  | nil => exact nofun
  | cons first stops ih =>
    rw [decision] at undecided
    cases met : search.verdict first with
    | error failure => simp [met] at undecided
    | ok found =>
      cases found with
      | some key => simp [met] at undecided
      | none =>
        simp only [met] at undecided
        exact List.forall_mem_cons.mpr ⟨met, ih undecided⟩

theorem decision_of_noRepository
    (ended : search.keyOfScript inherited build = .error (.noRepository build.path)) :
    search.decision (search.walk search.followedBelow inherited build) = .ok none := by
  rw [keyOfScript_eq] at ended
  cases decided : search.decision (search.walk search.followedBelow inherited build) with
  | ok found =>
    cases found with
    | some key => simp [decided] at ended
    | none => rfl
  | error failure =>
    simp only [decided, Except.error.injEq] at ended
    obtain ⟨stop, ⟨passed, rest, same, -⟩, ends⟩ := decision_eq_error_iff.mp decided
    rw [ended] at ends
    cases stop with
    | script visit => exact absurd (verdict_eq_error_iff.mp ends).2 (by simp [Failure.isAbsence])
    | fault other =>
      have walked : Stop.fault other ∈ search.walk search.followedBelow inherited build := by
        rw [same]
        exact List.mem_append_right _ List.mem_cons_self
      have null := fault_of_mem_preorder ((List.mem_cons.mp walked).resolve_left nofun)
      rw [verdict, null] at ends
      cases ends

theorem scans_iff (ended : search.keyOfScript inherited build = .error (.noRepository build.path))
    {visit : Visit} : search.Scans inherited build visit ↔
      .script visit ∈ search.walk search.followedBelow inherited build := by
  constructor
  · rintro ⟨passed, rest, same, -⟩
    rw [same]
    exact List.mem_append_right _ List.mem_cons_self
  · intro member
    obtain ⟨passed, rest, same⟩ := List.append_of_mem member
    refine ⟨passed, rest, same, fun other before => ?_⟩
    apply verdict_of_decision (decision_of_noRepository ended)
    rw [same]
    exact List.mem_append_left _ before

theorem scans_start (search : Search) (inherited : Table) (build : Script) :
    search.Scans inherited build ⟨[], inherited, build⟩ :=
  ⟨[], _, rfl, nofun⟩

theorem exists_appliedPaths_of_mem_followedBelow {visit : Visit} {lead : Lead}
    (member : lead ∈ search.followedBelow visit) :
    ∃ paths, Script.appliedPaths search.settings visit.script.dialect visit.script.content
        (search.tableOf visit.inherited visit.script) visit.script.path = .ok paths ∧
      lead.pending.path ∈ paths := by
  unfold followedBelow at member
  split at member
  · rename_i pending inspected
    obtain ⟨next, inside, rfl⟩ := List.mem_map.mp member
    obtain ⟨paths, applied, same⟩ := bind_eq_ok_iff.mp (appliedBy_of_inspect inspected)
    cases same
    obtain ⟨path, listed, rfl⟩ := List.mem_map.mp inside
    exact ⟨paths, applied, listed⟩
  · cases member

section

variable (ended : search.keyOfScript inherited build = .error (.noRepository build.path))

include ended

/-- What holds of the first script and is handed on to applied scripts holds of all that the search looks
into. None of the others is at the place of the first. -/
theorem Scans.induction {motive : Visit → Prop} (start : motive ⟨[], inherited, build⟩)
    (next : ∀ visit applied, search.Scans inherited build visit → motive visit →
      Applies search.settings search.tree (search.tableOf visit.inherited visit.script) visit.script
        applied.script →
      search.tree.absolute applied.script.path ≠ search.tree.absolute build.path → motive applied)
    {visit : Visit} (scans : search.Scans inherited build visit) : motive visit := by
  refine walk_induction start (fun visit lead applied walked held below other loaded => ?_)
    ((scans_iff ended).mp scans)
  obtain ⟨paths, found, member⟩ := exists_appliedPaths_of_mem_followedBelow below
  refine next visit _ ((scans_iff ended).mpr walked) held
    (Script.applies_of_load? found member loaded) ?_
  rw [Script.path_of_load? loaded]
  exact other

/-- A script that declares no repository hands the search on to all that it applies. -/
theorem exists_scans (settled : search.tree.IsSettled) (plain : search.tree.HasPlainNames)
    {visit : Visit} (scans : search.Scans inherited build visit)
    (silent : declaredUrls search.settings visit.script.dialect visit.script.content = .ok [])
    {next : Script} (applies : Applies search.settings search.tree
      (search.tableOf visit.inherited visit.script) visit.script next) :
    ∃ other, search.Scans inherited build other ∧
      search.tree.absolute other.script.path = search.tree.absolute next.path := by
  let start : Visit := ⟨[], inherited, build⟩
  have normal : ∀ visit, ∀ lead ∈ search.followedBelow visit, Path.IsNormal lead.pending.path := by
    intro visit lead member
    obtain ⟨paths, found, listed⟩ := exists_appliedPaths_of_mem_followedBelow member
    exact Script.isNormal_of_mem_appliedPaths found listed
  obtain ⟨paths, found, listed, loaded⟩ := applies
  let lead : Lead := ⟨visit.script :: visit.appliers, next.path, extraOf visit.inherited visit.script⟩
  have below : lead ∈ search.followedBelow visit := by
    rw [followedBelow_of_applied (inspect_of_appliedBy silent (appliedBy_of_appliedPaths found))]
    exact List.mem_map_of_mem (List.mem_map_of_mem listed)
  have ahead : IsAhead search.followedBelow (search.followedBelow start)
      (preorder search.tree search.followedBelow [search.tree.absolute build.path]
        (search.followedBelow start)).stops lead := by
    rcases List.mem_cons.mp ((scans_iff ended).mp scans) with same | later
    · have same : visit = start := Stop.script.inj same
      exact .inl (same ▸ below)
    · exact .inr ⟨visit, later, below⟩
  rcases isPassed_of_isAhead settled plain normal (normal start)
    ⟨Script.isNormal_of_mem_appliedPaths found listed, loaded⟩ rfl ahead with known | ⟨other, member, same⟩
  · exact ⟨start, scans_start search inherited build, (List.mem_singleton.mp known).symm⟩
  · exact ⟨other, (scans_iff ended).mpr (List.mem_cons_of_mem _ member), same⟩

end

end Search

end GradlePublishing.Repository
