import GradlePublishing.Repository.Search

/-!
The order in which a search comes by scripts. A walk goes through the scripts that a script applies
before it goes on, and it takes every path once. Which scripts it goes on with is
left open, so that the walk of a search (`result_follow`) can be compared with one through all applied
scripts.
-/

namespace GradlePublishing.Repository

/-- A script that a walk comes by. The scripts that led to it are kept in `appliers`, the last one
first. -/
structure Visit where
  appliers : List Script
  inherited : Table
  script : Script
  deriving DecidableEq

/-- A path that a walk has yet to take. -/
structure Lead where
  appliers : List Script
  pending : Pending
  deriving DecidableEq

/-- What a walk comes by: a script, or a path that cannot even be asked for. -/
inductive Stop
  | script (visit : Visit)
  | fault (failure : Failure)
  deriving DecidableEq

/-- The paths that a walk came by, the last one first, and its stops in their order. -/
structure Walk where
  visited : List AbsolutePath
  stops : List Stop

def Walk.after (stop : Stop) (walk : Walk) : Walk := { walk with stops := stop :: walk.stops }

/-- The walk along the leads in depth-first order. What to go on with from a script comes before the
leads that are left. -/
def preorder (tree : FileTree) (below : Visit → List Lead) (visited : List AbsolutePath) :
    List Lead → Walk
  | [] => ⟨visited, []⟩
  | next :: rest =>
    let path := tree.absolute next.pending.path
    if path ∈ visited then preorder tree below visited rest
    else
      match _ : Script.load? tree next.pending.path with
      | .error failure => (preorder tree below (path :: visited) rest).after (.fault failure)
      | .ok none => preorder tree below (path :: visited) rest
      | .ok (some script) =>
        let visit : Visit := ⟨next.appliers, next.pending.inherited, script⟩
        (preorder tree below (path :: visited) (below visit ++ rest)).after (.script visit)
termination_by leads => ((Search.unread tree visited).length, leads.length)
decreasing_by
  · exact .right _ (by simp)
  · exact Prod.Lex.right' _ (Search.length_unread_cons _ _ _) (by simp)
  · exact Prod.Lex.right' _ (Search.length_unread_cons _ _ _) (by simp)
  · exact .left _ _ (Search.length_unread_of_load? ‹_› ‹_›)

section Steps

variable (tree : FileTree) (below : Visit → List Lead) (visited : List AbsolutePath)

theorem preorder_nil : preorder tree below visited [] = ⟨visited, []⟩ := by
  rw [preorder]

variable {tree visited} {next : Lead} (rest : List Lead)

theorem preorder_known (known : tree.absolute next.pending.path ∈ visited) :
    preorder tree below visited (next :: rest) = preorder tree below visited rest := by
  rw [preorder]
  exact if_pos known

theorem preorder_fault (fresh : tree.absolute next.pending.path ∉ visited) {failure : Failure}
    (loaded : Script.load? tree next.pending.path = .error failure) :
    preorder tree below visited (next :: rest) =
      (preorder tree below (tree.absolute next.pending.path :: visited) rest).after
        (.fault failure) := by
  rw [preorder]
  simp only [if_neg fresh]
  split <;> simp_all

theorem preorder_missing (fresh : tree.absolute next.pending.path ∉ visited)
    (loaded : Script.load? tree next.pending.path = .ok none) :
    preorder tree below visited (next :: rest) =
      preorder tree below (tree.absolute next.pending.path :: visited) rest := by
  rw [preorder]
  simp only [if_neg fresh]
  split <;> simp_all

theorem preorder_script (fresh : tree.absolute next.pending.path ∉ visited) {script : Script}
    (loaded : Script.load? tree next.pending.path = .ok (some script)) :
    preorder tree below visited (next :: rest) =
      (preorder tree below (tree.absolute next.pending.path :: visited)
        (below ⟨next.appliers, next.pending.inherited, script⟩ ++ rest)).after
        (.script ⟨next.appliers, next.pending.inherited, script⟩) := by
  rw [preorder]
  simp only [if_neg fresh]
  split <;> simp_all

end Steps

/-- What a walk comes by, if its leads keep to something from which every script goes on to leads that
keep to it too. A script that it comes by was not known before. -/
theorem of_mem_preorder {tree : FileTree} {below : Visit → List Lead} {reached : Visit → Prop}
    {ahead : Lead → Prop} {visited : List AbsolutePath} {leads : List Lead}
    (arrive : ∀ lead script, ahead lead → tree.absolute lead.pending.path ∉ visited →
      Script.load? tree lead.pending.path = .ok (some script) →
      .script ⟨lead.appliers, lead.pending.inherited, script⟩ ∈
        (preorder tree below visited leads).stops →
      reached ⟨lead.appliers, lead.pending.inherited, script⟩)
    (onward : ∀ visit, reached visit → ∀ lead ∈ below visit, ahead lead)
    (start : ∀ lead ∈ leads, ahead lead)
    {visit : Visit} (member : .script visit ∈ (preorder tree below visited leads).stops) :
    reached visit := by
  fun_induction preorder tree below visited leads with
  | case1 visited => cases member
  | case2 visited next more path known ih =>
    exact ih arrive (fun lead later => start lead (List.mem_cons_of_mem _ later)) member
  | case3 visited next more path fresh failure loaded ih =>
    have further : .script visit ∈ (preorder tree below (path :: visited) more).stops :=
      (List.mem_cons.mp member).resolve_left nofun
    refine ih (fun lead script ready unknown loaded later => ?_)
      (fun lead later => start lead (List.mem_cons_of_mem _ later)) further
    exact arrive lead script ready (List.not_mem_of_not_mem_cons unknown) loaded
      (List.mem_cons_of_mem _ later)
  | case4 visited next more path fresh loaded ih =>
    refine ih (fun lead script ready unknown => ?_)
      (fun lead later => start lead (List.mem_cons_of_mem _ later)) member
    exact arrive lead script ready (List.not_mem_of_not_mem_cons unknown)
  | case5 visited next more path fresh script loaded here ih =>
    have reachedHere := arrive next script (start next List.mem_cons_self) fresh loaded
      List.mem_cons_self
    rcases List.mem_cons.mp member with same | member
    · rw [Stop.script.inj same]
      exact reachedHere
    · refine ih (fun lead script ready unknown loaded later => ?_) (fun lead either => ?_) member
      · exact arrive lead script ready (List.not_mem_of_not_mem_cons unknown) loaded
          (List.mem_cons_of_mem _ later)
      · rcases List.mem_append.mp either with inner | later
        · exact onward here reachedHere lead inner
        · exact start lead (List.mem_cons_of_mem _ later)

namespace Search

/-- The leads from a script to scripts that it applies. -/
def leads (visit : Visit) (pending : List Pending) : List Lead :=
  pending.map (⟨visit.script :: visit.appliers, ·⟩)

/-- All local scripts that a script applies. -/
def allBelow (search : Search) (visit : Visit) : List Lead :=
  leads visit ((search.appliedBy visit.inherited visit.script).toOption.getD [])

def followedBelow (search : Search) (visit : Visit) : List Lead :=
  match search.inspect visit.inherited visit.script with
  | .ok (.applied pending) => leads visit pending
  | _ => []

def walk (search : Search) (below : Visit → List Lead) (inherited : Table) (script : Script) :
    List Stop :=
  let start : Visit := ⟨[], inherited, script⟩
  .script start ::
    (preorder search.tree below [search.tree.absolute script.path] (below start)).stops

/-- What holds of the first script and is handed on to those that a walk goes on with holds of all
scripts on the walk. None of those that follow is at the place of the first. -/
theorem walk_induction {search : Search} {below : Visit → List Lead} {inherited : Table}
    {script : Script} {motive : Visit → Prop} (start : motive ⟨[], inherited, script⟩)
    (next : ∀ visit lead applied, .script visit ∈ search.walk below inherited script → motive visit →
      lead ∈ below visit →
      search.tree.absolute lead.pending.path ≠ search.tree.absolute script.path →
      Script.load? search.tree lead.pending.path = .ok (some applied) →
      motive ⟨lead.appliers, lead.pending.inherited, applied⟩)
    {visit : Visit} (member : .script visit ∈ search.walk below inherited script) : motive visit := by
  let first : Visit := ⟨[], inherited, script⟩
  let visited : List AbsolutePath := [search.tree.absolute script.path]
  let reached (visit : Visit) : Prop :=
    .script visit ∈ search.walk below inherited script ∧ motive visit
  let ahead (lead : Lead) : Prop := ∃ visit, reached visit ∧ lead ∈ below visit
  have arrive : ∀ lead applied, ahead lead → search.tree.absolute lead.pending.path ∉ visited →
      Script.load? search.tree lead.pending.path = .ok (some applied) →
      .script ⟨lead.appliers, lead.pending.inherited, applied⟩ ∈
        (preorder search.tree below visited (below first)).stops →
      reached ⟨lead.appliers, lead.pending.inherited, applied⟩ := by
    rintro lead applied ⟨visit, ⟨walked, held⟩, led⟩ fresh loaded further
    exact ⟨List.mem_cons_of_mem _ further,
      next visit lead applied walked held led (List.ne_of_not_mem_cons fresh) loaded⟩
  have onward : ∀ visit, reached visit → ∀ lead ∈ below visit, ahead lead :=
    fun visit here lead led => ⟨visit, here, led⟩
  rcases List.mem_cons.mp member with same | later
  · cases same
    exact start
  · exact (of_mem_preorder arrive onward (onward first ⟨List.mem_cons_self, start⟩) later).2

/-- What a stop means for the search: a key, a failure, or nothing, so that it goes on. -/
def verdict (search : Search) : Stop → Except Failure (Option Text)
  | .fault failure => .error failure
  | .script visit =>
    match search.inspect visit.inherited visit.script with
    | .ok (.key key) => .ok (some key)
    | .ok (.applied _) => .ok none
    | .error failure => if failure.isAbsence then .ok none else .error failure

/-- A script ends the search in the failure of its inspection, unless that is an absence. -/
theorem verdict_eq_error_iff {search : Search} {visit : Visit} {failure : Failure} :
    search.verdict (.script visit) = .error failure ↔
      search.inspect visit.inherited visit.script = .error failure ∧ failure.isAbsence = false := by
  cases inspected : search.inspect visit.inherited visit.script with
  | ok finding => cases finding <;> simp [verdict, inspected]
  | error other =>
    simp only [verdict, inspected, Except.error.injEq]
    by_cases absent : other.isAbsence = true
    · rw [if_pos absent]
      constructor
      · intro same
        cases same
      · rintro ⟨rfl, present⟩
        rw [present] at absent
        cases absent
    · rw [if_neg absent, Except.error.injEq]
      constructor
      · rintro rfl
        exact ⟨rfl, Bool.not_eq_true _ ▸ absent⟩
      · exact And.left

/-- The first verdict that ends the search. -/
def decision (search : Search) : List Stop → Except Failure (Option Text)
  | [] => .ok none
  | stop :: rest =>
    match search.verdict stop with
    | .ok none => search.decision rest
    | .ok (some key) => .ok (some key)
    | .error failure => .error failure

theorem decision_script (search : Search) (visit : Visit) (rest : List Stop) :
    search.decision (.script visit :: rest) =
      match search.inspect visit.inherited visit.script with
      | .ok (.key key) => .ok (some key)
      | .ok (.applied _) => search.decision rest
      | .error failure => if failure.isAbsence then search.decision rest else .error failure := by
  rw [decision, verdict]
  cases search.inspect visit.inherited visit.script with
  | ok finding => cases finding <;> rfl
  | error failure => by_cases absent : failure.isAbsence = true <;> simp [absent]

theorem decision_fault (search : Search) (failure : Failure) (rest : List Stop) :
    search.decision (.fault failure :: rest) = .error failure := by
  rw [decision, verdict]

theorem pending_leads (visit : Visit) (pending : List Pending) :
    (leads visit pending).map Lead.pending = pending := by
  rw [leads, List.map_map]
  exact List.map_id pending

section Following

variable {search : Search} {visited : List AbsolutePath} {next : Pending} (rest : List Pending)

theorem follow_known (known : search.tree.absolute next.path ∈ visited) :
    search.follow visited (next :: rest) = search.follow visited rest := by
  rw [follow]
  exact if_pos known

theorem follow_fault (fresh : search.tree.absolute next.path ∉ visited) {failure : Failure}
    (loaded : Script.load? search.tree next.path = .error failure) :
    search.follow visited (next :: rest) =
      ⟨search.tree.absolute next.path :: visited, .error failure⟩ := by
  rw [follow]
  simp only [if_neg fresh]
  split <;> simp_all

theorem follow_missing (fresh : search.tree.absolute next.path ∉ visited)
    (loaded : Script.load? search.tree next.path = .ok none) :
    search.follow visited (next :: rest) =
      search.follow (search.tree.absolute next.path :: visited) rest := by
  rw [follow]
  simp only [if_neg fresh]
  split <;> simp_all

/-- A script that is read ends the search with its verdict, or the search goes on below it. -/
theorem follow_script (fresh : search.tree.absolute next.path ∉ visited) {script : Script}
    (loaded : Script.load? search.tree next.path = .ok (some script)) :
    search.follow visited (next :: rest) =
      match search.inspect next.inherited script with
      | .error failure =>
        if failure.isAbsence then search.follow (search.tree.absolute next.path :: visited) rest
        else ⟨search.tree.absolute next.path :: visited, .error failure⟩
      | .ok (.key key) => ⟨search.tree.absolute next.path :: visited, .ok (some key)⟩
      | .ok (.applied pending) =>
        search.follow (search.tree.absolute next.path :: visited) (pending ++ rest) := by
  rw [follow]
  simp only [if_neg fresh]
  split
  · simp_all
  · simp_all
  · rename_i same
    rw [loaded] at same
    cases same
    rfl

end Following

theorem followedBelow_of_applied {search : Search} {visit : Visit} {pending : List Pending}
    (found : search.inspect visit.inherited visit.script = .ok (.applied pending)) :
    search.followedBelow visit = leads visit pending := by
  simp only [followedBelow, found]

theorem followedBelow_of_error {search : Search} {visit : Visit} {failure : Failure}
    (found : search.inspect visit.inherited visit.script = .error failure) :
    search.followedBelow visit = [] := by
  simp only [followedBelow, found]

/-- A search along pending scripts ends with the first decision on its walk. -/
theorem result_follow (search : Search) (visited : List AbsolutePath) (leads : List Lead) :
    (search.follow visited (leads.map Lead.pending)).result =
      search.decision (preorder search.tree search.followedBelow visited leads).stops := by
  fun_induction preorder search.tree search.followedBelow visited leads with
  | case1 visited =>
    rw [List.map_nil, follow]
    rfl
  | case2 visited next more path known ih =>
    rw [List.map_cons, follow_known _ known, ih]
  | case3 visited next more path fresh failure loaded ih =>
    rw [List.map_cons, follow_fault _ fresh loaded]
    rfl
  | case4 visited next more path fresh loaded ih =>
    rw [List.map_cons, follow_missing _ fresh loaded, ih]
  | case5 visited next more path fresh script loaded visit ih =>
    rw [List.map_cons, follow_script _ fresh loaded]
    rw [Walk.after, decision_script]
    cases found : search.inspect next.pending.inherited script with
    | error failure =>
      rw [followedBelow_of_error found, List.nil_append] at ih ⊢
      by_cases absent : failure.isAbsence = true
      · simpa only [visit, found, if_pos absent] using ih
      · simp only [if_neg absent]
    | ok finding =>
      cases finding with
      | key key => rfl
      | applied pending =>
        rw [followedBelow_of_applied found, List.map_append, pending_leads] at ih
        rw [followedBelow_of_applied found]
        simpa only [visit, found] using ih

/-- The failure of a search that comes to no decision: that of its first script, if it has one. -/
def absence (search : Search) (inherited : Table) (script : Script) : Failure :=
  match search.inspect inherited script with
  | .error failure => failure
  | .ok _ => .noRepository script.path

/-- A search from a script ends with the first decision on its walk, and without one in an
absence. -/
theorem keyOfScript_eq (search : Search) (inherited : Table) (script : Script) :
    search.keyOfScript inherited script =
      match search.decision (search.walk search.followedBelow inherited script) with
      | .ok (some key) => .ok key
      | .ok none => .error (search.absence inherited script)
      | .error failure => .error failure := by
  rw [keyOfScript, run, walk, decision_script]
  cases found : search.inspect inherited script with
  | error failure =>
    rw [followedBelow_of_error found, preorder_nil]
    by_cases absent : failure.isAbsence = true
    · simp only [found, if_pos absent, absence, decision]
      rfl
    · simp only [if_neg absent]
      rfl
  | ok finding =>
    cases finding with
    | key key => rfl
    | applied pending =>
      have further : search.followedBelow ⟨[], inherited, script⟩ =
          leads ⟨[], inherited, script⟩ pending := followedBelow_of_applied found
      have followed := search.result_follow [search.tree.absolute script.path]
        (leads ⟨[], inherited, script⟩ pending)
      rw [pending_leads] at followed
      simp only [found, further, followed, absence]
      cases search.decision (preorder search.tree search.followedBelow
          [search.tree.absolute script.path] (leads ⟨[], inherited, script⟩ pending)).stops with
      | error failure => rfl
      | ok decided => cases decided <;> rfl

theorem keyOfScript_eq_ok_iff {search : Search} {inherited : Table} {script : Script} {key : Text} :
    search.keyOfScript inherited script = .ok key ↔
      search.decision (search.walk search.followedBelow inherited script) = .ok (some key) := by
  rw [keyOfScript_eq]
  cases search.decision (search.walk search.followedBelow inherited script) with
  | error failure => simp
  | ok decided => cases decided <;> simp

end Search

end GradlePublishing.Repository
