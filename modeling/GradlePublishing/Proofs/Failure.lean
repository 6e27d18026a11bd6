import GradlePublishing.Failure

/-!
Taking apart a computation that may fail, step by step.
-/

namespace GradlePublishing

/-- Results can be compared, so that the outcome of a run can be checked. -/
instance decidableEqResult {α : Type} [DecidableEq α] : DecidableEq (Except Failure α)
  | .ok first, .ok second => decidable_of_iff (first = second) (by simp)
  | .error first, .error second => decidable_of_iff (first = second) (by simp)
  | .ok _, .error _ => .isFalse nofun
  | .error _, .ok _ => .isFalse nofun

section

variable {α β : Type} {first : Except Failure α}

theorem bind_eq_ok_iff {next : α → Except Failure β} {result : β} :
    first >>= next = .ok result ↔ ∃ value, first = .ok value ∧ next value = .ok result := by
  cases first with
  | error failure => simp [bind, Except.bind]
  | ok value => simp [bind, Except.bind]

theorem toOption_eq_some_iff {value : α} : first.toOption = some value ↔ first = .ok value := by
  cases first with
  | error failure => simp [Except.toOption]
  | ok other => simp [Except.toOption]

end

/-- What a list of results holds was computed from a member of the list. -/
theorem exists_of_mem_mapM {α β : Type} {compute : α → Except Failure β} {xs : List α} {ys : List β}
    (computed : xs.mapM compute = .ok ys) {y : β} (member : y ∈ ys) :
    ∃ x ∈ xs, compute x = .ok y := by
  induction xs generalizing ys with
  | nil =>
    cases computed
    cases member
  | cons x xs ih =>
    rw [List.mapM_cons] at computed
    obtain ⟨first, here, computed⟩ := bind_eq_ok_iff.mp computed
    obtain ⟨more, later, computed⟩ := bind_eq_ok_iff.mp computed
    cases computed
    rcases List.mem_cons.mp member with rfl | member
    · exact ⟨x, List.mem_cons_self, here⟩
    · obtain ⟨other, inside, found⟩ := ih later member
      exact ⟨other, List.mem_cons_of_mem _ inside, found⟩

theorem mapM_congr {α β : Type} {compute other : α → Except Failure β} {xs : List α}
    (same : ∀ x ∈ xs, compute x = other x) : xs.mapM compute = xs.mapM other := by
  induction xs with
  | nil => rfl
  | cons x xs ih =>
    rw [List.mapM_cons, List.mapM_cons, same x List.mem_cons_self,
      ih fun y later => same y (List.mem_cons_of_mem _ later)]

structure FailsOnly {α : Type} (allowed : Failure → Prop) (result : Except Failure α) : Prop where
  allows : ∀ failure, result = .error failure → allowed failure

section FailsOnly

variable {α β : Type} {allowed : Failure → Prop}

theorem failsOnly_ok (value : α) : FailsOnly allowed (.ok value) := by
  constructor
  intro failure failed
  cases failed

theorem failsOnly_error {failure : Failure} (may : allowed failure) :
    FailsOnly allowed (.error failure : Except Failure α) := by
  constructor
  intro other failed
  cases failed
  exact may

theorem failsOnly_bind {first : Except Failure α} {next : α → Except Failure β}
    (before : FailsOnly allowed first)
    (after : ∀ value, first = .ok value → FailsOnly allowed (next value)) :
    FailsOnly allowed (first >>= next) := by
  cases come : first with
  | error failure => exact failsOnly_error (before.allows failure come)
  | ok value => exact after value come

theorem failsOnly_map {result : Except Failure α} (next : α → β)
    (before : FailsOnly allowed result) : FailsOnly allowed (result.map next) := by
  cases result with
  | error failure => exact failsOnly_error (before.allows failure rfl)
  | ok value => exact failsOnly_ok (next value)

theorem failsOnly_mapM {compute : α → Except Failure β} {xs : List α}
    (each : ∀ x ∈ xs, FailsOnly allowed (compute x)) : FailsOnly allowed (xs.mapM compute) := by
  induction xs with
  | nil => exact failsOnly_ok []
  | cons x xs ih =>
    rw [List.mapM_cons]
    apply failsOnly_bind (each x List.mem_cons_self)
    intro y _
    apply failsOnly_bind (ih fun other member => each other (List.mem_cons_of_mem _ member))
    intro ys _
    exact failsOnly_ok (y :: ys)

theorem exists_ok_of_failsOnly {result : Except Failure α} (never : FailsOnly (fun _ => False) result) :
    ∃ value, result = .ok value := by
  cases result with
  | error failure => exact (never.allows failure rfl).elim
  | ok value => exact ⟨value, rfl⟩

end FailsOnly

end GradlePublishing
