import GradlePublishing.Path

/-!
Processes that go on step by step and ask for files on the way. A run is a finite chain of steps with
the paths that they ask for. A process that learns the paths that it asks for never asks for one again
(`Runs.nodup`).
-/

namespace GradlePublishing

/-- What a single step does: it may ask for the file at a path, and then it leads to another state or
to the result. -/
structure Step (State Result : Type) where
  asked : Option AbsolutePath
  next : State ⊕ Result

namespace Step

variable {State Result : Type}

def Follows (step : State → Step State Result) (later earlier : State) : Prop :=
  (step earlier).next = .inl later

/-- A finite run from a state to a result, with all paths that are asked for in their order. -/
inductive Runs (step : State → Step State Result) : State → List AbsolutePath → Result → Prop
  | last (path : Option AbsolutePath) {state : State} {result : Result}
      (here : step state = ⟨path, .inr result⟩) : Runs step state path.toList result
  | more (path : Option AbsolutePath) {state later : State} {asked : List AbsolutePath}
      {result : Result} (here : step state = ⟨path, .inl later⟩)
      (run : Runs step later asked result) : Runs step state (path.toList ++ asked) result

section

variable {step : State → Step State Result} {state : State} {asked : List AbsolutePath}
  {result : Result}

theorem Runs.acc (run : Runs step state asked result) : Acc (Follows step) state := by
  induction run with
  | last _ here =>
    refine .intro _ fun later follows => ?_
    rw [Follows, here] at follows
    cases follows
  | more _ here _ ih =>
    refine .intro _ fun later follows => ?_
    rw [Follows, here] at follows
    cases follows
    exact ih

theorem Runs.unique {other : List AbsolutePath} {last : Result} (run : Runs step state asked result)
    (again : Runs step state other last) : asked = other ∧ result = last := by
  induction run generalizing other with
  | last _ here =>
    cases again with
    | last _ here' =>
      cases here.symm.trans here'
      exact ⟨rfl, rfl⟩
    | more _ here' _ => cases here.symm.trans here'
  | more _ here _ ih =>
    cases again with
    | last _ here' => cases here.symm.trans here'
    | more _ here' rest =>
      cases here.symm.trans here'
      obtain ⟨same, equal⟩ := ih rest
      exact ⟨by rw [same], equal⟩

end

/-- A step asks for nothing, or for a path that is not known, which is known from then on. -/
inductive Learns (step : State → Step State Result) (known : State → List AbsolutePath)
    (state : State) : Prop
  | nothing (asked : (step state).asked = none)
      (kept : ∀ later, Follows step later state → known later = known state)
  | path (path : AbsolutePath) (asked : (step state).asked = some path) (fresh : path ∉ known state)
      (kept : ∀ later, Follows step later state → known later = path :: known state)

/-- A process that remembers what it asked for asks for no path twice. -/
theorem Runs.nodup {step : State → Step State Result} {known : State → List AbsolutePath}
    (learns : ∀ state, Learns step known state) {state : State} {asked : List AbsolutePath}
    {result : Result} (run : Runs step state asked result) :
    asked.Nodup ∧ ∀ path ∈ asked, path ∉ known state := by
  induction run with
  | @last path state result here =>
    cases learns state with
    | nothing asked kept =>
      rw [here] at asked
      simp [show path = none from asked]
    | path other asked fresh kept =>
      rw [here] at asked
      simp [show path = some other from asked, fresh]
  | @more path state later rest result here run ih =>
    obtain ⟨distinct, unknown⟩ := ih
    have follows : Follows step later state := by rw [Follows, here]
    cases learns state with
    | nothing asked kept =>
      rw [here] at asked
      rw [show path = none from asked, Option.toList_none, List.nil_append, ← kept later follows]
      exact ⟨distinct, unknown⟩
    | path other asked fresh kept =>
      rw [here] at asked
      rw [show path = some other from asked, Option.toList_some, List.singleton_append]
      simp only [kept later follows, List.mem_cons, not_or] at unknown
      refine ⟨List.nodup_cons.mpr ⟨fun again => (unknown other again).1 rfl, distinct⟩, ?_⟩
      simp only [List.mem_cons, forall_eq_or_imp]
      exact ⟨fresh, fun path member => (unknown path member).2⟩

/-- A process ends from everywhere. From `state` it ends with `result`, having asked for no path twice
and for none that is known. -/
structure ReadsOnce (step : State → Step State Result) (state : State) (known : List AbsolutePath)
    (result : Result) : Prop where
  ends : WellFounded (Follows step)
  run : ∃ asked, Runs step state asked result
  once : ∀ asked last, Runs step state asked last →
    last = result ∧ asked.Nodup ∧ ∀ path ∈ asked, path ∉ known

theorem ReadsOnce.of_learns {step : State → Step State Result} {known : State → List AbsolutePath}
    (learns : ∀ state, Learns step known state)
    (runs : ∀ state, ∃ asked result, Runs step state asked result) {state : State}
    {asked : List AbsolutePath} {result : Result} (run : Runs step state asked result) :
    ReadsOnce step state (known state) result where
  ends := by
    refine ⟨fun state => ?_⟩
    obtain ⟨asked, result, run⟩ := runs state
    exact run.acc
  run := ⟨asked, run⟩
  once := by
    intro other last again
    exact ⟨(again.unique run).2, again.nodup learns⟩

end Step

end GradlePublishing
