import GradlePublishing.Proofs.Property.Braced

/-!
When resolving a value leaves no reference. The references of a value, those of the values that
replace them, and so on, span a tree. It is a relation here (`Expands`), so it is finite wherever it
holds, while resolving stops at a given number of levels. The two agree as far as the height of the
tree goes. A value that leads into a cycle has no such tree.
-/

namespace GradlePublishing.Property

open GradlePublishing.Script

/-- With all references replaced, and those of the replacements in turn, `value` becomes `result`.
The tree of replacements has the given height. -/
inductive Expands (table : Table) : Text → Text → Nat → Prop
  | nil : Expands table [] [] 0
  | plain {c : Char} {rest result : Text} {height : Nat} (notDollar : c ≠ '$')
      (behind : Expands table rest result height) :
      Expands table (c :: rest) (c :: result) height
  | reference {body replacement inner rest result : Text} {height later : Nat}
      (isBody : IsBody body) (named : bracedKey body ≠ [])
      (known : table.value? (bracedKey body) = some replacement)
      (below : Expands table replacement inner height)
      (behind : Expands table rest result later) :
      Expands table (bracedText body ++ rest) (inner ++ result) (max (height + 1) later)

/-- The value holds a reference to the name. -/
def RefersTo (value name : Text) : Prop :=
  ∃ body front rest, IsBody body ∧ value = front ++ (bracedText body ++ rest) ∧
    bracedKey body = name

/-- The value refers to the name, or to another one whose value depends on it. -/
inductive DependsOn (table : Table) : Text → Text → Prop
  | direct {value name : Text} (refers : RefersTo value name) : DependsOn table value name
  | through {value name between replacement : Text} (refers : RefersTo value between)
      (known : table.value? between = some replacement)
      (further : DependsOn table replacement name) : DependsOn table value name

/-- The value of the name depends on the name itself. -/
def OnCycle (table : Table) (name : Text) : Prop :=
  ∃ value, table.value? name = some value ∧ DependsOn table value name

/-! The name that a reference asks for is a part of what stands between its braces. -/

theorem mem_of_mem_strip {s : Text} {c : Char} (member : c ∈ Text.strip s) : c ∈ s := by
  rw [Text.strip, Text.stripEnd, Text.dropEndWhile, List.mem_reverse] at member
  have inside := (List.dropWhile_suffix _).subset member
  rw [List.mem_reverse] at inside
  exact (List.dropWhile_suffix _).subset inside

theorem mem_of_mem_dropProject {s : Text} {c : Char} (member : c ∈ dropProject s) : c ∈ s := by
  rw [dropProject] at member
  cases found : projectPrefixes.findSome? (Text.after? · s) with
  | none =>
    rw [found] at member
    exact member
  | some rest =>
    rw [found] at member
    obtain ⟨lead, -, after⟩ := List.exists_of_findSome?_eq_some found
    rw [Text.after?_eq_some_iff.mp after]
    exact List.mem_append_right _ member

theorem mem_of_soughtName? {s name : Text} {c : Char} (found : soughtName? s = some name)
    (member : c ∈ name) : c ∈ s := by
  unfold soughtName? at found
  split at found
  · rename_i quote inner after
    split at found
    · rename_i close ending reversed
      split at found
      · cases found
        have inside : c ∈ inner := by
          rw [← List.mem_reverse, reversed]
          exact List.mem_cons_of_mem _ (List.mem_cons_of_mem _ (List.mem_reverse.mp member))
        rw [Text.after?_eq_some_iff.mp after]
        exact List.mem_append_right _ (List.mem_cons_of_mem _ inside)
      · cases found
    · cases found
  · cases found

theorem mem_of_mem_bracedKey {body : Text} {c : Char} (member : c ∈ bracedKey body) :
    c ∈ body := by
  rw [bracedKey] at member
  cases found : soughtName? (dropProject (Text.strip body)) with
  | none =>
    simp only [found, Option.getD_none] at member
    exact mem_of_mem_strip (mem_of_mem_dropProject member)
  | some name =>
    simp only [found, Option.getD_some] at member
    exact mem_of_mem_strip (mem_of_mem_dropProject (mem_of_soughtName? found member))

/-- A reference is replaced when its name has a value other than the reference itself. -/
theorem bracedValue?_eq_some_iff {table : Table} {body value : Text} (isBody : IsBody body) :
    bracedValue? table body = some value ↔
      bracedKey body ≠ [] ∧ table.value? (bracedKey body) = some value ∧
        value ≠ bracedText body := by
  have noDollar : (bracedKey body).head? ≠ some '$' := by
    intro starts
    exact isBody.noDollar (mem_of_mem_bracedKey (List.mem_of_head? starts))
  unfold bracedValue?
  by_cases named : bracedKey body = []
  · simp [named]
  · simp [noDollar, named]

namespace Expands

variable {table : Table}

theorem of_not_mem {value : Text} (plain : '$' ∉ value) : Expands table value value 0 := by
  induction value with
  | nil => exact .nil
  | cons c value ih =>
    rw [List.mem_cons, not_or] at plain
    exact .plain (Ne.symm plain.1) (ih plain.2)

theorem bracedText {body replacement inner : Text} {height : Nat} (isBody : IsBody body)
    (named : bracedKey body ≠ []) (known : table.value? (bracedKey body) = some replacement)
    (below : Expands table replacement inner height) :
    Expands table (bracedText body) inner (height + 1) := by
  have whole := Expands.reference isBody named known below .nil
  rw [List.append_nil, List.append_nil, Nat.max_zero] at whole
  exact whole

theorem not_mem {value result : Text} {height : Nat} (expands : Expands table value result height) :
    '$' ∉ result := by
  induction expands with
  | nil => exact List.not_mem_nil
  | plain notDollar _ ih =>
    rw [List.mem_cons, not_or]
    exact ⟨Ne.symm notDollar, ih⟩
  | reference _ _ _ _ _ inner rest =>
    rw [List.mem_append, not_or]
    exact ⟨inner, rest⟩

theorem bracedOnly {value result : Text} {height : Nat}
    (expands : Expands table value result height) : BracedOnly value := by
  induction expands with
  | nil => exact BracedOnly.nil
  | plain notDollar _ ih => exact ih.cons notDollar
  | reference isBody _ _ _ _ _ ih => exact (BracedOnly.bracedText isBody).append ih

theorem below_of_mem {value result body : Text} {height : Nat}
    (expands : Expands table value result height) (referred : .reference body ∈ bracedPieces value) :
    ∃ replacement inner lower, table.value? (bracedKey body) = some replacement ∧
      Expands table replacement inner lower ∧ lower < height := by
  induction expands with
  | nil =>
    rw [bracedPieces] at referred
    cases referred
  | plain notDollar _ ih =>
    rw [bracedPieces_cons notDollar] at referred
    cases referred with
    | tail _ referred => exact ih referred
  | @reference _ replacement inner _ _ lower _ isBody _ known within _ _ ih =>
    rw [bracedPieces_bracedText isBody] at referred
    cases referred with
    | head => exact ⟨replacement, inner, lower, known, within, by omega⟩
    | tail _ referred =>
      obtain ⟨replacement, inner, lower, known, within, less⟩ := ih referred
      exact ⟨replacement, inner, lower, known, within, by omega⟩

theorem below_of_refersTo {value result name : Text} {height : Nat}
    (expands : Expands table value result height) (refers : RefersTo value name) :
    ∃ replacement inner lower, table.value? name = some replacement ∧
      Expands table replacement inner lower ∧ lower < height := by
  obtain ⟨body, front, rest, isBody, same, rfl⟩ := refers
  exact expands.below_of_mem (reference_mem_bracedPieces expands.bracedOnly isBody front rest same)

theorem below_of_dependsOn {value result name : Text} {height : Nat}
    (expands : Expands table value result height) (depends : DependsOn table value name) :
    ∃ replacement inner lower, table.value? name = some replacement ∧
      Expands table replacement inner lower ∧ lower < height := by
  induction depends generalizing result height with
  | direct refers => exact expands.below_of_refersTo refers
  | through refers known _ ih =>
    obtain ⟨replacement, inner, lower, found, within, less⟩ := expands.below_of_refersTo refers
    rw [known] at found
    cases found
    obtain ⟨replacement, inner, lowest, found, within, lesser⟩ := ih within
    exact ⟨replacement, inner, lowest, found, within, by omega⟩

end Expands

/-- The value of a name on a cycle has no finite tree, as it would hold a smaller one of itself. -/
theorem OnCycle.not_expands {table : Table} {name value : Text} (cycle : OnCycle table name)
    (known : table.value? name = some value) (result : Text) (height : Nat) :
    ¬ Expands table value result height := by
  obtain ⟨same, found, depends⟩ := cycle
  rw [known] at found
  cases found
  induction height using Nat.strongRecOn generalizing result with
  | ind height ih =>
    intro expands
    obtain ⟨replacement, inner, lower, found, within, less⟩ := expands.below_of_dependsOn depends
    rw [known] at found
    cases found
    exact ih lower less inner within

theorem not_expands_of_dependsOn {table : Table} {name value : Text}
    (depends : DependsOn table value name) (cycle : OnCycle table name) (result : Text)
    (height : Nat) : ¬ Expands table value result height := by
  intro expands
  obtain ⟨replacement, inner, lower, known, within, -⟩ := expands.below_of_dependsOn depends
  exact cycle.not_expands known inner lower within

/-- A reference that its own name replaces by the reference itself is never done. -/
theorem ne_bracedText_of_expands {table : Table} {body replacement result : Text} {height : Nat}
    (isBody : IsBody body) (known : table.value? (bracedKey body) = some replacement)
    (expands : Expands table replacement result height) : replacement ≠ bracedText body := by
  rintro rfl
  have refers : RefersTo (bracedText body) (bracedKey body) :=
    ⟨body, [], [], isBody, by simp, rfl⟩
  have cycle : OnCycle table (bracedKey body) := ⟨bracedText body, known, .direct refers⟩
  exact cycle.not_expands known result height expands

/-! One level of resolving, piece by piece. -/

section Levels

variable {table : Table} (values : ∀ name value, table.get? name = some value → BracedOnly value)
include values

theorem bracedOnly_of_value? {name value : Text} (known : table.value? name = some value) :
    BracedOnly value := by
  obtain ⟨found, -⟩ := Option.filter_eq_some_iff.mp known
  exact values name value found

theorem bracedOnly_replaceBraced {resolve : Text → Text}
    (resolved : ∀ value, BracedOnly value → BracedOnly (resolve value)) {value : Text}
    (braced : BracedOnly value) : BracedOnly (replaceBraced table resolve value) := by
  refine braced.induction ?nil ?plain ?reference
  case nil =>
    rw [replaceBraced_nil]
    exact BracedOnly.nil
  case plain =>
    intro c rest plain _ ih
    rw [replaceBraced_cons table resolve plain]
    exact ih.cons plain
  case reference =>
    intro body rest isBody _ ih
    rw [replaceBraced_bracedText table resolve isBody]
    refine BracedOnly.append ?_ ih
    cases found : bracedValue? table body with
    | none =>
      rw [replaceBody, found]
      exact BracedOnly.bracedText isBody
    | some replacement =>
      rw [replaceBody, found]
      obtain ⟨-, known, -⟩ := (bracedValue?_eq_some_iff isBody).mp found
      exact resolved replacement (bracedOnly_of_value? values known)

theorem bracedOnly_expand (levels : Nat) {value : Text} (braced : BracedOnly value) :
    BracedOnly (expand table levels value) := by
  induction levels generalizing value with
  | zero => exact braced
  | succ levels ih =>
    have replaced := bracedOnly_replaceBraced values (fun _ inner => ih inner) braced
    rw [expand, replaceNames_of_bracedOnly table _ replaced]
    exact replaced

theorem expand_succ (levels : Nat) {value : Text} (braced : BracedOnly value) :
    expand table (levels + 1) value = replaceBraced table (expand table levels) value := by
  rw [expand]
  apply replaceNames_of_bracedOnly
  exact bracedOnly_replaceBraced values (fun _ inner => bracedOnly_expand values levels inner) braced

theorem expand_cons (levels : Nat) {c : Char} {rest : Text} (plain : c ≠ '$')
    (braced : BracedOnly (c :: rest)) :
    expand table levels (c :: rest) = c :: expand table levels rest := by
  cases levels with
  | zero => rfl
  | succ levels =>
    rw [expand_succ values levels braced, expand_succ values levels braced.tail,
      replaceBraced_cons table _ plain]

theorem expand_bracedText (levels : Nat) {body rest : Text} (isBody : IsBody body)
    (braced : BracedOnly (bracedText body ++ rest)) :
    expand table (levels + 1) (bracedText body ++ rest) =
      replaceBody table (expand table levels) body ++ expand table (levels + 1) rest := by
  rw [expand_succ values levels braced, expand_succ values levels braced.of_append,
    replaceBraced_bracedText table _ isBody]

/-- What resolving leaves without a `$` has a finite tree, no higher than the levels it took. -/
theorem expands_of_not_mem_expand (levels : Nat) {value : Text} (braced : BracedOnly value)
    (finished : '$' ∉ expand table levels value) :
    ∃ height, Expands table value (expand table levels value) height ∧ height ≤ levels := by
  induction levels generalizing value with
  | zero => exact ⟨0, Expands.of_not_mem finished, Nat.le_refl 0⟩
  | succ levels deeper =>
    revert finished
    refine braced.induction ?nil ?plain ?reference
    case nil =>
      intro _
      have empty : expand table (levels + 1) [] = [] := by
        rw [expand_succ values levels BracedOnly.nil, replaceBraced_nil]
      rw [empty]
      exact ⟨0, .nil, Nat.zero_le _⟩
    case plain =>
      intro c rest plain braced ih finished
      have step := expand_cons values (levels + 1) plain (braced.cons plain)
      rw [step] at finished ⊢
      obtain ⟨height, expands, bound⟩ := ih (List.not_mem_of_not_mem_cons finished)
      exact ⟨height, .plain plain expands, bound⟩
    case reference =>
      intro body rest isBody braced ih finished
      have step := expand_bracedText values levels isBody ((BracedOnly.bracedText isBody).append braced)
      rw [step] at finished ⊢
      rw [List.mem_append, not_or] at finished
      obtain ⟨later, behind, laterBound⟩ := ih finished.2
      cases found : bracedValue? table body with
      | none =>
        rw [replaceBody, found] at finished
        exact absurd List.mem_cons_self finished.1
      | some replacement =>
        obtain ⟨named, known, -⟩ := (bracedValue?_eq_some_iff isBody).mp found
        rw [replaceBody, found] at finished ⊢
        obtain ⟨height, below, bound⟩ :=
          deeper (bracedOnly_of_value? values known) finished.1
        refine ⟨max (height + 1) later, .reference isBody named known below behind, ?_⟩
        omega

/-- A finite tree is followed to its end by every number of levels that reaches its height. -/
theorem expand_of_expands {value result : Text} {height levels : Nat}
    (expands : Expands table value result height) (bound : height ≤ levels) :
    expand table levels value = result := by
  induction expands generalizing levels with
  | nil =>
    cases levels with
    | zero => rfl
    | succ levels => rw [expand_succ values levels BracedOnly.nil, replaceBraced_nil]
  | plain notDollar behind ih =>
    rw [expand_cons values levels notDollar (behind.bracedOnly.cons notDollar), ih bound]
  | @reference body replacement inner rest result lower later isBody named known below behind inside ih =>
    obtain ⟨levels, rfl⟩ : ∃ fewer, levels = fewer + 1 := ⟨levels - 1, by omega⟩
    have found : bracedValue? table body = some replacement :=
      (bracedValue?_eq_some_iff isBody).mpr ⟨named, known, ne_bracedText_of_expands isBody known below⟩
    have braced := (BracedOnly.bracedText isBody).append behind.bracedOnly
    rw [expand_bracedText values levels isBody braced, replaceBody, found, ih (by omega)]
    simp only [inside (show lower ≤ levels by omega)]

theorem resolveTo_natCast (depth : Nat) (value : Text) :
    resolveTo depth table value = expand table (depth + 1) value := by
  by_cases dollar : '$' ∈ value
  · rw [resolveTo, if_pos (List.contains_iff_mem.mpr dollar)]
    rfl
  · rw [resolveTo, if_neg (by simp [dollar])]
    exact (expand_of_expands values (.of_not_mem dollar) (Nat.zero_le _)).symm

theorem hasReference_resolveTo_iff (depth : Nat) {value : Text} (braced : BracedOnly value) :
    hasReference (resolveTo depth table value) = false ↔
      ∃ result height, Expands table value result height ∧ height ≤ depth + 1 := by
  have whole := bracedOnly_expand values (depth + 1) braced
  rw [resolveTo_natCast values, hasReference_eq_false_iff whole]
  refine ⟨fun finished => ?_, ?_⟩
  · obtain ⟨height, expands, bound⟩ := expands_of_not_mem_expand values (depth + 1) braced finished
    exact ⟨expand table (depth + 1) value, height, expands, bound⟩
  · rintro ⟨result, height, expands, bound⟩
    rw [expand_of_expands values expands bound]
    exact expands.not_mem

end Levels

/-- `a` leads to `b`, which is plain, while `c` and `d` lead to each other. -/
def linkedTable : Table :=
  ⟨[("a", '1' :: bracedText "b"), ("b", "2"), ("c", bracedText "d"), ("d", '-' :: bracedText "c")]⟩

end GradlePublishing.Property
