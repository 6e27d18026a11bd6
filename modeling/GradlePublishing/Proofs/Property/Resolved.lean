import GradlePublishing.Proofs.Property.Names
import GradlePublishing.Proofs.Table

/-!
What resolving leaves as it is. A value is checked for references with one pattern, and its references are
read with two others; the three agree (`hasReference_eq_false_iff_plain`). So a value that passes the check
is read as plain characters and stays the same, with any properties and to any depth
(`resolveTo_of_hasReference_eq_false`). A value that is not empty does not become empty (`resolve_ne_nil`).
-/

namespace GradlePublishing.Property

open GradlePublishing.Script

/-- Behind an opening brace something is read up to the closing one, unless that comes at once. -/
theorem closing_mem_iff {s : Text} :
    '}' ∈ s ↔ (bracedBody? ('{' :: s)).isSome = true ∨ ['{', '}'] <+: '{' :: s := by
  constructor
  · intro closed
    obtain ⟨front, rest, rfl, first⟩ := List.eq_append_cons_of_mem closed
    cases front with
    | nil => exact .inr ⟨rest, rfl⟩
    | cons c front =>
      left
      rw [← List.cons_append, bracedBody?_eq_some (List.cons_ne_nil c front) first rest]
      rfl
  · rintro (read | empty)
    · obtain ⟨⟨body, rest⟩, found⟩ := Option.isSome_iff_exists.mp read
      have whole := (List.cons.inj (eq_of_bracedBody? found)).2
      rw [whole]
      exact List.mem_append_right body List.mem_cons_self
    · obtain ⟨rest, same⟩ := empty
      exact (List.cons.inj same).2 ▸ List.mem_cons_self

/-- What the check takes for a reference is what one of the two readers takes for one, or empty braces. -/
theorem opensReference_iff {s : Text} :
    opensReference s = true ↔
      (bracedBody? s).isSome = true ∨ (dottedNames s).1 ≠ [] ∨ ['{', '}'] <+: s := by
  match s with
  | [] =>
    have unnamed : dottedNames [] = ([], []) := dottedNames_of_head? nofun
    simp [opensReference, bracedBody?, unnamed]
  | c :: s =>
    rw [dottedNames_cons_ne_nil_iff]
    by_cases brace : c = '{'
    · subst brace
      have unnamed : startsName '{' = false := by decide
      rw [opensReference, List.contains_iff_mem, closing_mem_iff, unnamed]
      simp
    · have unread := bracedBody?_cons brace s
      rw [opensReference, unread]
      · simp [startsName, Ne.symm brace]
      · exact brace

/-! Each `$` of a value is looked at by itself. -/

theorem bracedPieces_cons_eq_iff {c : Char} {s : Text} :
    bracedPieces (c :: s) = (c :: s).map .plain ↔
      (c = '$' → bracedBody? s = none) ∧ bracedPieces s = s.map .plain := by
  by_cases dollar : c = '$'
  · subst dollar
    cases read : bracedBody? s with
    | none => simp [bracedPieces_absent read]
    | some found =>
      obtain ⟨body, rest⟩ := found
      simp [bracedPieces_found read]
  · simp [bracedPieces_cons dollar, dollar]

theorem namePieces_cons_eq_iff {c : Char} {s : Text} :
    namePieces (c :: s) = (c :: s).map .plain ↔
      (c = '$' → (dottedNames s).1 = []) ∧ namePieces s = s.map .plain := by
  by_cases dollar : c = '$'
  · subst dollar
    rw [namePieces_dollar]
    by_cases unnamed : (dottedNames s).1 = []
    · simp [unnamed]
    · simp [unnamed]
  · simp [namePieces_cons dollar, dollar]

theorem bracedText_nil_infix_cons_iff {c : Char} {s : Text} :
    bracedText [] <:+: c :: s ↔ (c = '$' ∧ ['{', '}'] <+: s) ∨ bracedText [] <:+: s := by
  have whole : bracedText [] = ['$', '{', '}'] := rfl
  rw [List.infix_cons_iff, whole, List.cons_prefix_cons, eq_comm]

/-- The check and the two readers agree on every value: no reference is found in it exactly when both read
plain characters only and no braces stand empty behind a `$`. -/
theorem hasReference_eq_false_iff_plain {value : Text} :
    hasReference value = false ↔ bracedPieces value = value.map .plain ∧
      namePieces value = value.map .plain ∧ ¬ bracedText [] <:+: value := by
  induction value with
  | nil => simp [hasReference, bracedPieces, namePieces, bracedText]
  | cons c s ih =>
    have here : opensReference s = false ↔
        bracedBody? s = none ∧ (dottedNames s).1 = [] ∧ ¬ ['{', '}'] <+: s := by
      rw [← Bool.not_eq_true, opensReference_iff]
      simp
    rw [bracedPieces_cons_eq_iff, namePieces_cons_eq_iff, bracedText_nil_infix_cons_iff,
      hasReference_cons, Bool.or_eq_false_iff, ih]
    by_cases dollar : c = '$'
    · simp only [dollar, beq_self_eq_true, Bool.true_and, here, forall_const, true_and]
      tauto
    · simp [dollar]

section

variable (table : Table) (resolve : Text → Text) {value : Text}

theorem replaceBraced_of_plain (plain : bracedPieces value = value.map .plain) :
    replaceBraced table resolve value = value := by
  rw [replaceBraced, plain, List.flatMap_map]
  exact List.flatMap_singleton' value

theorem replaceNames_of_plain (plain : namePieces value = value.map .plain) :
    replaceNames table resolve value = value := by
  rw [replaceNames, plain, List.flatMap_map]
  exact List.flatMap_singleton' value

/-- Both passes leave a value without a reference as it is, so every further level does too. -/
theorem expand_of_hasReference_eq_false (levels : Nat) (closed : hasReference value = false) :
    expand table levels value = value := by
  obtain ⟨braced, named, -⟩ := hasReference_eq_false_iff_plain.mp closed
  cases levels with
  | zero => rfl
  | succ levels =>
    rw [expand, replaceBraced_of_plain table _ braced, replaceNames_of_plain table _ named]

theorem resolveTo_of_hasReference_eq_false (depth : Int) (closed : hasReference value = false) :
    resolveTo depth table value = value := by
  unfold resolveTo
  split
  · exact expand_of_hasReference_eq_false table _ closed
  · rfl

end

/-! No value vanishes: a reference is replaced by the value of a property, and none of these is empty. -/

section

variable {table : Table}

theorem exists_value?_of_bracedValue? {body value : Text} (found : bracedValue? table body = some value) :
    ∃ name, table.value? name = some value := by
  unfold bracedValue? at found
  dsimp only at found
  split at found
  · cases found
  · split at found
    · cases found
    · exact ⟨bracedKey body, (Option.filter_eq_some_iff.mp found).1⟩

theorem exists_value?_of_longestKnown? {names behind : List Text} {count : Nat} {value : Text}
    (found : longestKnown? table names count = some (value, behind)) :
    ∃ name, table.value? name = some value := by
  induction count with
  | zero => cases found
  | succ count ih =>
    rw [longestKnown?] at found
    split at found
    · rename_i known
      cases found
      exact ⟨_, (Option.filter_eq_some_iff.mp known).1⟩
    · exact ih found

theorem exists_value?_of_nameValue? {names behind : List Text} {value : Text}
    (found : nameValue? table names = some (value, behind)) : ∃ name, table.value? name = some value := by
  unfold nameValue? at found
  dsimp only at found
  split at found
  · rename_i first
    split at found
    · cases found
    · cases found
      obtain ⟨name, -, known⟩ := List.exists_of_findSome?_eq_some first
      exact ⟨name, known⟩
  · exact exists_value?_of_longestKnown? found

theorem ne_nil_of_value? {value : Text} (known : ∃ name, table.value? name = some value) : value ≠ [] := by
  rintro rfl
  obtain ⟨name, empty⟩ := known
  exact table.value?_ne_nil name empty

theorem bracedPieces_ne_nil {value : Text} (filled : value ≠ []) : bracedPieces value ≠ [] := by
  match value with
  | [] => exact absurd rfl filled
  | c :: s =>
    by_cases dollar : c = '$'
    · subst dollar
      cases read : bracedBody? s with
      | none => simp [bracedPieces_absent read]
      | some found => simp [bracedPieces_found read]
    · simp [bracedPieces_cons dollar]

theorem namePieces_ne_nil {value : Text} (filled : value ≠ []) : namePieces value ≠ [] := by
  match value with
  | [] => exact absurd rfl filled
  | c :: s =>
    by_cases dollar : c = '$'
    · subst dollar
      rw [namePieces_dollar]
      split <;> exact List.cons_ne_nil _ _
    · simp [namePieces_cons dollar]

section Kept

variable {resolve : Text → Text} (kept : ∀ value, value ≠ [] → resolve value ≠ []) {value : Text}
  (filled : value ≠ [])

include kept filled

theorem replaceBraced_ne_nil : replaceBraced table resolve value ≠ [] := by
  obtain ⟨piece, more, pieces⟩ := List.exists_cons_of_ne_nil (bracedPieces_ne_nil filled)
  rw [replaceBraced, pieces, List.flatMap_cons]
  apply List.append_ne_nil_of_left_ne_nil
  cases piece with
  | plain c => exact List.cons_ne_nil c []
  | reference body =>
    dsimp only
    split
    · rename_i found
      exact kept _ (ne_nil_of_value? (exists_value?_of_bracedValue? found))
    · exact List.cons_ne_nil _ _

theorem replaceNames_ne_nil : replaceNames table resolve value ≠ [] := by
  obtain ⟨piece, more, pieces⟩ := List.exists_cons_of_ne_nil (namePieces_ne_nil filled)
  rw [replaceNames, pieces, List.flatMap_cons]
  apply List.append_ne_nil_of_left_ne_nil
  cases piece with
  | plain c => exact List.cons_ne_nil c []
  | reference names =>
    dsimp only
    split
    · rename_i found
      have replaced := kept _ (ne_nil_of_value? (exists_value?_of_nameValue? found))
      exact List.append_ne_nil_of_left_ne_nil replaced _
    · exact List.cons_ne_nil _ _

end Kept

theorem expand_ne_nil (levels : Nat) {value : Text} (filled : value ≠ []) :
    expand table levels value ≠ [] := by
  induction levels generalizing value with
  | zero => exact filled
  | succ levels ih =>
    have replaced : replaceBraced table (expand table levels) value ≠ [] :=
      replaceBraced_ne_nil (fun _ => ih) filled
    exact replaceNames_ne_nil (fun _ => ih) replaced

theorem resolveTo_ne_nil (depth : Int) {value : Text} (filled : value ≠ []) :
    resolveTo depth table value ≠ [] := by
  unfold resolveTo
  split
  · exact expand_ne_nil _ filled
  · exact filled

end

/-! Resolving to the depth in the settings, which is looked up for a value with a `$` only. -/

section

variable {settings : Settings} {table : Table} {written value : Text}

theorem resolve_eq_ok_iff :
    resolve settings table written = .ok value ↔ ('$' ∉ written ∧ written = value) ∨
      '$' ∈ written ∧ ∃ depth, settings.maxPropertyDepth = .ok depth ∧
        resolveTo depth table written = value := by
  by_cases dollar : '$' ∈ written
  · rw [resolve, if_pos (List.contains_iff_mem.mpr dollar)]
    cases settings.maxPropertyDepth <;> simp [Except.map, dollar]
  · rw [resolve, if_neg (by simpa using dollar)]
    simp [dollar]

theorem resolve_ne_nil (filled : written ≠ [])
    (resolved : resolve settings table written = .ok value) : value ≠ [] := by
  rcases resolve_eq_ok_iff.mp resolved with ⟨-, rfl⟩ | ⟨-, depth, -, rfl⟩
  · exact filled
  · exact resolveTo_ne_nil depth filled

/-- Where a resolved value still holds a `$`, the depth in the settings was looked up. -/
theorem exists_depth_of_resolve (resolved : resolve settings table written = .ok value)
    (dollar : '$' ∈ value) : ∃ depth, settings.maxPropertyDepth = .ok depth := by
  rcases resolve_eq_ok_iff.mp resolved with ⟨plain, rfl⟩ | ⟨-, depth, readable, -⟩
  · exact absurd dollar plain
  · exact ⟨depth, readable⟩

theorem resolve_of_hasReference_eq_false (closed : hasReference value = false)
    (readable : '$' ∈ value → ∃ depth, settings.maxPropertyDepth = .ok depth) :
    resolve settings table value = .ok value := by
  by_cases dollar : '$' ∈ value
  · obtain ⟨depth, known⟩ := readable dollar
    have same := resolveTo_of_hasReference_eq_false table depth closed
    exact resolve_eq_ok_iff.mpr (.inr ⟨dollar, depth, known, same⟩)
  · exact resolve_eq_ok_iff.mpr (.inl ⟨dollar, rfl⟩)

end

end GradlePublishing.Property
