import GradlePublishing.Proofs.Script.Quoted

/-!
What readers take from a line in front of a quoted piece. It is a run of characters that are code wherever
they stand and neither end the line nor open or close a block nor hide what follows them (`isOrdinary`), so
the piece starts where a literal starts.
-/

namespace GradlePublishing.Script

/-- Whether a character is code wherever it stands, and neither a brace nor a backslash nor a line break. -/
def isOrdinary (c : Char) : Bool := isPlain c && !(['{', '}', '\\', '\n'].contains c)

theorem isOrdinary_eq_true_iff {c : Char} : isOrdinary c = true ↔
    isPlain c = true ∧ c ≠ '{' ∧ c ≠ '}' ∧ c ≠ '\\' ∧ c ≠ '\n' := by
  simp [isOrdinary]

theorem isQuote_of_isOrdinary {c : Char} (ordinary : isOrdinary c = true) : Text.isQuote c = false := by
  have plain := (isOrdinary_eq_true_iff.mp ordinary).1
  rw [isPlain, Bool.and_eq_true, Bool.not_eq_true'] at plain
  exact plain.1

theorem exists_gap_append (s : Text) : ∃ gap : Gap, s = gap.val ++ skipGap s :=
  ⟨⟨s.takeWhile isGap, fun _ => List.mem_takeWhile_imp⟩, List.takeWhile_append_dropWhile.symm⟩

def PassesOver (passes : Char → Bool) (s rest : Text) : Prop :=
  ∃ lead, (∀ c ∈ lead, passes c = true) ∧ s = lead ++ rest

namespace PassesOver

variable {passes : Char → Bool} {s rest more piece : Text}

theorem refl (s : Text) : PassesOver passes s s := ⟨[], List.forall_mem_nil _, rfl⟩

theorem trans (first : PassesOver passes s rest) (later : PassesOver passes rest more) :
    PassesOver passes s more := by
  obtain ⟨lead, passed, rfl⟩ := first
  obtain ⟨next, passed', rfl⟩ := later
  exact ⟨lead ++ next, List.forall_mem_append.mpr ⟨passed, passed'⟩, (List.append_assoc _ _ _).symm⟩

theorem cons {c : Char} (passed : passes c = true) (s : Text) : PassesOver passes (c :: s) s :=
  ⟨[c], List.forall_mem_singleton.mpr passed, rfl⟩

theorem of_after? (passed : piece.all passes = true) (found : Text.after? piece s = some rest) :
    PassesOver passes s rest := ⟨piece, List.all_eq_true.mp passed, Text.after?_eq_some_iff.mp found⟩

theorem skipOptional (passed : piece.all passes = true) (s : Text) :
    PassesOver passes s (skipOptional piece s) := by
  unfold Script.skipOptional
  cases found : Text.after? piece s with
  | none => exact refl s
  | some rest => exact of_after? passed found

theorem skipGap (space : passes ' ' = true) (tab : passes '\t' = true) (s : Text) :
    PassesOver passes s (skipGap s) := by
  obtain ⟨gap, whole⟩ := exists_gap_append s
  refine ⟨gap.val, fun c member => ?_, whole⟩
  rcases isGap_eq_true_iff.mp (gap.property c member) with rfl | rfl
  · exact space
  · exact tab

end PassesOver

/-- A text goes on with `rest` behind ordinary characters, that is `PassesOver isOrdinary`. -/
def GoesOnWith (s rest : Text) : Prop := ∃ lead, (∀ c ∈ lead, isOrdinary c = true) ∧ s = lead ++ rest

/-- A text starts with a piece in quotes, which is not empty, and goes on with `rest`. -/
def StartsQuoted (s piece rest : Text) : Prop :=
  ∃ quote, Text.isQuote quote = true ∧ piece ≠ [] ∧ quote ∉ piece ∧ '\n' ∉ piece ∧
    s = quote :: (piece ++ quote :: rest)

theorem startsQuoted_of_quotedValue? {s piece rest : Text} (read : quotedValue? s = some (piece, rest)) :
    StartsQuoted s piece rest := by
  unfold quotedValue? at read
  split at read
  · next c value behind found =>
    cases read
    obtain ⟨quote, quotes, unquoted, single, text⟩ := eq_of_quotedPiece? found
    exact ⟨quote, quotes, List.cons_ne_nil c value, unquoted, single, text⟩
  · cases read

end GradlePublishing.Script
