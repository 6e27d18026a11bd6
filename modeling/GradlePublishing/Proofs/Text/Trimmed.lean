import GradlePublishing.Text.Basic
import Mathlib.Data.List.DropRight

/-!
Texts that cleaning leaves alone. Stripping changes nothing exactly if there is no blank at either end,
and taking quotes away besides changes nothing exactly if none enclose the text (`clean_eq_self_iff`).
-/

namespace GradlePublishing.Text

/-- No blank at either end. -/
structure IsTrimmed (s : Text) : Prop where
  start : ∀ c, s.head? = some c → isBlank c = false
  finish : ∀ c, s.getLast? = some c → isBlank c = false

def IsEnclosed (s : Text) : Prop :=
  ∃ quote inner, isQuote quote = true ∧ s = quote :: inner ++ [quote]

theorem stripEnd_eq_rdropWhile (s : Text) : stripEnd s = s.rdropWhile isBlank := rfl

theorem strip_isInfix (s : Text) : strip s <:+: s := by
  rw [strip, stripEnd_eq_rdropWhile]
  exact (List.rdropWhile_prefix _ _).isInfix.trans (List.dropWhile_suffix _).isInfix

theorem stripEnd_append (s t : Text) :
    stripEnd (s ++ t) = if stripEnd t = [] then stripEnd s else s ++ stripEnd t := by
  simp only [stripEnd, dropEndWhile, List.reverse_append, List.dropWhile_append,
    List.reverse_eq_nil_iff, List.isEmpty_iff]
  split <;> simp

/-- What stands before a text is not touched if it ends in something else than a blank. -/
theorem stripEnd_append_of_kept {s : Text} (t : Text) (kept : stripEnd s = s) :
    stripEnd (s ++ t) = s ++ stripEnd t := by
  rw [stripEnd_append, kept]
  split
  · rename_i blank
    rw [blank, List.append_nil]
  · rfl

theorem stripStart_eq_self_iff {s : Text} :
    stripStart s = s ↔ ∀ c, s.head? = some c → isBlank c = false := by
  cases s with
  | nil => simp [stripStart]
  | cons c s => simp [stripStart, List.dropWhile_eq_self_iff]

theorem stripEnd_eq_self_iff {s : Text} :
    stripEnd s = s ↔ ∀ c, s.getLast? = some c → isBlank c = false := by
  rw [stripEnd_eq_rdropWhile, List.rdropWhile_eq_self_iff]
  refine ⟨fun kept c last => ?_, fun kept nonempty => ?_⟩
  · obtain ⟨front, rfl⟩ := List.getLast?_eq_some_iff.mp last
    simpa using kept (List.append_ne_nil_of_right_ne_nil front (List.cons_ne_nil c []))
  · simpa using kept _ (List.getLast?_eq_some_getLast nonempty)

theorem strip_eq_self_iff {s : Text} : strip s = s ↔ s.IsTrimmed := by
  constructor
  · intro kept
    have started : stripStart s = s := by
      apply (List.dropWhile_suffix isBlank).eq_of_length
      have whole := (List.rdropWhile_prefix isBlank (stripStart s)).length_le
      rw [← stripEnd_eq_rdropWhile, ← strip, kept] at whole
      exact Nat.le_antisymm (List.dropWhile_suffix isBlank).length_le whole
    rw [strip, started] at kept
    exact ⟨stripStart_eq_self_iff.mp started, stripEnd_eq_self_iff.mp kept⟩
  · intro trimmed
    rw [strip, stripStart_eq_self_iff.mpr trimmed.start, stripEnd_eq_self_iff.mpr trimmed.finish]

theorem stripStart_stripEnd (s : Text) : stripStart (stripEnd s) = stripEnd (stripStart s) := by
  induction s with
  | nil => rfl
  | cons c s ih =>
    have whole : stripEnd (c :: s) = stripEnd ([c] ++ s) := rfl
    by_cases blank : isBlank c = true
    · have dropped : ∀ t, stripStart (c :: t) = stripStart t := fun t =>
        List.dropWhile_cons_of_pos blank
      have vanished : stripEnd [c] = [] := by simp [stripEnd, dropEndWhile, blank]
      rw [dropped, ← ih, whole, stripEnd_append, vanished]
      split
      · rename_i empty
        rw [empty]
      · exact dropped _
    · have kept : ∀ t, stripStart (c :: t) = c :: t := fun t => List.dropWhile_cons_of_neg blank
      have stays : stripEnd [c] = [c] := by simp [stripEnd, dropEndWhile, blank]
      rw [kept, whole, stripEnd_append_of_kept s stays]
      exact kept _

theorem strip_stripEnd (s : Text) : strip (stripEnd s) = strip s := by
  calc
    _ = stripEnd (stripEnd (stripStart s)) := by rw [strip, stripStart_stripEnd]
    _ = strip s := List.rdropWhile_idempotent isBlank _

theorem strip_strip (s : Text) : strip (strip s) = strip s := by
  have started : stripStart (stripStart s) = stripStart s := List.dropWhile_idempotent isBlank _
  calc
    _ = strip (stripStart s) := strip_stripEnd (stripStart s)
    _ = strip s := by rw [strip, started, strip]

theorem isTrimmed_strip (s : Text) : (strip s).IsTrimmed := strip_eq_self_iff.mp (strip_strip s)

/-- A text either stands in quotes and loses them, or it is left alone. -/
theorem unquote_cases (s : Text) :
    (∃ quote inner, isQuote quote = true ∧ s = quote :: inner ++ [quote] ∧ unquote s = inner) ∨
      ¬ s.IsEnclosed ∧ unquote s = s := by
  by_cases enclosed : s.IsEnclosed
  · obtain ⟨quote, inner, isQuoted, rfl⟩ := enclosed
    exact .inl ⟨quote, inner, isQuoted, rfl, by simp [unquote, isQuoted]⟩
  refine .inr ⟨enclosed, ?_⟩
  cases s with
  | nil => rfl
  | cons quote rest =>
    refine if_neg fun around => enclosed ?_
    rw [Bool.and_eq_true, beq_iff_eq] at around
    have ends : rest.dropLast ++ [quote] = rest := List.dropLast_append_getLast? quote around.2
    exact ⟨quote, rest.dropLast, around.1, congrArg (quote :: ·) ends.symm⟩

theorem length_unquote_le (s : Text) : (unquote s).length ≤ s.length := by
  rcases unquote_cases s with ⟨quote, inner, -, whole, bare⟩ | ⟨-, bare⟩
  · rw [bare, whole]
    simp only [List.cons_append, List.length_cons, List.length_append]
    omega
  · rw [bare]

theorem unquote_eq_self_iff {s : Text} : unquote s = s ↔ ¬ s.IsEnclosed := by
  rcases unquote_cases s with ⟨quote, inner, isQuoted, whole, bare⟩ | ⟨enclosed, bare⟩
  · have shorter : inner ≠ s := by
      intro same
      have lengths := congrArg List.length (same.trans whole)
      simp only [List.cons_append, List.length_cons, List.length_append] at lengths
      omega
    simp only [bare, shorter, false_iff, not_not]
    exact ⟨quote, inner, isQuoted, whole⟩
  · simp only [bare, enclosed, not_false_eq_true]

/-- What is cleaned in both ways stays as it is only if it needs neither. -/
theorem clean_eq_self_iff {s : Text} :
    unquote (strip s) = s ↔ s.IsTrimmed ∧ ¬ s.IsEnclosed := by
  constructor
  · intro kept
    have stripped : strip s = s := by
      apply (strip_isInfix s).eq_of_length
      have shorter := length_unquote_le (strip s)
      rw [kept] at shorter
      exact Nat.le_antisymm (strip_isInfix s).length_le shorter
    rw [stripped] at kept
    exact ⟨strip_eq_self_iff.mp stripped, unquote_eq_self_iff.mp kept⟩
  · rintro ⟨trimmed, bare⟩
    rw [strip_eq_self_iff.mpr trimmed, unquote_eq_self_iff.mpr bare]

end GradlePublishing.Text
