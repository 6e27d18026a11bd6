import GradlePublishing.Coordinates.Assigned
import GradlePublishing.Proofs.Script.ByLine
import GradlePublishing.Proofs.Script.Depth

/-!
Assignments at the top level of a script into which a comment line is put. The mask of a comment is blank
and leaves the depth as it is, so the lines behind it are masked as before (`ofScript_insert`).
-/

namespace GradlePublishing

namespace Script

/-- Comments and line breaks are masked by blanks and line breaks, at every depth. -/
theorem maskFrom_append_blank {marks : Marked} (blank : IsBlank marks) (depth : Nat)
    (behind : Marked) : maskFrom depth (marks ++ behind) =
      marks.map (fun x => blankOut x.1) ++ maskFrom depth behind := by
  induction marks with
  | nil => rfl
  | cons x marks ih =>
    have rest := ih fun y member => blank y (List.mem_cons_of_mem x member)
    obtain ⟨c, kind⟩ := x
    rcases blank _ List.mem_cons_self with comment | same
    · obtain rfl : kind = .comment := comment
      simp [maskFrom, rest]
    · cases same
      simp [maskFrom, rest, blankOut]

theorem isGap_blankOut {c : Char} (other : blankOut c ≠ '\n') : isGap (blankOut c) = true := by
  unfold blankOut at other ⊢
  split at other
  · exact absurd rfl other
  · rw [if_neg ‹_›]
    rfl

variable {α : Type} {reader : Text → Option (α × Text)}

theorem statements_blank (blank : reader [] = none) (s : Text) :
    statements reader (s.map blankOut) = [] := by
  refine List.eq_nil_iff_forall_not_mem.mpr fun found member => ?_
  obtain ⟨c, here, notBreak, solid, -⟩ := char_of_mem_statements blank member
  rw [List.getElem?_map] at here
  obtain ⟨d, -, rfl⟩ := Option.map_eq_some_iff.mp here
  rw [isGap_blankOut notBreak] at solid
  cases solid

theorem map_value_statements_break (front behind : Text) :
    (statements reader (front ++ '\n' :: behind)).map Found.value =
      (statements reader front).map Found.value ++ (statements reader behind).map Found.value := by
  rw [statements_append_break, List.map_append, List.map_map]
  rfl

theorem map_value_statements_comment (blank : reader [] = none) {comment : Text}
    (line : CommentLine comment) (depth : Nat) (behind : Marked) :
    (statements reader (maskFrom depth (mark comment ++ behind))).map Found.value =
      (statements reader (maskFrom depth behind)).map Found.value := by
  obtain ⟨inside, marked, comments⟩ := line.mark_eq
  have blanks : IsBlank inside := fun x member => .inl (comments x member)
  have broken : IsBlank [('\n', .code)] := fun x member => .inr (List.mem_singleton.mp member)
  rw [marked, List.append_assoc, maskFrom_append_blank blanks, maskFrom_append_blank broken,
    ← Function.comp_def blankOut, ← List.map_map]
  exact (map_value_statements_break _ _).trans (by rw [statements_blank blank]; rfl)

/-- The statements at the top level of a script do not notice a comment line. -/
theorem map_value_statements_mask (blank : reader [] = none) {front comment : Text}
    (ends : EndsLine front) (line : CommentLine comment) (behind : Text) :
    (statements reader (mask (front ++ comment ++ behind))).map Found.value =
      (statements reader (mask (front ++ behind))).map Found.value := by
  rw [mask, mask, List.append_assoc, mark_append ends, mark_append line.endsLine, mark_append ends]
  rcases ends with rfl | ⟨before, marked⟩
  · rw [mark_nil, List.nil_append, List.nil_append, map_value_statements_comment blank line]
  · have broken : IsBlank [('\n', .code)] := fun x member => .inr (List.mem_singleton.mp member)
    have cut (rest : Marked) : maskFrom 0 (mark front ++ rest) =
        maskFrom 0 before ++ '\n' :: maskFrom (depthBehind 0 before) rest := by
      rw [marked, List.append_assoc, maskFrom_append, maskFrom_append_blank broken]
      rfl
    rw [cut, cut, map_value_statements_break, map_value_statements_break,
      map_value_statements_comment blank line]

end Script

namespace Coordinates

open Script

theorem ofScript_insert {front comment : Text} (ends : EndsLine front) (line : CommentLine comment)
    (behind : Text) : ofScript (front ++ comment ++ behind) = ofScript (front ++ behind) := by
  -- Only what is read counts, and not where.
  have values (content : Text) : ofScript content =
      ((statements assignment? (mask content)).map Found.value).foldl
        (fun assigned found =>
          let value := Text.strip found.2
          if value.isEmpty then assigned else assigned.set found.1 value) {} := by
    rw [List.foldl_map]
    rfl
  rw [values, values, map_value_statements_mask rfl ends line]

end Coordinates

end GradlePublishing
