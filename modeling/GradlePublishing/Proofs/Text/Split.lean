import GradlePublishing.Text.Basic
import Mathlib.Data.List.Basic
import Mathlib.Data.List.TakeWhile

/-!
Texts cut at a separator and put together again, and pieces that a text starts with or has inside.
-/

namespace GradlePublishing.Text

theorem not_mem_of_mem_splitOn {separator : Char} {piece s : Text}
    (member : piece ∈ s.splitOn separator) : separator ∉ piece := by
  induction s generalizing piece with
  | nil =>
    rw [List.splitOn_nil] at member
    rw [List.mem_singleton.mp member]
    exact List.not_mem_nil
  | cons c s ih =>
    rw [List.splitOn_cons_eq_if_modifyHead] at member
    by_cases here : c = separator
    · rw [if_pos (by simpa using here)] at member
      rcases List.mem_cons.mp member with rfl | later
      · exact List.not_mem_nil
      · exact ih later
    · rw [if_neg (by simpa using here)] at member
      obtain ⟨first, more, pieces⟩ := List.exists_cons_of_ne_nil (List.splitOn_ne_nil separator s)
      rw [pieces] at member ih
      rw [List.modifyHead_cons] at member
      rcases List.mem_cons.mp member with rfl | later
      · rw [List.mem_cons, not_or]
        exact ⟨Ne.symm here, ih List.mem_cons_self⟩
      · exact ih (List.mem_cons_of_mem first later)

theorem exists_mem_splitOn {c separator : Char} {s : Text} (member : c ∈ s) (other : c ≠ separator) :
    ∃ piece ∈ s.splitOn separator, c ∈ piece := by
  induction s with
  | nil => cases member
  | cons first s ih =>
    rw [List.splitOn_cons_eq_if_modifyHead]
    by_cases here : first = separator
    · rw [if_pos (by simpa using here)]
      have later : c ∈ s := (List.mem_cons.mp member).resolve_left fun same => other (same.trans here)
      obtain ⟨piece, inside, held⟩ := ih later
      exact ⟨piece, List.mem_cons_of_mem _ inside, held⟩
    · rw [if_neg (by simpa using here)]
      obtain ⟨head, more, pieces⟩ := List.exists_cons_of_ne_nil (List.splitOn_ne_nil separator s)
      rw [pieces, List.modifyHead_cons]
      rcases List.mem_cons.mp member with rfl | later
      · exact ⟨_, List.mem_cons_self, List.mem_cons_self⟩
      · obtain ⟨piece, inside, held⟩ := ih later
        rw [pieces] at inside
        rcases List.mem_cons.mp inside with rfl | behind
        · exact ⟨_, List.mem_cons_self, List.mem_cons_of_mem _ held⟩
        · exact ⟨piece, List.mem_cons_of_mem _ behind, held⟩

theorem joinWith_singleton (separator piece : Text) : joinWith separator [piece] = piece :=
  List.intercalate_singleton

theorem joinWith_cons (separator : Char) (first : Text) {more : List Text} (further : more ≠ []) :
    joinWith [separator] (first :: more) = first ++ separator :: joinWith [separator] more := by
  obtain ⟨second, more, rfl⟩ := List.exists_cons_of_ne_nil further
  rw [joinWith, List.intercalate_cons_cons, List.append_assoc]
  rfl

theorem infix_joinWith {separator piece : Text} {pieces : List Text} (member : piece ∈ pieces) :
    piece <:+: joinWith separator pieces := by
  induction pieces with
  | nil => cases member
  | cons first more ih =>
    cases more with
    | nil =>
      obtain rfl := List.mem_singleton.mp member
      exact (joinWith_singleton separator piece).symm ▸ List.infix_rfl
    | cons second more =>
      rw [joinWith, List.intercalate_cons_cons, List.append_assoc]
      rcases List.mem_cons.mp member with rfl | later
      · exact (List.prefix_append _ _).isInfix
      · exact (ih later).trans
          ((List.suffix_append _ _).trans (List.suffix_append _ _)).isInfix

theorem prefix_joinWith (separator first : Text) (more : List Text) :
    first <+: joinWith separator (first :: more) := by
  cases more with
  | nil =>
    exact (joinWith_singleton separator first).symm ▸ List.prefix_rfl
  | cons second more =>
    rw [joinWith, List.intercalate_cons_cons, List.append_assoc]
    exact List.prefix_append _ _

theorem infix_of_mem_splitOn {separator : Char} {piece s : Text}
    (member : piece ∈ s.splitOn separator) : piece <:+: s := by
  have inside : piece <:+: joinWith [separator] (s.splitOn separator) := infix_joinWith member
  rwa [joinWith, List.intercalate_splitOn] at inside

/-! What stands before and behind the separator of a cut. -/

theorem cut?_eq_some {c : Char} {s before after : Text} (found : cut? c s = some (before, after)) :
    s = before ++ c :: after := by
  unfold cut? at found
  split at found
  · cases found
  · rename_i head rest same
    cases found
    have separator := List.head?_dropWhile_not (· != c) s
    rw [same] at separator
    have here : head = c := by simpa using separator
    rw [← here] at same ⊢
    rw [← same, List.takeWhile_append_dropWhile]

theorem notMem_of_cut? {c : Char} {s before behind : Text} (found : cut? c s = some (before, behind)) :
    c ∉ before := by
  unfold cut? at found
  split at found
  · cases found
  · cases found
    intro member
    simpa using List.mem_takeWhile_imp member

theorem cut?_append {c : Char} {before : Text} (absent : c ∉ before) (behind : Text) :
    cut? c (before ++ c :: behind) = some (before, behind) := by
  have passes : ∀ other ∈ before, (other != c) = true := by
    intro other member
    exact bne_iff_ne.mpr fun same => absent (same ▸ member)
  have stops : (c != c) = false := by simp
  rw [cut?, List.dropWhile_append_of_pos passes, List.takeWhile_append_of_pos passes,
    List.dropWhile_cons, List.takeWhile_cons, stops]
  simp

/-- What is added behind a text that is cut goes to the second part. -/
theorem cut?_extend {c : Char} {s before after : Text} (found : cut? c s = some (before, after))
    (behind : Text) : cut? c (s ++ behind) = some (before, after ++ behind) := by
  rw [cut?_eq_some found, List.append_assoc, List.cons_append, cut?_append (notMem_of_cut? found)]

theorem not_mem_of_cut?_eq_none {c : Char} {s : Text} (absent : cut? c s = none) : c ∉ s := by
  intro member
  unfold cut? at absent
  split at absent
  · rename_i dropped
    simpa using List.dropWhile_eq_nil_iff.mp dropped c member
  · cases absent

/-! A run of characters ends at the first one that stops it, whatever stands behind that one. -/

section

variable {p : Char → Bool} {stop : Char} (stops : p stop = false) (front behind : Text)

include stops

theorem dropWhile_append_stop :
    (front ++ stop :: behind).dropWhile p = front.dropWhile p ++ stop :: behind := by
  induction front with
  | nil => simp [stops]
  | cons c front ih => by_cases kept : p c <;> simp [kept, ih]

theorem takeWhile_append_stop : (front ++ stop :: behind).takeWhile p = front.takeWhile p := by
  induction front with
  | nil => simp [stops]
  | cons c front ih => by_cases kept : p c <;> simp [kept, ih]

end

/-! The same holds at the end of a text. -/

section

variable {p : Char → Bool} {behind : Text} (stops : ∀ c, behind.head? = some c → p c = false)
  (front : Text)

include stops

theorem dropWhile_append_of_head? : (front ++ behind).dropWhile p = front.dropWhile p ++ behind := by
  cases behind with
  | nil => simp
  | cons stop behind => exact dropWhile_append_stop (stops stop rfl) front behind

theorem takeWhile_append_of_head? : (front ++ behind).takeWhile p = front.takeWhile p := by
  cases behind with
  | nil => simp
  | cons stop behind => exact takeWhile_append_stop (stops stop rfl) front behind

end

/-! Pieces of a text. -/

theorem isSome_after?_iff {lead s : Text} : (after? lead s).isSome = true ↔ lead <+: s := by
  rw [Option.isSome_iff_exists]
  exact exists_congr fun rest => after?_eq_some_iff.trans eq_comm

theorem has_eq_true_iff {piece s : Text} : has piece s = true ↔ piece <:+: s := by
  induction s with
  | nil => simp [has]
  | cons c s ih => rw [has, Bool.or_eq_true, ih, isSome_after?_iff, List.infix_cons_iff]

end GradlePublishing.Text
