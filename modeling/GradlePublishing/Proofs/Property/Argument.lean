import GradlePublishing.Proofs.Table
import GradlePublishing.Proofs.Text.Split
import GradlePublishing.Proofs.Text.Trimmed
import GradlePublishing.Property.Argument

/-!
Properties as arguments give them. A name and a value are read from a text that holds an equals sign,
without blanks around them and without quotes around the value; reading the value a second time does the
same to it again (`reread?_eq_self_iff`).
-/

namespace GradlePublishing.Property

theorem pair?_stripEnd (text : Text) : pair? (Text.stripEnd text) = pair? text := by
  by_cases split : '=' ∈ text
  · obtain ⟨name, value, rfl, plain⟩ := List.eq_append_cons_of_mem split
    have kept : Text.stripEnd (name ++ ['=']) = name ++ ['='] := by
      apply Text.stripEnd_eq_self_iff.mpr
      intro c last
      rw [List.getLast?_concat] at last
      cases last
      decide
    have ends := Text.stripEnd_append_of_kept value kept
    simp only [List.append_assoc, List.singleton_append] at ends
    rw [ends, pair?, pair?, Text.cut?_append plain, Text.cut?_append plain]
    simp only [Text.strip_stripEnd]
  · have kept : '=' ∉ Text.stripEnd text := fun member =>
      split ((List.rdropWhile_prefix Text.isBlank text).subset member)
    have none {s : Text} (plain : '=' ∉ s) : pair? s = none := by
      have passes : s.dropWhile (· != '=') = [] := List.dropWhile_eq_nil_iff.mpr fun c member =>
        bne_iff_ne.mpr fun same => plain (same ▸ member)
      rw [pair?, Text.cut?, passes]
    rw [none kept, none split]

/-- An entry as arguments give it. Its name can be written out and read again. -/
structure IsGiven (entry : Text × Text) : Prop where
  trimmed : entry.1.IsTrimmed
  named : entry.1 ≠ []
  plain : '=' ∉ entry.1
  filled : entry.2 ≠ []

theorem isGiven_of_pair? {s : Text} {entry : Text × Text} (found : pair? s = some entry) :
    IsGiven entry := by
  unfold pair? at found
  split at found
  · rename_i name value cut
    dsimp only at found
    split at found
    · cases found
    · rename_i present
      rw [Bool.or_eq_true, not_or, List.isEmpty_iff, List.isEmpty_iff] at present
      cases found
      have plain : '=' ∉ Text.strip name := fun member =>
        Text.notMem_of_cut? cut ((Text.strip_isInfix name).subset member)
      exact ⟨Text.isTrimmed_strip name, present.1, plain, present.2⟩
  · cases found

theorem isGiven_of_mem_ofArguments {arguments : List Text} {entry : Text × Text}
    (member : entry ∈ (ofArguments arguments).entries) : IsGiven entry := by
  obtain ⟨argument, -, found⟩ := List.mem_filterMap.mp (Table.mem_of_mem_ofList member)
  obtain ⟨text, -, paired⟩ := Option.bind_eq_some_iff.mp found
  exact isGiven_of_pair? paired

def reread? (entry : Text × Text) : Option (Text × Text) :=
  let value := Text.unquote (Text.strip entry.2)
  if value.isEmpty then none else some (entry.1, value)

theorem reread?_eq_self_iff {entry : Text × Text} (filled : entry.2 ≠ []) :
    reread? entry = some entry ↔ entry.2.IsTrimmed ∧ ¬ entry.2.IsEnclosed := by
  rw [← Text.clean_eq_self_iff]
  obtain ⟨name, value⟩ := entry
  unfold reread?
  dsimp only at filled ⊢
  split
  · rename_i empty
    rw [List.isEmpty_iff] at empty
    simp only [reduceCtorEq, false_iff]
    exact fun kept => filled (kept.symm.trans empty)
  · simp

end GradlePublishing.Property
