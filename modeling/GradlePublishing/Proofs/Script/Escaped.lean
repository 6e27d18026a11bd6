import GradlePublishing.Proofs.Script.Boundary

/-!
Where a literal on one line ends. Its opening quote closes it where no backslash hides the quote, that is,
where the text in front of the quote does not end in an odd number of backslashes (`EndsEscaped`).
-/

namespace GradlePublishing.Script

/-- Whether a backslash at the end of a text hides the next character. Of two backslashes the first one hides
the second. -/
def EndsEscaped (text : Text) : Prop := (text.reverse.takeWhile (· == '\\')).length % 2 = 1

instance (text : Text) : Decidable (EndsEscaped text) := inferInstanceAs (Decidable (_ = 1))

theorem not_endsEscaped_of_notMem {text : Text} (plain : '\\' ∉ text) : ¬ EndsEscaped text := by
  have none : text.reverse.takeWhile (· == '\\') = [] := by
    cases reversed : text.reverse with
    | nil => rfl
    | cons c more =>
      have member : c ∈ text := List.mem_reverse.mp (reversed ▸ List.mem_cons_self)
      exact List.takeWhile_cons_of_neg (by simpa using fun same : c = '\\' => plain (same ▸ member))
  rw [EndsEscaped, none]
  decide

theorem endsEscaped_append {front : Text} (visible : ¬ EndsEscaped front) (text : Text) :
    EndsEscaped (front ++ text) ↔ EndsEscaped text := by
  unfold EndsEscaped at visible ⊢
  rw [List.reverse_append, List.takeWhile_append]
  split
  · next all =>
    rw [List.length_append, all]
    omega
  · rfl

section

variable {quote : Char} (quotes : Text.isQuote quote = true)

include quotes

theorem lineLiteral_append_quote {text : Text} (single : '\n' ∉ text) (unquoted : quote ∉ text)
    (rest : Text) : lineLiteral quote (text ++ quote :: rest) =
      if EndsEscaped text then (text ++ quote :: (lineLiteral quote rest).1, (lineLiteral quote rest).2)
      else (text ++ [quote], rest) := by
  have visible : quote ≠ '\\' := by
    rintro rfl
    cases quotes
  fun_induction lineLiteral quote text with
  | case1 => rw [if_neg (by decide), List.nil_append, lineLiteral_cons visible, if_pos rfl, List.nil_append]
  | case2 => rw [if_pos (by decide)]; rfl
  | case3 c s ih =>
    simp only [List.mem_cons, not_or] at single unquoted
    have pair : ¬ EndsEscaped ['\\', c] := by
      by_cases same : c = '\\'
      · rw [same]; decide
      · simp [EndsEscaped, same]
    have same := endsEscaped_append pair s
    rw [List.cons_append, List.cons_append, List.nil_append] at same
    rw [List.cons_append, List.cons_append, lineLiteral, ih single.2.2 unquoted.2.2]
    simp only [same]
    split <;> rfl
  | case4 s alone hidden => exact absurd List.mem_cons_self unquoted
  | case5 s alone hidden other => exact absurd List.mem_cons_self single
  | case6 c s alone hidden other inside ih =>
    rw [List.mem_cons, not_or] at single unquoted
    have plain := ne_backslash alone hidden
    have first : ¬ EndsEscaped [c] := not_endsEscaped_of_notMem (by simpa using Ne.symm plain)
    have same := endsEscaped_append first s
    rw [List.singleton_append] at same
    rw [List.cons_append, lineLiteral_cons plain, if_neg other, if_neg inside, ih single.2 unquoted.2]
    simp only [same]
    split <;> rfl

/-- Of a literal nothing stands on the rest of a line that is over. -/
theorem fst_lineLiteral_eq_nil_iff {rest : Text} :
    (lineLiteral quote rest).1 = [] ↔ rest.head?.all (· == '\n') = true := by
  have inLine : quote ≠ '\n' := by
    rintro rfl
    cases quotes
  fun_cases lineLiteral quote rest <;> simp_all

end

end GradlePublishing.Script
