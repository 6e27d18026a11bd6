import GradlePublishing.Proofs.Script.ByLine
import GradlePublishing.Proofs.Script.Escaped
import GradlePublishing.Proofs.Script.WholeLine
import Mathlib.Data.List.TakeWhile

/-!
Lines with quoted pieces. What is read between the quotes is the whole interior, whatever braces, comment
marks or backslashes it holds. The literal that the script has there may go on to the end of the line,
when a backslash hides the closing quote, and nothing but code follows it (`mark_quoted`).
-/

namespace GradlePublishing.Script

theorem skipGap_append (gap : Gap) (s : Text) : skipGap (gap.val ++ s) = skipGap s :=
  List.dropWhile_append_of_pos gap.property

theorem skipGap_cons {c : Char} (solid : isGap c = false) (s : Text) : skipGap (c :: s) = c :: s :=
  List.dropWhile_cons_of_neg (by simp [solid])

theorem Gap.not_mem (gap : Gap) {c : Char} (solid : isGap c = false) : c ∉ gap.val := by
  intro member
  rw [gap.property c member] at solid
  cases solid

theorem statements_line {α : Type} {reader : Text → Option (α × Text)} (indent : Gap) {line more : Text}
    {first : Char} (start : line = first :: more) (solid : isGap first = false) (single : '\n' ∉ line)
    (rest : Text) : statements reader (indent.val ++ (line ++ '\n' :: rest)) =
      ((reader line).map fun (value, _) => ⟨indent.val.length, value⟩).toList ++
        (statements reader rest).map (Found.shift ((indent.val ++ line).length + 1)) := by
  have inLine : '\n' ∉ indent.val ++ line := by
    rw [List.mem_append, not_or]
    exact ⟨indent.not_mem rfl, single⟩
  have behind : skipGap (indent.val ++ line) = line := by
    rw [skipGap_append, start, skipGap_cons solid]
  have ahead : (indent.val ++ line).takeWhile isGap = indent.val := by
    rw [List.takeWhile_append_of_pos indent.property, start,
      List.takeWhile_cons_of_neg (by simp [solid]), List.append_nil]
  have alone : statements reader (indent.val ++ line) =
      ((reader line).map fun (value, _) => ⟨indent.val.length, value⟩).toList := by
    rw [statements_single inLine, behind, ahead]
  rw [← List.append_assoc, statements_append_break, alone]

theorem codeOf_marks_literal (text : Text) : codeOf (⟨.literal, text⟩ : Token).marks = [] := by
  induction text with
  | nil => rfl
  | cons c text ih => exact ih

/-- A quoted piece has its quotes around it, and neither such a quote nor a line break inside. -/
theorem eq_of_quotedPiece? {s value rest : Text} (read : quotedPiece? s = some (value, rest)) :
    ∃ quote, Text.isQuote quote = true ∧ quote ∉ value ∧ '\n' ∉ value ∧
      s = quote :: (value ++ quote :: rest) := by
  cases s with
  | nil => cases read
  | cons quote s =>
    rw [quotedPiece?] at read
    split at read
    · next close behind quotes closes =>
      split at read
      · next same =>
        obtain ⟨rfl, rfl⟩ := Prod.mk.inj (Option.some.inj read)
        have inside : ∀ c ∈ s.takeWhile fun c => c != quote && c != '\n', c ≠ quote ∧ c ≠ '\n' := by
          intro c member
          simpa using List.mem_takeWhile_imp member
        refine ⟨quote, quotes, fun member => (inside _ member).1 rfl, fun member => (inside _ member).2 rfl, ?_⟩
        rw [same] at closes
        rw [← closes, List.takeWhile_append_dropWhile]
      · cases read
    · cases read

section

variable {quote : Char} (quotes : Text.isQuote quote = true)

include quotes

theorem isGap_quote : isGap quote = false := by
  obtain rfl | rfl : quote = '"' ∨ quote = '\'' := by simpa [Text.isQuote] using quotes
  · rfl
  · rfl

theorem quotedPiece?_quoted {value : Text} (single : '\n' ∉ value) (unquoted : quote ∉ value)
    (behind : Text) : quotedPiece? (quote :: (value ++ quote :: behind)) = some (value, behind) := by
  have inside : ∀ c ∈ value, (c != quote && c != '\n') = true := by
    intro c member
    rw [Bool.and_eq_true, bne_iff_ne, bne_iff_ne]
    exact ⟨fun same => unquoted (same ▸ member), fun same => single (same ▸ member)⟩
  simp [quotedPiece?, quotes, List.dropWhile_append_of_pos inside, List.takeWhile_append_of_pos inside]

theorem quotedValue?_quoted {value : Text} (nonempty : value ≠ []) (single : '\n' ∉ value)
    (unquoted : quote ∉ value) (behind : Text) :
    quotedValue? (quote :: (value ++ quote :: behind)) = some (value, behind) := by
  obtain ⟨c, more, rfl⟩ := List.exists_cons_of_ne_nil nonempty
  rw [quotedValue?, quotedPiece?_quoted quotes single unquoted]

theorem nextToken_quoted {text : Text} (nonempty : text ≠ []) (unquoted : quote ∉ text) (behind : Text) :
    nextToken quote (text ++ behind) =
      (⟨.literal, quote :: (lineLiteral quote (text ++ behind)).1⟩,
        (lineLiteral quote (text ++ behind)).2) := by
  have single : Text.after? [quote, quote] (text ++ behind) = none := by
    obtain ⟨c, more, rfl⟩ := List.exists_cons_of_ne_nil nonempty
    rw [List.mem_cons, not_or] at unquoted
    rw [List.cons_append, Text.after?, if_neg unquoted.1]
  simp only [nextToken, quotes, ↓reduceIte, single]

theorem mark_quoted_append {text : Text} (nonempty : text ≠ []) (single : '\n' ∉ text)
    (unquoted : quote ∉ text) (plain : '\\' ∉ text) (behind : Text) :
    mark (quote :: (text ++ quote :: behind)) =
      (⟨.literal, quote :: (text ++ [quote])⟩ : Token).marks ++ mark behind := by
  have closed : lineLiteral quote (text ++ quote :: behind) = (text ++ [quote], behind) := by
    rw [lineLiteral_append_quote quotes single unquoted, if_neg (not_endsEscaped_of_notMem plain)]
  rw [mark_cons, nextToken_quoted quotes nonempty unquoted, closed]

/-- The text that a literal on one line leaves: what follows the closing quote, or only the line break
when a backslash at the end hides that quote. -/
theorem lineLiteral_quoted {text tail : Text} (single : '\n' ∉ text) (unquoted : quote ∉ text)
    (open' : quote ∉ tail) (plain : '\\' ∉ tail) (inLine : '\n' ∉ tail) :
    (lineLiteral quote (text ++ quote :: (tail ++ ['\n']))).2 = tail ++ ['\n'] ∨
      (lineLiteral quote (text ++ quote :: (tail ++ ['\n']))).2 = ['\n'] := by
  have notBreak : '\n' ≠ quote := by
    rintro rfl
    cases quotes
  have unclosed : (lineLiteral quote (tail ++ ['\n'])).2 = ['\n'] := by
    induction tail with
    | nil => rw [List.nil_append, lineLiteral_cons (by decide), if_neg notBreak, if_pos rfl]
    | cons c tail ih =>
      rw [List.mem_cons, not_or] at open' plain inLine
      rw [List.cons_append, lineLiteral_cons (Ne.symm plain.1), if_neg (Ne.symm open'.1),
        if_neg (Ne.symm inLine.1), ih open'.2 plain.2 inLine.2]
  rw [lineLiteral_append_quote quotes single unquoted]
  split
  · exact .inr unclosed
  · exact .inl rfl

theorem mark_quoted {text tail : Text} (nonempty : text ≠ []) (single : '\n' ∉ text)
    (unquoted : quote ∉ text) (closing : tail ⊆ [')', ' ', '\t']) : ∃ literal rest,
      mark (quote :: (text ++ quote :: (tail ++ ['\n']))) =
        literal ++ (asCode rest ++ [('\n', .code)]) ∧
        codeOf literal = [] ∧ rest ⊆ tail := by
  have absent {c : Char} (other : c ∉ [')', ' ', '\t']) : c ∉ tail := fun member => other (closing member)
  have unquotedTail : quote ∉ tail := by
    apply absent
    intro member
    simp only [List.mem_cons, List.not_mem_nil, or_false] at member
    rcases member with rfl | rfl | rfl <;> cases quotes
  have plain {rest : Text} (within : rest ⊆ tail) :
      mark (rest ++ ['\n']) = asCode rest ++ [('\n', .code)] := by
    have all : ∀ c ∈ [')', ' ', '\t'], isPlain c = true := List.all_eq_true.mp (by decide)
    rw [mark_plain_append fun c member => all c (closing (within member)), mark_break, mark_nil]
  rw [mark_cons, nextToken_quoted quotes nonempty unquoted]
  rcases lineLiteral_quoted quotes single unquoted unquotedTail (absent (by decide))
    (absent (by decide)) with behind | behind
  · rw [behind, plain (List.Subset.refl tail)]
    exact ⟨_, tail, rfl, codeOf_marks_literal _, List.Subset.refl tail⟩
  · have empty := plain (List.nil_subset tail)
    rw [List.nil_append] at empty
    rw [behind, empty]
    exact ⟨_, [], rfl, codeOf_marks_literal _, List.nil_subset tail⟩

end

end GradlePublishing.Script
