import GradlePublishing.Proofs.Script.Depth
import GradlePublishing.Proofs.Script.Literal

/-!
What the mask shows. Outside all braces it shows a script as it is, but for the comments, and it hides the
rest; line breaks stay. A quote that it shows in front of a character of code is closed in front of it on the
same line (`quote_mem_of_shown`).
-/

namespace GradlePublishing.Script

/-- What a character is masked by outside all braces: a comment is blank. -/
def shown (x : Char × Kind) : Char := if x.2 = .comment then blankOut x.1 else x.1

def uncommented (content : Text) : Text := (mark content).map shown

theorem maskedAs_zero (x : Char × Kind) : maskedAs 0 x = shown x := by
  unfold maskedAs shown
  split
  · next opening => rw [opening]; rfl
  · split
    · next closing => rw [closing]; rfl
    · simp

theorem maskedAs_eq_break_iff {depth : Nat} {x : Char × Kind} : maskedAs depth x = '\n' ↔ x.1 = '\n' := by
  obtain ⟨c, kind⟩ := x
  unfold maskedAs blankOut
  grind

theorem mem_maskFrom {depth : Nat} {marks : Marked} :
    '\n' ∈ maskFrom depth marks ↔ '\n' ∈ marks.map (·.1) := by
  induction marks generalizing depth with
  | nil => rfl
  | cons x marks ih =>
    rw [maskFrom_cons, List.mem_cons, ih, eq_comm, maskedAs_eq_break_iff, eq_comm, List.map_cons,
      List.mem_cons]

theorem mem_map_shown {marks : Marked} : '\n' ∈ marks.map shown ↔ '\n' ∈ marks.map (·.1) := by
  simp only [List.mem_map, ← maskedAs_zero, maskedAs_eq_break_iff]

/-- What the mask shows, but for the braces, is outside all braces and no comment. -/
theorem maskedAs_of_solid {depth : Nat} {x : Char × Kind} (solid : isGap (maskedAs depth x) = false)
    (inLine : maskedAs depth x ≠ '\n') (opening : maskedAs depth x ≠ '{')
    (closing : maskedAs depth x ≠ '}') : depth = 0 ∧ x.2 ≠ .comment ∧ maskedAs depth x = x.1 := by
  have blank (c : Char) : isGap (blankOut c) = true ∨ blankOut c = '\n' := by
    unfold blankOut
    split
    · exact .inr rfl
    · exact .inl rfl
  unfold maskedAs at solid inLine opening closing ⊢
  split at solid
  · split at solid
    · simp_all
    · cases solid
  · split at solid
    · split at solid
      · simp_all
      · cases solid
    · split at solid
      · rcases blank x.1 with gap | lineBreak
        · rw [gap] at solid
          cases solid
        · simp_all
      · next visible =>
        rw [not_or, Nat.not_lt, Nat.le_zero] at visible
        simp_all

theorem maskFrom_zero {marks : Marked} (closed : ('{', .code) ∉ marks) (behind : Marked) :
    maskFrom 0 (marks ++ behind) = marks.map shown ++ maskFrom 0 behind := by
  induction marks with
  | nil => rfl
  | cons x marks ih =>
    rw [List.mem_cons, not_or] at closed
    have depth : depthAfter 0 x = 0 := by
      rw [depthAfter, if_neg (Ne.symm closed.1)]
      split <;> rfl
    rw [List.cons_append, maskFrom_cons, depth, ih closed.2, maskedAs_zero, List.map_cons,
      List.cons_append]

theorem getElem?_mask (content : Text) (index : Nat) :
    (mask content)[index]? = (mark content)[index]?.map (maskedAs (depthAt content index)) :=
  getElem?_maskFrom 0 (mark content) index

theorem Token.map_shown_marks {token : Token} (literal : token.kind = .literal) :
    token.marks.map shown = token.text := by
  have same : (shown ∘ fun c => (c, token.kind)) = id := by
    funext c
    rw [Function.comp_apply, shown, literal]
    rfl
  rw [Token.marks, List.map_map, same, List.map_id]

theorem isQuote_blankOut (c : Char) : Text.isQuote (blankOut c) = false := by
  unfold blankOut
  split <;> rfl

/-- What a token shows has a quote only if it is a literal. -/
theorem isQuote_of_mem_shown {c : Char} {s : Text} (other : Text.isQuote c = false) :
    ∀ d ∈ (nextToken c s).1.marks.map shown, Text.isQuote d = false := by
  intro d member
  obtain ⟨x, inside, rfl⟩ := List.mem_map.mp member
  have kind := Token.kind_of_mem_marks inside
  by_cases comment : x.2 = .comment
  · rw [shown, if_pos comment]
    exact isQuote_blankOut x.1
  · have code : (nextToken c s).1.kind = .code := by
      cases kinds : (nextToken c s).1.kind with
      | code => rfl
      | comment => exact absurd (kind.trans kinds) comment
      | literal =>
        rw [isQuote_of_kind_literal kinds] at other
        cases other
    rw [nextToken_of_kind_code code] at inside
    obtain rfl : x = (c, .code) := by simpa [Token.marks] using inside
    exact other

/-- A quote that stands in front of a character of code on the same line, and in no comment, is closed in
front of it. -/
theorem quote_mem_of_shown {content : Text} {front behind : Marked} {last : Char} (inLine : last ≠ '\n')
    (cut : mark content = front ++ (last, .code) :: behind) (single : '\n' ∉ front.map (·.1))
    {lead tail : Text} {quote : Char} (text : front.map shown = lead ++ quote :: tail)
    (quotes : Text.isQuote quote = true) (unquoted : ∀ c ∈ lead, Text.isQuote c = false) :
    quote ∈ tail := by
  induction content using tokens.induct generalizing front lead with
  | case1 =>
    rw [mark_nil] at cut
    simp at cut
  | case2 c s ih =>
    rcases mark_cons_cut cut with ⟨rfl, -⟩ | ⟨later, rfl, rest⟩
    · simp at text
    rw [List.map_append, List.mem_append, not_or, Token.map_fst_marks] at single
    rw [List.map_append] at text
    by_cases opens : Text.isQuote c = true
    · -- The first token is the literal that the quote opens.
      obtain ⟨more, whole, closes⟩ := nextToken_closes opens s
      have literal : (nextToken c s).1.marks.map shown = c :: more := by
        rw [Token.map_shown_marks (kind_of_isQuote opens s), whole]
      rw [literal] at text
      cases lead with
      | cons d lead =>
        have first := unquoted d List.mem_cons_self
        rw [← (List.cons.inj text).1, opens] at first
        cases first
      | nil =>
        obtain ⟨rfl, rfl⟩ := List.cons.inj text
        rcases closes with closed | ended | ⟨line, ended⟩
        · exact List.mem_append_left _ closed
        · rw [ended, mark_nil] at rest
          simp at rest
        · rw [ended, mark_break] at rest
          cases later with
          | nil => exact absurd (Prod.mk.inj (List.cons.inj rest).1).1.symm inLine
          | cons x later =>
            rw [List.cons_append] at rest
            refine absurd ?_ single.2
            rw [← (List.cons.inj rest).1]
            exact List.mem_cons_self
    · -- Before the literal nothing shows a quote.
      have blank := isQuote_of_mem_shown (s := s) ((Bool.not_eq_true _).mp opens)
      rcases List.append_eq_append_iff.mp text with ⟨more, rfl, joined⟩ | ⟨more, inToken, joined⟩
      · exact ih rest single.2 joined fun d member => unquoted d (List.mem_append_right _ member)
      · cases more with
        | nil =>
          have behindToken : later.map shown = [] ++ quote :: tail := joined.symm
          exact ih rest single.2 behindToken fun d member => absurd member List.not_mem_nil
        | cons d more =>
          rw [List.cons_append] at joined
          rw [(List.cons.inj joined).1, blank d (by rw [inToken]; simp)] at quotes
          cases quotes

/-- From a character of code on, a script has the kinds that it has as a whole. -/
theorem mark_from_code {content : Text} {front behind : Marked} {c : Char}
    (cut : mark content = front ++ (c, .code) :: behind) :
    mark (c :: behind.map (·.1)) = (c, .code) :: behind := by
  induction content using tokens.induct generalizing front with
  | case1 =>
    rw [mark_nil] at cut
    simp at cut
  | case2 d s ih =>
    rcases mark_cons_cut cut with ⟨rfl, -⟩ | ⟨later, rfl, rest⟩
    · have text := map_fst_mark (d :: s)
      rw [cut, List.nil_append, List.map_cons] at text
      rw [text, cut, List.nil_append]
    · exact ih rest

end GradlePublishing.Script
