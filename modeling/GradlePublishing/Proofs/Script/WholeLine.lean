import GradlePublishing.Proofs.Script.CommentLine
import GradlePublishing.Script.Block
import GradlePublishing.Script.Pattern

/-!
Pieces of a script that are whole lines with their braces in pairs (`IsWhole`). A search for the closing
brace of a block passes over such a piece, and pieces one below the other are such a piece again. What a
piece has as code is kept in view (`codeOf`), since only that can make a keyword or a brace.
-/

namespace GradlePublishing.Script

/-! Texts that are code wherever they stand. -/

def isPlain (c : Char) : Bool := !Text.isQuote c && c != '/'

def asCode (s : Text) : Marked := s.map fun c => (c, .code)

theorem map_fst_asCode (s : Text) : (asCode s).map (·.1) = s := by
  simp [asCode, Function.comp_def]

/-- The characters of code among the marks. -/
def codeOf (marks : Marked) : Text := (marks.filter (·.2 == .code)).map (·.1)

theorem mem_codeOf {marks : Marked} {c : Char} : c ∈ codeOf marks ↔ (c, .code) ∈ marks := by
  simp [codeOf]

@[simp] theorem codeOf_append (marks more : Marked) :
    codeOf (marks ++ more) = codeOf marks ++ codeOf more := by
  simp [codeOf]

@[simp] theorem codeOf_cons_code (c : Char) (marks : Marked) :
    codeOf ((c, .code) :: marks) = c :: codeOf marks := rfl

@[simp] theorem codeOf_nil : codeOf [] = [] := rfl

@[simp] theorem codeOf_asCode (s : Text) : codeOf (asCode s) = s := by
  induction s with
  | nil => rfl
  | cons c s ih => exact congrArg (c :: ·) ih

theorem mark_plain_append {s : Text} (plain : ∀ c ∈ s, isPlain c = true) (behind : Text) :
    mark (s ++ behind) = asCode s ++ mark behind := by
  induction s with
  | nil => rfl
  | cons c s ih =>
    obtain ⟨quote, slash⟩ : Text.isQuote c = false ∧ c ≠ '/' := by
      simpa [isPlain] using plain c List.mem_cons_self
    have comment : opensComment c (s ++ behind) = false := by simp [opensComment, slash]
    rw [List.cons_append, mark_cons, nextToken_code quote comment,
      ih fun d member => plain d (List.mem_cons_of_mem c member)]
    rfl

theorem mark_plain {s : Text} (plain : ∀ c ∈ s, isPlain c = true) : mark s = asCode s := by
  have alone := mark_plain_append plain []
  rwa [List.append_nil, mark_nil, List.append_nil] at alone

/-- Spaces and tabs. -/
abbrev Gap := { s : Text // ∀ c ∈ s, isGap c = true }

theorem isGap_eq_true_iff {c : Char} : isGap c = true ↔ c = ' ' ∨ c = '\t' := by
  simp [isGap]

theorem isGap_none : ∀ c ∈ ([] : Text), isGap c = true := List.forall_mem_nil _

theorem isGap_space : ∀ c ∈ [' '], isGap c = true := List.all_eq_true.mp rfl

theorem Gap.isPlain (gap : Gap) : ∀ c ∈ gap.val, isPlain c = true := by
  intro c member
  rcases isGap_eq_true_iff.mp (gap.property c member) with rfl | rfl <;> rfl

theorem Gap.isSpace (gap : Gap) : ∀ c ∈ gap.val, isSpace c = true := by
  intro c member
  rcases isGap_eq_true_iff.mp (gap.property c member) with rfl | rfl <;> rfl

theorem Gap.subset {letters : Text} (gap : Gap) (space : ' ' ∈ letters) (tab : '\t' ∈ letters) :
    gap.val ⊆ letters := by
  intro c member
  rcases isGap_eq_true_iff.mp (gap.property c member) with rfl | rfl
  · exact space
  · exact tab

/-! Braces in pairs. -/

/-- Marks that a search for a closing brace passes over, however many braces are open. -/
def IsBalanced (marks : Marked) : Prop :=
  ∀ depth rest, cutAtClosingBrace? depth (marks ++ rest) =
    (cutAtClosingBrace? depth rest).map fun (body, after) => (marks ++ body, after)

theorem cutAtClosingBrace?_cons_of_ne {depth : Nat} {x : Char × Kind} (other : x ≠ ('}', .code))
    (rest : Marked) : cutAtClosingBrace? depth (x :: rest) =
      (cutAtClosingBrace? (if x = ('{', .code) then depth + 1 else depth) rest).map
        fun (body, after) => (x :: body, after) := by
  rw [cutAtClosingBrace?.eq_def]
  exact if_neg other

theorem isBalanced_nil : IsBalanced [] := by
  intro depth rest
  simp

namespace IsBalanced

variable {marks more : Marked}

theorem append (balanced : IsBalanced marks) (later : IsBalanced more) :
    IsBalanced (marks ++ more) := by
  intro depth rest
  rw [List.append_assoc, balanced, later, Option.map_map]
  cases cutAtClosingBrace? depth rest with
  | none => rfl
  | some cut => simp

theorem of_no_brace (opening : '{' ∉ codeOf marks) (closing : '}' ∉ codeOf marks) :
    IsBalanced marks := by
  rw [mem_codeOf] at opening closing
  induction marks with
  | nil => exact isBalanced_nil
  | cons x marks ih =>
    rw [List.mem_cons, not_or] at opening closing
    intro depth rest
    rw [List.cons_append, cutAtClosingBrace?_cons_of_ne (Ne.symm closing.1),
      if_neg (Ne.symm opening.1), ih opening.2 closing.2, Option.map_map]
    rfl

theorem braced (balanced : IsBalanced marks) :
    IsBalanced (('{', .code) :: (marks ++ [('}', .code)])) := by
  intro depth rest
  have opens : ('{', Kind.code) ≠ ('}', Kind.code) := by decide
  rw [List.cons_append, cutAtClosingBrace?_cons_of_ne opens, if_pos rfl, List.append_assoc,
    balanced, List.singleton_append, cutAtClosingBrace?, if_pos rfl, Option.map_map, Option.map_map]
  cases cutAtClosingBrace? depth rest with
  | none => rfl
  | some cut => simp

theorem cut (balanced : IsBalanced marks) (rest : Marked) :
    cutAtClosingBrace? 0 (marks ++ ('}', .code) :: rest) = some (marks, rest) := by
  rw [balanced, cutAtClosingBrace?, if_pos rfl]
  simp

end IsBalanced

theorem isBalanced_asCode {s : Text} (opening : '{' ∉ s) (closing : '}' ∉ s) :
    IsBalanced (asCode s) :=
  .of_no_brace (by rwa [codeOf_asCode]) (by rwa [codeOf_asCode])

theorem Gap.isBalanced (gap : Gap) : IsBalanced (asCode gap.val) := by
  apply isBalanced_asCode
  · exact fun member => absurd (gap.property _ member) (by decide)
  · exact fun member => absurd (gap.property _ member) (by decide)

/-- Whole lines of a script, with their braces in pairs. -/
structure IsWhole (s : Text) : Prop where
  ends : EndsLine s
  balanced : IsBalanced (mark s)

theorem EndsLine.append {front behind : Text} (ends : EndsLine front) (later : EndsLine behind) :
    EndsLine (front ++ behind) := by
  rcases later with rfl | ⟨before, marked⟩
  · rwa [List.append_nil]
  · refine .inr ⟨mark front ++ before, ?_⟩
    rw [mark_append ends, marked, List.append_assoc]

theorem isWhole_nil : IsWhole [] := ⟨.inl rfl, mark_nil ▸ isBalanced_nil⟩

theorem IsWhole.append {front behind : Text} (whole : IsWhole front) (later : IsWhole behind) :
    IsWhole (front ++ behind) where
  ends := whole.ends.append later.ends
  balanced := by
    rw [mark_append whole.ends]
    exact whole.balanced.append later.balanced

theorem isWhole_flatMap {α : Type} {text : α → Text} {pieces : List α}
    (whole : ∀ piece ∈ pieces, IsWhole (text piece)) : IsWhole (pieces.flatMap text) := by
  induction pieces with
  | nil => exact isWhole_nil
  | cons piece pieces ih =>
    rw [List.flatMap_cons]
    exact (whole piece List.mem_cons_self).append
      (ih fun later member => whole later (List.mem_cons_of_mem piece member))

theorem codeOf_flatMap_subset {α : Type} {text : α → Text} {pieces : List α} {letters : Text}
    (whole : ∀ piece ∈ pieces, IsWhole (text piece))
    (within : ∀ piece ∈ pieces, codeOf (mark (text piece)) ⊆ letters) :
    codeOf (mark (pieces.flatMap text)) ⊆ letters := by
  induction pieces with
  | nil =>
    rw [List.flatMap_nil, mark_nil]
    exact List.nil_subset letters
  | cons piece pieces ih =>
    rw [List.flatMap_cons, mark_append (whole piece List.mem_cons_self).ends, codeOf_append]
    exact List.append_subset.mpr ⟨within piece List.mem_cons_self,
      ih (fun later member => whole later (List.mem_cons_of_mem piece member))
        fun later member => within later (List.mem_cons_of_mem piece member)⟩

end GradlePublishing.Script
