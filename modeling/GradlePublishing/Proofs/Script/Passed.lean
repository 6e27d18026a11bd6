import GradlePublishing.Proofs.Script.Enclosed

/-!
What a search for blocks passes over, with the offsets of what it finds behind it. A script falls into
pieces for a search (`Splits`) when it finds in the first piece what it finds there alone, and behind it
what it finds in the rest.
-/

namespace GradlePublishing.Script

variable {keyword : Text}

/-- The character in front of what follows `marks`. -/
def lastOf (before : Option Char) (marks : Marked) : Option Char :=
  (marks.getLast?.map (·.1)).or before

theorem lastOf_cons (before : Option Char) (x : Char × Kind) (marks : Marked) :
    lastOf before (x :: marks) = lastOf (some x.1) marks := by
  rw [lastOf, lastOf, List.getLast?_cons]
  cases marks.getLast? <;> rfl

theorem blocksFrom_step (searched : keyword ≠ []) {before : Option Char} {offset : Nat}
    {x : Char × Kind} {marks rest : Marked}
    (absent : afterKeyword? keyword before (x :: (marks ++ rest)) = none)
    (passed : blocksFrom keyword (some x.1) (offset + 1) (marks ++ rest) =
      blocksFrom keyword (lastOf (some x.1) marks) (offset + 1 + marks.length) rest) :
    blocksFrom keyword before offset (x :: marks ++ rest) =
      blocksFrom keyword (lastOf before (x :: marks)) (offset + (x :: marks).length) rest := by
  rw [List.cons_append, blocksFrom_cons_of_absent searched absent, passed, lastOf_cons,
    List.length_cons, Nat.add_assoc, Nat.add_comm 1]

/-- Where the first letter of the keyword is no code, no keyword starts. -/
theorem blocksFrom_append_of_notMem {first : Char} {more : Text} {marks : Marked}
    (absent : first ∉ codeOf marks) (before : Option Char) (offset : Nat) (rest : Marked) :
    blocksFrom (first :: more) before offset (marks ++ rest) =
      blocksFrom (first :: more) (lastOf before marks) (offset + marks.length) rest := by
  rw [mem_codeOf] at absent
  induction marks generalizing before offset with
  | nil => rfl
  | cons x marks ih =>
    rw [List.mem_cons, not_or] at absent
    refine blocksFrom_step (List.cons_ne_nil first more) ?_ (ih absent.2 _ _)
    obtain ⟨c, kind⟩ := x
    rw [afterKeyword?, if_neg]
    intro found
    simp only [List.length_cons, List.take_succ_cons, List.map_cons, List.all_cons, Bool.and_eq_true,
      beq_iff_eq, List.cons.injEq] at found
    exact absent.1 (by rw [found.1.1.1, found.1.2.1])

theorem afterKeyword?_of_joined {c : Char} (joined : isDelimiter c = false) (rest : Marked) :
    afterKeyword? keyword (some c) rest = none := by
  simp [afterKeyword?, isBounded, joined]

theorem blocksFrom_append_of_joined (searched : keyword ≠ []) {c : Char} {word : Text}
    (joined : ∀ d ∈ c :: word, isDelimiter d = false) (offset : Nat) (rest : Marked) :
    blocksFrom keyword (some c) offset (asCode word ++ rest) =
      blocksFrom keyword (lastOf (some c) (asCode word)) (offset + (asCode word).length) rest := by
  induction word generalizing c offset with
  | nil => rfl
  | cons d word ih =>
    exact blocksFrom_step searched (afterKeyword?_of_joined (joined c List.mem_cons_self) _)
      (ih (fun e member => joined e (List.mem_cons_of_mem c member)) _)

/-- A word that is longer than the keyword is not it, and a keyword does not start inside a word. -/
theorem blocksFrom_append_of_longer (searched : keyword ≠ []) {word : Text}
    (joined : ∀ c ∈ word, isDelimiter c = false) (longer : keyword.length < word.length)
    (before : Option Char) (offset : Nat) (rest : Marked) :
    blocksFrom keyword before offset (asCode word ++ rest) =
      blocksFrom keyword (lastOf before (asCode word)) (offset + (asCode word).length) rest := by
  have longer' : keyword.length < (asCode word).length := by rwa [asCode, List.length_map]
  have next : ((asCode word ++ rest).drop keyword.length).head?.map (·.1) = some word[keyword.length] := by
    rw [List.head?_drop, List.getElem?_append_left longer']
    simp [asCode, longer]
  have absent : afterKeyword? keyword before (asCode word ++ rest) = none := by
    simp only [afterKeyword?, next, isBounded, Option.all_some, joined _ (List.getElem_mem longer),
      Bool.and_false, Bool.false_eq_true, ↓reduceIte]
  cases word with
  | nil => exact absurd longer (Nat.not_lt_zero _)
  | cons c word => exact blocksFrom_step searched absent (blocksFrom_append_of_joined searched joined _ _)

/-- A line of one word that is longer than the keyword, and whose other code lacks its first letter. -/
theorem blocksFrom_append_line {first : Char} {more word : Text} {ahead others : Marked}
    (absent : first ∉ codeOf ahead) (joined : ∀ c ∈ word, isDelimiter c = false)
    (longer : (first :: more).length < word.length) (absent' : first ∉ codeOf others)
    (inLine : '\n' ∉ first :: more) (rest : Marked) :
    blocksFrom (first :: more) none 0 (ahead ++ (asCode word ++ (others ++ [('\n', .code)])) ++ rest) =
      blocksFrom (first :: more) (some '\n')
        (ahead ++ (asCode word ++ (others ++ [('\n', Kind.code)]))).length rest := by
  have searched : first :: more ≠ [] := List.cons_ne_nil first more
  simp only [List.append_assoc, List.singleton_append]
  rw [blocksFrom_append_of_notMem absent, blocksFrom_append_of_longer searched joined longer,
    blocksFrom_append_of_notMem absent', blocksFrom_cons_of_absent searched
      (afterKeyword?_cons_blank searched inLine (.inr rfl) rest)]
  congr 1
  simp only [List.length_append, List.length_singleton]
  omega

/-- A search finds in `front` what it finds there alone, and behind it what it finds in the rest alone. -/
def Splits (keyword front : Text) : Prop :=
  ∀ rest, blocksFrom keyword none 0 (mark front ++ rest) =
    blocks keyword front ++ (blocksFrom keyword none 0 rest).map (Block.shift front.length)

theorem splits_of_found {front : Text} {found : List Block} {last : Option Char}
    (free : last.all isDelimiter = true)
    (finds : ∀ rest, blocksFrom keyword none 0 (mark front ++ rest) =
      found ++ blocksFrom keyword last front.length rest) :
    blocks keyword front = found ∧ Splits keyword front := by
  have same : last.all isDelimiter = (none : Option Char).all isDelimiter := free
  have alone : blocks keyword front = found := by
    have whole := finds []
    rwa [List.append_nil, blocksFrom, List.append_nil] at whole
  refine ⟨alone, fun rest => ?_⟩
  rw [finds, alone, map_shift_blocksFrom, Nat.zero_add, blocksFrom_congr same]

theorem Splits.blocks_append {front : Text} (splits : Splits keyword front) (ends : EndsLine front)
    (behind : Text) : blocks keyword (front ++ behind) =
      blocks keyword front ++ (blocks keyword behind).map (Block.shift front.length) := by
  rw [blocks, mark_append ends, splits]
  rfl

namespace Enclosed

variable (block : Enclosed)

def located : Block :=
  let start := block.indent.val.length
  let bodyStart := start + block.keyword.length + block.gap.val.length + 1
  ⟨block.keyword, start, bodyStart, bodyStart + block.body.length, block.body⟩

theorem length_text : block.text.length =
    block.indent.val.length + block.keyword.length + block.gap.val.length + 1 + block.body.length + 2 := by
  simp only [text, List.length_append, List.length_cons, List.length_nil]
  omega

theorem blocksFrom_indent (offset : Nat) (rest : Marked) :
    blocksFrom block.keyword none offset (asCode block.indent.val ++ rest) =
      blocksFrom block.keyword none (offset + block.indent.val.length) rest := by
  have delimiter : ∀ c ∈ block.indent.val, isDelimiter c = true := by
    intro c member
    rcases isGap_eq_true_iff.mp (block.indent.property c member) with rfl | rfl <;> rfl
  obtain ⟨first, more, word⟩ := List.exists_cons_of_ne_nil block.name.searched
  have absent : first ∉ codeOf (asCode block.indent.val) := by
    rw [codeOf_asCode]
    intro member
    exact block.name.not_mem (delimiter first member) (word ▸ List.mem_cons_self)
  have free : (lastOf none (asCode block.indent.val)).all isDelimiter =
      (none : Option Char).all isDelimiter := by
    rw [lastOf, Option.or_none, ← List.getLast?_map, map_fst_asCode]
    cases last : block.indent.val.getLast? with
    | none => rfl
    | some c => exact delimiter c (List.mem_of_getLast? last)
  have passed : blocksFrom block.keyword none offset (asCode block.indent.val ++ rest) =
      blocksFrom block.keyword (lastOf none (asCode block.indent.val))
        (offset + (asCode block.indent.val).length) rest := by
    rw [word]
    exact blocksFrom_append_of_notMem absent none offset rest
  rw [passed, blocksFrom_congr free, asCode, List.length_map]

theorem blocksFrom_text (rest : Marked) :
    blocksFrom block.keyword none 0 (mark block.text ++ rest) =
      [block.located] ++ blocksFrom block.keyword (some '\n') block.text.length rest := by
  obtain ⟨after, inner, marks, bounded, opened, closed⟩ := block.behind_keyword rest
  have inLine : '\n' ∉ block.keyword := block.name.not_mem rfl
  have stop : 0 + block.indent.val.length + (asCode block.keyword ++ after).length -
      (('\n', Kind.code) :: rest).length = block.text.length - 1 := by
    have lengths := congrArg List.length marks
    rw [List.length_append, length_mark, List.length_append, asCode, List.length_map] at lengths
    rw [List.length_cons]
    omega
  have lineBreak : blocksFrom block.keyword (some '}') (block.text.length - 1) (('\n', .code) :: rest) =
      blocksFrom block.keyword (some '\n') block.text.length rest := by
    rw [blocksFrom_cons_of_absent block.name.searched
      (afterKeyword?_cons_blank block.name.searched inLine (.inr rfl) rest)]
    congr 1
    rw [length_text]
    omega
  have located : Block.endingAt block.keyword (0 + block.indent.val.length) (block.text.length - 1)
      (mark block.body) = block.located := by
    simp only [Block.endingAt, Enclosed.located, length_mark, length_text, map_fst_mark, Block.mk.injEq,
      true_and, and_true]
    omega
  rw [marks, blocksFrom_indent, block.name.blocksFrom_found bounded opened closed, stop, lineBreak, located,
    List.singleton_append]

theorem splits_text : blocks block.keyword block.text = [block.located] ∧
    Splits block.keyword block.text :=
  splits_of_found rfl block.blocksFrom_text

end Enclosed

end GradlePublishing.Script
