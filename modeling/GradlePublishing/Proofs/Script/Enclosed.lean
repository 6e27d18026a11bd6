import GradlePublishing.Proofs.Script.Commented
import GradlePublishing.Proofs.Script.WholeLine

/-!
Blocks laid out on lines of their own. A script that is a row of such blocks gives back, for each
keyword, the bodies of the blocks of that keyword in their order (`bodiesIn_flatMap`), whatever literals
and comments stand inside them, as long as their lines are whole and their braces of code are in pairs.
Whether a line break follows the last of them does not matter (`bodies_concat_break`).
-/

namespace GradlePublishing.Script

/-! A line break at the end of a script, which no search for blocks needs. -/

section LastBreak

variable {keyword : Text}

/-- A brace is looked for in front of the line break alone, unless it comes first behind it. -/
theorem afterOpenBrace?_before_break {behind : Marked} (unopened : afterOpenBrace? behind = none)
    (front : Marked) : afterOpenBrace? (front ++ ('\n', .code) :: behind) =
      (afterOpenBrace? front).map (· ++ ('\n', .code) :: behind) := by
  induction front with
  | nil => exact unopened
  | cons x front ih =>
    rw [List.cons_append, afterOpenBrace?_cons, afterOpenBrace?_cons, ih]
    split
    · rfl
    · split <;> rfl

theorem cutAtClosingBrace?_concat_break (depth : Nat) (rest : Marked) :
    cutAtClosingBrace? depth (rest ++ [('\n', .code)]) =
      (cutAtClosingBrace? depth rest).map fun (body, after) => (body, after ++ [('\n', .code)]) := by
  induction rest generalizing depth with
  | nil => cases depth <;> rfl
  | cons x rest ih =>
    rw [List.cons_append]
    rcases cutAtClosingBrace?_cons depth x with ⟨-, closes⟩ | ⟨next, step⟩
    · rw [closes, closes]
      rfl
    · rw [step, step, ih, Option.map_map, Option.map_map]
      rfl

theorem blocksFrom_concat_break (inLine : '\n' ∉ keyword) (before : Option Char) (offset : Nat)
    (rest : Marked) : blocksFrom keyword before offset (rest ++ [('\n', .code)]) =
      blocksFrom keyword before offset rest := by
  have nothing : afterOpenBrace? [] = none := rfl
  fun_induction blocksFrom keyword before offset rest with
  | case1 before offset =>
    by_cases searched : keyword = []
    · rw [List.nil_append, blocksFrom, dif_pos searched]
    · rw [List.nil_append, blocksFrom_cons_of_absent searched
        (afterKeyword?_cons_blank searched inLine (.inr rfl) []), blocksFrom]
  | case2 before offset x rest empty => rw [List.cons_append, blocksFrom, dif_pos empty]
  | case3 before offset x rest searched absent ih =>
    have here := afterKeyword?_before_break before inLine (x :: rest) []
    rw [List.cons_append, absent] at here
    rw [List.cons_append, blocksFrom_cons_of_absent searched here, ih]
  | case4 before offset x rest searched after found unopened ih =>
    have here := afterKeyword?_before_break before inLine (x :: rest) []
    have behind := afterOpenBrace?_before_break nothing after
    rw [List.cons_append, found] at here
    rw [unopened] at behind
    rw [List.cons_append, blocksFrom_cons_of_unopened searched here behind, ih]
  | case5 before offset x rest searched after found inner opened unclosed =>
    have here := afterKeyword?_before_break before inLine (x :: rest) []
    have behind := afterOpenBrace?_before_break nothing after
    have ending := cutAtClosingBrace?_concat_break 0 inner
    rw [List.cons_append, found] at here
    rw [opened] at behind
    rw [unclosed] at ending
    rw [List.cons_append, blocksFrom_cons_of_unclosed searched here behind ending]
  | case6 before offset x rest searched after found inner opened body behind closed stop ih =>
    have here := afterKeyword?_before_break before inLine (x :: rest) []
    have brace := afterOpenBrace?_before_break nothing after
    have ending := cutAtClosingBrace?_concat_break 0 inner
    rw [List.cons_append, found] at here
    rw [opened] at brace
    rw [closed] at ending
    have place : offset + ((rest ++ [('\n', Kind.code)]).length + 1) -
        (behind ++ [('\n', Kind.code)]).length = stop := by
      simp only [List.length_append, List.length_singleton, stop]
      omega
    rw [List.cons_append, blocksFrom_cons_of_closed searched here brace ending, place, ih]

theorem mark_concat_break {content : Text} (ends : EndsLine (content ++ ['\n'])) :
    mark (content ++ ['\n']) = mark content ++ [('\n', .code)] := by
  obtain empty | ⟨front, marked⟩ := ends
  · simp at empty
  · have text : front.map (·.1) = content := by
      have whole := map_fst_mark (content ++ ['\n'])
      rw [marked, List.map_append] at whole
      exact List.append_cancel_right whole
    have alone := (mark_around_code marked).1
    rw [text] at alone
    rw [marked, alone]

theorem blocks_concat_break (inLine : '\n' ∉ keyword) {content : Text}
    (ends : EndsLine (content ++ ['\n'])) : blocks keyword (content ++ ['\n']) = blocks keyword content := by
  rw [blocks, mark_concat_break ends, blocksFrom_concat_break inLine, blocks]

theorem bodies_concat_break (inLine : '\n' ∉ keyword) {content : Text}
    (ends : EndsLine (content ++ ['\n'])) : bodies keyword (content ++ ['\n']) = bodies keyword content := by
  rw [bodies, blocks_concat_break inLine ends, bodies]

end LastBreak

/-! Looking for blocks without their offsets. -/

/-- The bodies of the blocks of `keyword` in the rest of a script, where a word may start. -/
def bodiesIn (keyword : Text) (rest : Marked) : List Text :=
  (blocksFrom keyword none 0 rest).map Block.body

theorem bodies_eq_bodiesIn (keyword content : Text) :
    bodies keyword content = bodiesIn keyword (mark content) := rfl

section Search

variable {keyword : Text} {before : Option Char}

theorem map_body_blocksFrom (free : before.all isDelimiter = true) (offset : Nat) (rest : Marked) :
    (blocksFrom keyword before offset rest).map Block.body = bodiesIn keyword rest := by
  have moved := map_shift_blocksFrom offset keyword none 0 rest
  rw [Nat.zero_add] at moved
  have same : before.all isDelimiter = (none : Option Char).all isDelimiter := free
  rw [blocksFrom_congr same, ← moved, List.map_map]
  rfl

theorem letter_of_afterKeyword? {marks after : Marked} {letter : Char} (member : letter ∈ keyword)
    (found : afterKeyword? keyword before marks = some after) : letter ∈ codeOf marks := by
  rw [mem_codeOf]
  simp only [afterKeyword?, Bool.and_eq_true, beq_iff_eq, List.all_eq_true] at found
  split at found
  · rename_i standing
    rw [← standing.1.1] at member
    obtain ⟨⟨c, kind⟩, inside, rfl⟩ := List.mem_map.mp member
    obtain rfl : kind = .code := standing.1.2 _ inside
    exact List.mem_of_mem_take inside
  · cases found

/-- Lines in whose code a letter of the keyword does not occur hold no block of the keyword. -/
theorem map_body_blocksFrom_line (searched : keyword ≠ []) (inLine : '\n' ∉ keyword) {letter : Char}
    (member : letter ∈ keyword) {front : Marked} (absent : letter ∉ codeOf front) (offset : Nat)
    (behind : Marked) :
    (blocksFrom keyword before offset (front ++ ('\n', .code) :: behind)).map Block.body =
      bodiesIn keyword behind := by
  induction front generalizing before offset with
  | nil =>
    have here : afterKeyword? keyword before (('\n', .code) :: behind) = none :=
      afterKeyword?_cons_blank searched inLine (.inr rfl) behind
    rw [List.nil_append, blocksFrom_cons_of_absent searched here]
    exact map_body_blocksFrom rfl _ behind
  | cons x front ih =>
    have later : letter ∉ codeOf front := by
      rw [mem_codeOf] at absent ⊢
      exact fun inside => absent (List.mem_cons_of_mem x inside)
    rcases afterKeyword?_append_break before inLine (x :: front) with here | ⟨-, found⟩
    · have here := here behind
      rw [List.cons_append] at here ⊢
      rw [blocksFrom_cons_of_absent searched here]
      exact ih later _
    · -- A keyword that starts here has its letter on the line or takes in the line break.
      have inside := letter_of_afterKeyword? member (found [])
      rw [codeOf_append, List.mem_append] at inside
      rcases inside with inside | last
      · exact absurd inside absent
      · obtain rfl : letter = '\n' := List.mem_singleton.mp last
        exact absurd member inLine

theorem afterKeyword?_asCode_append {rest : Marked}
    (bounded : (rest.head?.map (·.1)).all isDelimiter = true) :
    afterKeyword? keyword none (asCode keyword ++ rest) = some rest := by
  have count : (asCode keyword).length = keyword.length := List.length_map _
  have texts : ((asCode keyword ++ rest).take keyword.length).map (·.1) = keyword := by
    rw [← count, List.take_left, map_fst_asCode]
  have kinds : ((asCode keyword ++ rest).take keyword.length).all (·.2 == .code) = true := by
    rw [← count, List.take_left]
    simp [asCode]
  have after : (asCode keyword ++ rest).drop keyword.length = rest := by
    rw [← count, List.drop_left]
  simp [afterKeyword?, texts, kinds, after, isBounded, bounded]

theorem bodiesIn_eq_nil {letter : Char} (member : letter ∈ keyword) {rest : Marked}
    (absent : letter ∉ codeOf rest) : bodiesIn keyword rest = [] := by
  rw [mem_codeOf] at absent
  have nothing (before : Option Char) (offset : Nat) :
      blocksFrom keyword before offset rest = [] := by
    induction rest generalizing before offset with
    | nil => rw [blocksFrom]
    | cons x rest ih =>
      have here : afterKeyword? keyword before (x :: rest) = none := by
        cases found : afterKeyword? keyword before (x :: rest) with
        | none => rfl
        | some after =>
          exact absurd (mem_codeOf.mp (letter_of_afterKeyword? member found)) absent
      rw [blocksFrom_cons_of_absent (List.ne_nil_of_mem member) here]
      exact ih (fun inside => absent (List.mem_cons_of_mem x inside)) _ _
  rw [bodiesIn, nothing, List.map_nil]

end Search

structure IsBlockName (keyword : Text) : Prop where
  searched : keyword ≠ []
  plain : ∀ c ∈ keyword, isPlain c = true
  joined : ∀ c ∈ keyword, isDelimiter c = false

theorem isBlockName_iff {keyword : Text} : IsBlockName keyword ↔
    keyword ≠ [] ∧ keyword.all (fun c => isPlain c && !isDelimiter c) = true := by
  simp only [List.all_eq_true, Bool.and_eq_true, Bool.not_eq_true']
  constructor
  · exact fun name => ⟨name.searched, fun c member => ⟨name.plain c member, name.joined c member⟩⟩
  · exact fun ⟨searched, letters⟩ =>
      ⟨searched, fun c member => (letters c member).1, fun c member => (letters c member).2⟩

instance (keyword : Text) : Decidable (IsBlockName keyword) := decidable_of_iff _ isBlockName_iff.symm

namespace IsBlockName

variable {keyword : Text}

theorem not_mem (name : IsBlockName keyword) {c : Char} (delimiter : isDelimiter c = true) :
    c ∉ keyword := by
  intro member
  rw [name.joined c member] at delimiter
  cases delimiter

theorem isBalanced (name : IsBlockName keyword) : IsBalanced (asCode keyword) :=
  isBalanced_asCode (name.not_mem rfl) (name.not_mem rfl)

theorem afterKeyword?_gap (name : IsBlockName keyword) {before : Option Char} {c : Char}
    (gap : isGap c = true) (rest : Marked) :
    afterKeyword? keyword before ((c, .code) :: rest) = none := by
  obtain ⟨first, more, rfl⟩ := List.exists_cons_of_ne_nil name.searched
  have delimiter : isDelimiter c = true := by
    rcases isGap_eq_true_iff.mp gap with rfl | rfl <;> rfl
  have other : c ≠ first := by
    rintro rfl
    exact name.not_mem delimiter List.mem_cons_self
  simp [afterKeyword?, other]

theorem bodiesIn_gap (name : IsBlockName keyword) (gap : Gap) (rest : Marked) :
    bodiesIn keyword (asCode gap.val ++ rest) = bodiesIn keyword rest := by
  obtain ⟨gap, gaps⟩ := gap
  induction gap with
  | nil => rfl
  | cons c gap ih =>
    have first : isGap c = true := gaps c List.mem_cons_self
    have free : (some c).all isDelimiter = true := by
      rcases isGap_eq_true_iff.mp first with rfl | rfl <;> rfl
    calc
      _ = (blocksFrom keyword (some c) 1 (asCode gap ++ rest)).map Block.body := by
        rw [bodiesIn, asCode, List.map_cons, List.cons_append,
          blocksFrom_cons_of_absent name.searched (name.afterKeyword?_gap first _)]
        rfl
      _ = bodiesIn keyword (asCode gap ++ rest) := map_body_blocksFrom free _ _
      _ = _ := ih fun d member => gaps d (List.mem_cons_of_mem c member)

theorem bodiesIn_break (name : IsBlockName keyword) (rest : Marked) :
    bodiesIn keyword (('\n', .code) :: rest) = bodiesIn keyword rest := by
  obtain ⟨letter, member⟩ := List.exists_mem_of_ne_nil keyword name.searched
  have absent : letter ∉ codeOf [] := List.not_mem_nil
  exact map_body_blocksFrom_line name.searched (name.not_mem rfl) member absent 0 rest

theorem blocksFrom_found (name : IsBlockName keyword) {after inner body behind : Marked}
    (bounded : (after.head?.map (·.1)).all isDelimiter = true)
    (opened : afterOpenBrace? after = some inner)
    (closed : cutAtClosingBrace? 0 inner = some (body, behind)) (offset : Nat) :
    blocksFrom keyword none offset (asCode keyword ++ after) =
      .endingAt keyword offset (offset + (asCode keyword ++ after).length - behind.length) body ::
        blocksFrom keyword (some '}') (offset + (asCode keyword ++ after).length - behind.length)
          behind := by
  have found : afterKeyword? keyword none (asCode keyword ++ after) = some after :=
    afterKeyword?_asCode_append bounded
  obtain ⟨first, more, word⟩ := List.exists_cons_of_ne_nil name.searched
  have marks : asCode keyword ++ after = (first, .code) :: (asCode more ++ after) := by
    rw [word]
    rfl
  rw [marks] at found ⊢
  exact blocksFrom_cons_of_closed name.searched found opened closed

theorem bodiesIn_found (name : IsBlockName keyword) {after inner body behind : Marked}
    (bounded : (after.head?.map (·.1)).all isDelimiter = true)
    (opened : afterOpenBrace? after = some inner)
    (closed : cutAtClosingBrace? 0 inner = some (body, behind)) :
    bodiesIn keyword (asCode keyword ++ after) = body.map (·.1) :: bodiesIn keyword behind := by
  rw [bodiesIn, name.blocksFrom_found bounded opened closed, List.map_cons, map_body_blocksFrom rfl]
  rfl

end IsBlockName

theorem afterOpenBrace?_gap (gap : Gap) (rest : Marked) :
    afterOpenBrace? (asCode gap.val ++ rest) = afterOpenBrace? rest := by
  obtain ⟨gap, gaps⟩ := gap
  induction gap with
  | nil => rfl
  | cons c gap ih =>
    have space : isSpace c = true := Gap.isSpace ⟨c :: gap, gaps⟩ c List.mem_cons_self
    rw [asCode, List.map_cons, List.cons_append, afterOpenBrace?_cons, if_pos (.inr space)]
    exact ih fun d member => gaps d (List.mem_cons_of_mem c member)

/-- The space in front of the two lines that enclose a block, and in front of the opening brace. -/
structure Frame where
  indent : Gap
  gap : Gap
  closing : Gap

/-- A block on lines of its own: the line with its name and the opening brace, the lines inside it, and
the line with the closing brace. -/
structure Enclosed extends Frame where
  keyword : Text
  name : IsBlockName keyword
  inner : Text
  whole : IsWhole inner

namespace Enclosed

def body (block : Enclosed) : Text := '\n' :: (block.inner ++ block.closing.val)

def text (block : Enclosed) : Text :=
  block.indent.val ++ (block.keyword ++ (block.gap.val ++ '{' :: (block.body ++ ['}', '\n'])))

variable (block : Enclosed)

theorem mark_body_append (rest : Text) : mark (block.body ++ rest) =
    ('\n', .code) :: (mark block.inner ++ asCode block.closing.val) ++ mark rest := by
  rw [body, List.cons_append, mark_break, List.append_assoc, mark_append block.whole.ends,
    mark_plain_append block.closing.isPlain, List.cons_append, List.append_assoc]

theorem mark_body : mark block.body =
    ('\n', .code) :: (mark block.inner ++ asCode block.closing.val) := by
  have alone := block.mark_body_append []
  rwa [List.append_nil, mark_nil, List.append_nil] at alone

theorem isBalanced_body : IsBalanced (mark block.body) := by
  have first : IsBalanced (asCode ['\n']) := isBalanced_asCode (by decide) (by decide)
  rw [mark_body]
  exact first.append (block.whole.balanced.append block.closing.isBalanced)

theorem mark_text : mark block.text =
    asCode block.indent.val ++ (asCode block.keyword ++ (asCode block.gap.val ++
      ('{', .code) :: (mark block.body ++ [('}', .code), ('\n', .code)]))) := by
  have opening : ∀ c ∈ ['{'], isPlain c = true := List.all_eq_true.mp (by decide)
  have ending : ∀ c ∈ ['}', '\n'], isPlain c = true := List.all_eq_true.mp (by decide)
  have braced : mark ('{' :: (block.body ++ ['}', '\n'])) =
      ('{', .code) :: (mark block.body ++ [('}', .code), ('\n', .code)]) := by
    rw [← List.singleton_append, mark_plain_append opening, mark_body_append, mark_plain ending,
      ← mark_body]
    rfl
  rw [text, mark_plain_append block.indent.isPlain, mark_plain_append block.name.plain,
    mark_plain_append block.gap.isPlain, braced]

theorem isWhole_text : IsWhole block.text where
  ends := by
    refine .inr ⟨asCode block.indent.val ++ (asCode block.keyword ++ (asCode block.gap.val ++
      ('{', .code) :: (mark block.body ++ [('}', .code)]))), ?_⟩
    rw [mark_text]
    simp
  balanced := by
    have lineEnd : IsBalanced (asCode ['\n']) := isBalanced_asCode (by decide) (by decide)
    have braced := block.isBalanced_body.braced.append lineEnd
    have same : ('{', Kind.code) :: (mark block.body ++ [('}', .code)]) ++ asCode ['\n'] =
        ('{', .code) :: (mark block.body ++ [('}', .code), ('\n', .code)]) := by
      simp [asCode]
    rw [mark_text]
    rw [same] at braced
    exact block.indent.isBalanced.append (block.name.isBalanced.append
      (block.gap.isBalanced.append braced))

/-- What stands behind the keyword: a delimiter, an opening brace, and the body that its brace closes. -/
theorem behind_keyword (rest : Marked) : ∃ after inner,
    mark block.text ++ rest = asCode block.indent.val ++ (asCode block.keyword ++ after) ∧
      (after.head?.map (·.1)).all isDelimiter = true ∧ afterOpenBrace? after = some inner ∧
      cutAtClosingBrace? 0 inner = some (mark block.body, ('\n', .code) :: rest) := by
  refine ⟨asCode block.gap.val ++ ('{', .code) :: (mark block.body ++
    ('}', .code) :: ('\n', .code) :: rest), mark block.body ++ ('}', .code) :: ('\n', .code) :: rest,
    ?_, ?_, ?_, block.isBalanced_body.cut (('\n', .code) :: rest)⟩
  · rw [mark_text]
    simp
  · obtain ⟨gap, gaps⟩ := block.gap
    cases gap with
    | nil => rfl
    | cons c gap =>
      rcases isGap_eq_true_iff.mp (gaps c List.mem_cons_self) with rfl | rfl <;> rfl
  · rw [afterOpenBrace?_gap, afterOpenBrace?_cons]
    rfl

theorem bodiesIn_text (rest : Marked) : bodiesIn block.keyword (mark block.text ++ rest) =
    block.body :: bodiesIn block.keyword rest := by
  obtain ⟨after, inner, marks, bounded, opened, closed⟩ := block.behind_keyword rest
  rw [marks, block.name.bodiesIn_gap, block.name.bodiesIn_found bounded opened closed, map_fst_mark,
    block.name.bodiesIn_break]

theorem codeOf_text_subset {letters : Text} (layout : ['{', '}', '\n', ' ', '\t'] ⊆ letters)
    (word : block.keyword ⊆ letters) (inner : codeOf (mark block.inner) ⊆ letters) :
    codeOf (mark block.text) ⊆ letters := by
  have gap (gap : Gap) : gap.val ⊆ letters := Gap.subset gap (layout (by decide)) (layout (by decide))
  have opening : '{' ∈ letters := layout (by decide)
  have lineBreak : '\n' ∈ letters := layout (by decide)
  have ending : ['}', '\n'] ⊆ letters := List.Subset.trans (by decide) layout
  simp only [mark_text, mark_body, codeOf_append, codeOf_cons_code, codeOf_asCode, codeOf_nil]
  refine List.append_subset.mpr ⟨gap _, List.append_subset.mpr ⟨word, List.append_subset.mpr ⟨gap _,
    List.cons_subset.mpr ⟨opening, List.append_subset.mpr ⟨?_, ending⟩⟩⟩⟩⟩
  exact List.cons_subset.mpr ⟨lineBreak, List.append_subset.mpr ⟨inner, gap _⟩⟩

/-- The marks of a block in whose code a letter of another keyword does not occur. -/
theorem bodiesIn_text_of_absent {keyword : Text} (name : IsBlockName keyword) {letter : Char}
    (member : letter ∈ keyword) (absent : letter ∉ codeOf (mark block.text)) (rest : Marked) :
    bodiesIn keyword (mark block.text ++ rest) = bodiesIn keyword rest := by
  obtain empty | ⟨front, marked⟩ := block.isWhole_text.ends
  · rw [empty, mark_nil, List.nil_append]
  · rw [marked, codeOf_append, List.mem_append, not_or] at absent
    rw [marked, List.append_assoc, List.singleton_append]
    exact map_body_blocksFrom_line name.searched (name.not_mem rfl) member absent.1 0 rest

end Enclosed

/-- In a row of blocks, every search finds the blocks of its keyword, when the other ones lack a letter
of it. -/
theorem bodiesIn_flatMap {keyword : Text} (name : IsBlockName keyword) {blocks : List Enclosed}
    (others : ∀ block ∈ blocks, block.keyword ≠ keyword →
      ∃ letter ∈ keyword, letter ∉ codeOf (mark block.text)) (rest : Marked) :
    bodiesIn keyword (mark (blocks.flatMap Enclosed.text) ++ rest) =
      (blocks.filter (·.keyword = keyword)).map Enclosed.body ++ bodiesIn keyword rest := by
  induction blocks with
  | nil =>
    rw [List.flatMap_nil, mark_nil]
    rfl
  | cons block blocks ih =>
    have later := ih fun other member => others other (List.mem_cons_of_mem block member)
    rw [List.flatMap_cons, mark_append block.isWhole_text.ends, List.append_assoc]
    by_cases same : block.keyword = keyword
    · subst same
      rw [block.bodiesIn_text, later, List.filter_cons_of_pos (by simp), List.map_cons,
        List.cons_append]
    · obtain ⟨letter, member, absent⟩ := others block List.mem_cons_self same
      rw [block.bodiesIn_text_of_absent name member absent, later,
        List.filter_cons_of_neg (by simpa using same)]

/-- In the body of a block that encloses a row of blocks of one keyword, the search finds all of them. -/
theorem Enclosed.bodies_body {keyword : Text} (name : IsBlockName keyword) {outer : Enclosed}
    {blocks : List Enclosed} (row : outer.inner = blocks.flatMap Enclosed.text)
    (same : ∀ block ∈ blocks, block.keyword = keyword) :
    bodies keyword outer.body = blocks.map Enclosed.body := by
  obtain ⟨letter, member⟩ := List.exists_mem_of_ne_nil keyword name.searched
  have empty : bodiesIn keyword [] = [] := bodiesIn_eq_nil member List.not_mem_nil
  have ending : bodiesIn keyword (asCode outer.closing.val) = [] := by
    rw [← List.append_nil (asCode _), name.bodiesIn_gap, empty]
  have all : blocks.filter (·.keyword = keyword) = blocks :=
    List.filter_eq_self.mpr fun block inside => decide_eq_true (same block inside)
  have others : ∀ block ∈ blocks, block.keyword ≠ keyword →
      ∃ letter ∈ keyword, letter ∉ codeOf (mark block.text) :=
    fun block inside other => absurd (same block inside) other
  rw [bodies_eq_bodiesIn, outer.mark_body, name.bodiesIn_break, row, bodiesIn_flatMap name others, all,
    ending, List.append_nil]

end GradlePublishing.Script
