import GradlePublishing.Proofs.Script.CommentLine
import GradlePublishing.Proofs.Script.Nesting
import Mathlib.Data.List.Forall2

/-!
The blocks of a script into which a comment line is put. They are the blocks that were there before
(`commented_blocks`): one in front of the comment stays as it is, one behind it moves, and one around it
takes the comment into its body, again at the end of a line. What the comment holds does not matter.
-/

namespace GradlePublishing.Script

/-- A comment line is put in at the end of a line of a text, or the text stays as it is. -/
inductive Commented (comment : Text) : Text → Text → Prop
  | same (text : Text) : Commented comment text text
  | inserted {front : Text} (ends : EndsLine front) (behind : Text) :
    Commented comment (front ++ behind) (front ++ comment ++ behind)

/-- What becomes of a block when a comment line is put in behind `front`. -/
inductive Block.Commented (front comment : Text) (block commented : Block) : Prop
  | ahead (start : commented.bodyStart = block.bodyStart) (body : commented.body = block.body)
      (fits : block.bodyStart + block.body.length ≤ front.length)
  | behind (start : commented.bodyStart = block.bodyStart + comment.length)
      (body : commented.body = block.body) (fits : front.length ≤ block.bodyStart)
  | around {before after : Text} (ends : EndsLine before)
      (start : commented.bodyStart = block.bodyStart) (body : block.body = before ++ after)
      (longer : commented.body = before ++ comment ++ after)
      (place : block.bodyStart + before.length = front.length)

/-! A line break in front of which nothing depends on what follows it. -/

section Break

variable {keyword : Text}

theorem eq_append_of_afterKeyword? {before : Option Char} {rest after : Marked}
    (found : afterKeyword? keyword before rest = some after) :
    ∃ word, rest = word ++ after ∧ word.length = keyword.length := by
  simp only [afterKeyword?, Bool.and_eq_true, beq_iff_eq] at found
  split at found
  · rename_i standing
    cases found
    have length := congrArg List.length standing.1.1
    rw [List.length_map] at length
    exact ⟨rest.take keyword.length, (List.take_append_drop _ _).symm, length⟩
  · cases found

theorem afterKeyword?_before_break (before : Option Char) (inLine : '\n' ∉ keyword)
    (front behind : Marked) :
    afterKeyword? keyword before (front ++ ('\n', .code) :: behind) =
      (afterKeyword? keyword before front).map (· ++ ('\n', .code) :: behind) := by
  by_cases fits : keyword.length ≤ front.length
  · have bounded :
        isBounded before ((front.drop keyword.length ++ ('\n', Kind.code) :: behind).head?.map (·.1)) =
          isBounded before ((front.drop keyword.length).head?.map (·.1)) := by
      cases front.drop keyword.length with
      | nil => rfl
      | cons x after => rfl
    simp only [afterKeyword?, List.take_append_of_le_length fits, List.drop_append_of_le_length fits,
      bounded]
    rw [apply_ite (Option.map _)]
    rfl
  · have short : ((front.take keyword.length).map (·.1) == keyword) = false := by
      rw [beq_eq_false_iff_ne]
      intro same
      have lengths := congrArg List.length same
      rw [List.length_map, List.length_take] at lengths
      omega
    have broken : (((front ++ ('\n', Kind.code) :: behind).take keyword.length).map (·.1) == keyword) =
        false := by
      rw [beq_eq_false_iff_ne]
      intro same
      obtain ⟨more, count⟩ : ∃ more, keyword.length = front.length + (more + 1) :=
        ⟨keyword.length - front.length - 1, by omega⟩
      apply inLine
      rw [← same, count, List.take_length_add_append]
      simp
    simp only [afterKeyword?, broken, short, Bool.false_and, Bool.false_eq_true, ↓reduceIte,
      Option.map_none]

theorem afterKeyword?_append_break (before : Option Char) (inLine : '\n' ∉ keyword)
    (front : Marked) :
    (∀ behind, afterKeyword? keyword before (front ++ ('\n', .code) :: behind) = none) ∨
      keyword.length ≤ front.length ∧
        ∀ behind, afterKeyword? keyword before (front ++ ('\n', .code) :: behind) =
          some (front.drop keyword.length ++ ('\n', .code) :: behind) := by
  have same := afterKeyword?_before_break before inLine front
  cases found : afterKeyword? keyword before front with
  | none => exact .inl fun behind => by rw [same, found, Option.map_none]
  | some after =>
    obtain ⟨word, rfl, length⟩ := eq_append_of_afterKeyword? found
    refine .inr ⟨by rw [List.length_append]; omega, fun behind => ?_⟩
    rw [same, found, ← length, List.drop_left, Option.map_some]

theorem afterOpenBrace?_append_break (front : Marked) :
    (∀ behind, afterOpenBrace? (front ++ ('\n', .code) :: behind) = afterOpenBrace? behind) ∨
      (∀ behind, afterOpenBrace? (front ++ ('\n', .code) :: behind) = none) ∨
      ∃ later, ('{', .code) :: later <:+ front ∧
        ∀ behind, afterOpenBrace? (front ++ ('\n', .code) :: behind) =
          some (later ++ ('\n', .code) :: behind) := by
  induction front with
  | nil => exact .inl fun behind => by rw [List.nil_append, afterOpenBrace?_cons]; simp [isSpace]
  | cons x front ih =>
    simp only [List.cons_append, afterOpenBrace?_cons]
    by_cases passed : x.2 = .comment ∨ isSpace x.1
    · simp only [if_pos passed]
      refine ih.imp_right (Or.imp_right ?_)
      rintro ⟨later, inside, opened⟩
      exact ⟨later, inside.trans (List.suffix_cons x front), opened⟩
    · simp only [if_neg passed]
      by_cases opens : x = ('{', .code)
      · simp only [if_pos opens]
        exact .inr (.inr ⟨front, opens ▸ List.suffix_rfl, fun behind => rfl⟩)
      · exact .inr (.inl fun behind => if_neg opens)

theorem cutAtClosingBrace?_cons (depth : Nat) (x : Char × Kind) :
    (x = ('}', .code) ∧ ∀ rest, cutAtClosingBrace? depth (x :: rest) = some ([], rest)) ∨
      ∃ next, ∀ rest, cutAtClosingBrace? depth (x :: rest) =
        (cutAtClosingBrace? next rest).map fun (body, after) => (x :: body, after) := by
  by_cases closes : x = ('}', .code)
  · subst closes
    cases depth with
    | zero => exact .inl ⟨rfl, fun rest => rfl⟩
    | succ depth => exact .inr ⟨depth, fun rest => rfl⟩
  · exact .inr ⟨_, fun rest => by simp only [cutAtClosingBrace?, if_neg closes]; rfl⟩

theorem cutAtClosingBrace?_append_break (depth : Nat) (front : Marked) :
    (∃ body later, front = body ++ ('}', .code) :: later ∧
        ∀ behind, cutAtClosingBrace? depth (front ++ ('\n', .code) :: behind) =
          some (body, later ++ ('\n', .code) :: behind)) ∨
      ∃ deeper, ∀ behind, cutAtClosingBrace? depth (front ++ ('\n', .code) :: behind) =
        (cutAtClosingBrace? deeper behind).map fun (body, after) =>
          (front ++ ('\n', .code) :: body, after) := by
  induction front generalizing depth with
  | nil => exact .inr ⟨depth, fun behind => rfl⟩
  | cons x front ih =>
    simp only [List.cons_append]
    rcases cutAtClosingBrace?_cons depth x with ⟨rfl, closed⟩ | ⟨next, goes⟩
    · exact .inl ⟨[], front, rfl, fun behind => closed _⟩
    · rcases ih next with ⟨body, later, rfl, closed⟩ | ⟨deeper, open'⟩
      · exact .inl ⟨x :: body, later, rfl, fun behind => by rw [goes, closed]; rfl⟩
      · exact .inr ⟨deeper, fun behind => by rw [goes, open', Option.map_map]; rfl⟩

/-- The block that opens behind a keyword: its body and what follows it. There is none unless a brace
opens, and no body unless that is closed. -/
def blockBehind? (after : Marked) : Option (Option (Marked × Marked)) :=
  (afterOpenBrace? after).map (cutAtClosingBrace? 0)

theorem length_blockBehind? {after body rest : Marked}
    (found : blockBehind? after = some (some (body, rest))) :
    body.length + rest.length + 2 ≤ after.length := by
  obtain ⟨inner, opened, closed⟩ := Option.map_eq_some_iff.mp found
  have less := length_afterOpenBrace? opened
  have parts := length_cutAtClosingBrace? closed
  omega

/-- How a search behind a keyword can end that comes by a line break: without a block or with one that
ends before the break, or it passes the break, before the block opens or inside its body. -/
theorem blockBehind?_append_break (front : Marked) :
    (∀ behind, blockBehind? (front ++ ('\n', .code) :: behind) = none) ∨
      (∃ body later, body ++ ('}', .code) :: later <:+ front ∧ ∀ behind,
        blockBehind? (front ++ ('\n', .code) :: behind) =
          some (some (body, later ++ ('\n', .code) :: behind))) ∨
      (∀ behind, blockBehind? (front ++ ('\n', .code) :: behind) = blockBehind? behind) ∨
      ∃ inner depth, ('{', .code) :: inner <:+ front ∧ ∀ behind,
        blockBehind? (front ++ ('\n', .code) :: behind) =
          some ((cutAtClosingBrace? depth behind).map fun (body, after) =>
            (inner ++ ('\n', .code) :: body, after)) := by
  simp only [blockBehind?]
  rcases afterOpenBrace?_append_break front with passed | unopened | ⟨inner, brace, opened⟩
  · exact .inr (.inr (.inl fun behind => by rw [passed]))
  · exact .inl fun behind => by rw [unopened, Option.map_none]
  · rcases cutAtClosingBrace?_append_break 0 inner with ⟨body, later, rfl, closed⟩ | ⟨depth, goes⟩
    · refine .inr (.inl ⟨body, later, (List.suffix_cons _ _).trans brace, fun behind => ?_⟩)
      rw [opened, Option.map_some, closed]
    · refine .inr (.inr (.inr ⟨inner, depth, brace, fun behind => ?_⟩))
      rw [opened, Option.map_some, goes]

end Break

/-! Marks of comments and line breaks hold nothing of a block. -/

section Blank

variable {keyword : Text} {before : Option Char} {marks behind : Marked}

theorem afterOpenBrace?_append_blank (blank : IsBlank marks) :
    afterOpenBrace? (marks ++ behind) = afterOpenBrace? behind := by
  induction marks with
  | nil => rfl
  | cons x marks ih =>
    have passed : x.2 = .comment ∨ isSpace x.1 = true := by
      refine (blank x List.mem_cons_self).imp_right ?_
      rintro rfl
      rfl
    rw [List.cons_append, afterOpenBrace?_cons, if_pos passed]
    exact ih fun y member => blank y (List.mem_cons_of_mem x member)

theorem cutAtClosingBrace?_append_blank (blank : IsBlank marks) (depth : Nat) :
    cutAtClosingBrace? depth (marks ++ behind) =
      (cutAtClosingBrace? depth behind).map fun (body, after) => (marks ++ body, after) := by
  induction marks with
  | nil => simp
  | cons x marks ih =>
    have other (c : Char) (brace : c ≠ '\n') : x ≠ (c, .code) := by
      rintro rfl
      rcases blank _ List.mem_cons_self with kind | same
      · cases kind
      · exact brace (Prod.mk.inj same).1
    simp only [List.cons_append, cutAtClosingBrace?, if_neg (other '}' (by decide)),
      if_neg (other '{' (by decide))]
    rw [ih fun y member => blank y (List.mem_cons_of_mem x member), Option.map_map]
    rfl

theorem blockBehind?_append_blank (blank : IsBlank marks) :
    blockBehind? (marks ++ behind) = blockBehind? behind := by
  rw [blockBehind?, afterOpenBrace?_append_blank blank, blockBehind?]

theorem afterKeyword?_cons_blank (searched : keyword ≠ []) (inLine : '\n' ∉ keyword)
    {x : Char × Kind} (blank : x.2 = .comment ∨ x = ('\n', .code)) (rest : Marked) :
    afterKeyword? keyword before (x :: rest) = none := by
  obtain ⟨first, more, rfl⟩ := List.exists_cons_of_ne_nil searched
  rcases blank with comment | rfl
  · simp [afterKeyword?, comment]
  · have other : '\n' ≠ first := fun same => inLine (same ▸ List.mem_cons_self)
    simp [afterKeyword?, other]

theorem blocksFrom_append_blank (searched : keyword ≠ []) (inLine : '\n' ∉ keyword)
    (blank : IsBlank marks) (offset : Nat) :
    blocksFrom keyword before offset (marks ++ ('\n', .code) :: behind) =
      blocksFrom keyword (some '\n') (offset + (marks.length + 1)) behind := by
  induction marks generalizing before offset with
  | nil =>
    rw [List.nil_append, blocksFrom_cons_of_absent searched
      (afterKeyword?_cons_blank searched inLine (.inr rfl) behind)]
    rfl
  | cons x marks ih =>
    rw [List.cons_append, blocksFrom_cons_of_absent searched
      (afterKeyword?_cons_blank searched inLine (blank x List.mem_cons_self) _),
      ih fun y member => blank y (List.mem_cons_of_mem x member), List.length_cons]
    congr 1
    omega

/-- The block with a body whose closing brace stands directly in front of `stop`. -/
def Block.endingAt (keyword : Text) (start stop : Nat) (body : Marked) : Block :=
  ⟨keyword, start, stop - body.length - 1, stop - 1, body.map (·.1)⟩

theorem blocksFrom_cons_of_found {x : Char × Kind} {rest after : Marked} (searched : keyword ≠ [])
    (found : afterKeyword? keyword before (x :: rest) = some after) (offset : Nat) :
    blocksFrom keyword before offset (x :: rest) =
      match blockBehind? after with
      | none => blocksFrom keyword keyword.getLast? (offset + keyword.length) after
      | some none => []
      | some (some (body, behind)) =>
        let stop := offset + (rest.length + 1) - behind.length
        .endingAt keyword offset stop body :: blocksFrom keyword (some '}') stop behind := by
  unfold blockBehind?
  cases opened : afterOpenBrace? after with
  | none => exact blocksFrom_cons_of_unopened searched found opened
  | some inner =>
    rw [Option.map_some]
    cases closed : cutAtClosingBrace? 0 inner with
    | none => exact blocksFrom_cons_of_unclosed searched found opened closed
    | some cut => exact blocksFrom_cons_of_closed searched found opened closed

theorem blocksFrom_congr {other : Option Char}
    (same : before.all isDelimiter = other.all isDelimiter) (offset : Nat) (rest : Marked) :
    blocksFrom keyword before offset rest = blocksFrom keyword other offset rest := by
  cases rest with
  | nil => rw [blocksFrom, blocksFrom]
  | cons x rest =>
    have keywords : afterKeyword? keyword before (x :: rest) =
        afterKeyword? keyword other (x :: rest) := by
      unfold afterKeyword? isBounded
      rw [same]
    by_cases searched : keyword = []
    · rw [blocksFrom, dif_pos searched, blocksFrom, dif_pos searched]
    · cases found : afterKeyword? keyword other (x :: rest) with
      | none =>
        rw [blocksFrom_cons_of_absent searched (keywords.trans found),
          blocksFrom_cons_of_absent searched found]
      | some after =>
        rw [blocksFrom_cons_of_found searched (keywords.trans found),
          blocksFrom_cons_of_found searched found]

end Blank

theorem le_bodyStart_of_mem_blocksFrom {keyword : Text} {before : Option Char} {offset : Nat}
    {rest : Marked} {block : Block} (found : block ∈ blocksFrom keyword before offset rest) :
    offset ≤ block.bodyStart := by
  fun_induction blocksFrom keyword before offset rest with
  | case1 => cases found
  | case2 => cases found
  | case3 before offset x rest searched absent ih =>
    have := ih found
    omega
  | case4 before offset x rest searched after read unopened ih =>
    have := ih found
    omega
  | case5 => cases found
  | case6 before offset x rest searched after read inner opened body behind closed stop ih =>
    have behindKeyword := length_afterKeyword? read
    have behindBrace := length_afterOpenBrace? opened
    have parts := length_cutAtClosingBrace? closed
    rw [List.length_cons] at behindKeyword
    rcases List.mem_cons.mp found with rfl | later
    · dsimp only
      omega
    · have := ih later
      omega

section Insertion

variable {keyword front comment : Text}

theorem commented_shift {blocks : List Block}
    (fits : ∀ block ∈ blocks, front.length ≤ block.bodyStart) :
    List.Forall₂ (Block.Commented front comment) blocks
      (blocks.map (Block.shift comment.length)) := by
  rw [List.forall₂_map_right_iff, List.forall₂_same]
  exact fun block member => .behind rfl rfl (fits block member)

theorem commented_rest (before : Option Char) {offset : Nat} (fits : front.length ≤ offset)
    (rest : Marked) : List.Forall₂ (Block.Commented front comment)
      (blocksFrom keyword before offset rest)
      (blocksFrom keyword before (offset + comment.length) rest) := by
  rw [← map_shift_blocksFrom]
  exact commented_shift fun block member =>
    Nat.le_trans fits (le_bodyStart_of_mem_blocksFrom member)

theorem blocksFrom_append_comment (searched : keyword ≠ []) (inLine : '\n' ∉ keyword)
    (line : CommentLine comment) {before : Option Char} (offset : Nat) (behind : Marked) :
    blocksFrom keyword before offset (mark comment ++ behind) =
      blocksFrom keyword (some '\n') (offset + comment.length) behind := by
  obtain ⟨inside, marked, comments⟩ := line.mark_eq
  have blank : IsBlank inside := fun x member => .inl (comments x member)
  have count : inside.length + 1 = comment.length := by
    rw [← length_mark, marked, List.length_append, List.length_singleton]
  rw [marked, List.append_assoc, List.singleton_append, blocksFrom_append_blank searched inLine blank,
    count]

/-- What stands between a brace and the end of a text ends as the text does. -/
theorem endsLine_of_suffix {inner : Marked}
    (inside : ('{', .code) :: (inner ++ [('\n', .code)]) <:+ mark front) :
    EndsLine (inner.map (·.1) ++ ['\n']) := by
  obtain ⟨ahead, whole⟩ := inside
  have marked := (mark_around_code whole.symm).2
  rw [List.map_append] at marked
  exact .inr ⟨inner, marked⟩

theorem commented_endingAt_ahead {start stop : Nat} {body : Marked} (fits : stop ≤ front.length)
    (positive : body.length < stop) : (Block.endingAt keyword start stop body).Commented front comment
      (Block.endingAt keyword start stop body) := by
  refine .ahead rfl rfl ?_
  simp only [Block.endingAt, List.length_map]
  omega

theorem commented_endingAt_behind {start stop : Nat} {body : Marked}
    (fits : front.length + body.length < stop) :
    (Block.endingAt keyword start stop body).Commented front comment
      (Block.endingAt keyword start (stop + comment.length) body) := by
  refine .behind ?_ rfl ?_
  all_goals
    simp only [Block.endingAt]
    omega

theorem commented_endingAt_around {start stop : Nat} {inner body : Marked}
    (inside : ('{', .code) :: (inner ++ [('\n', .code)]) <:+ mark front)
    (place : stop = front.length + body.length + 1) :
    (Block.endingAt keyword start stop (inner ++ ('\n', .code) :: body)).Commented front comment
      (Block.endingAt keyword start (stop + comment.length)
        (inner ++ ('\n', .code) :: (mark comment ++ body))) := by
  have text : (inner ++ ('\n', .code) :: body).map (·.1) =
      inner.map (·.1) ++ ['\n'] ++ body.map (·.1) := by
    simp
  have longer : (inner ++ ('\n', .code) :: (mark comment ++ body)).map (·.1) =
      inner.map (·.1) ++ ['\n'] ++ comment ++ body.map (·.1) := by
    simp [map_fst_mark]
  have fits := inside.length_le
  simp only [List.length_cons, List.length_append, List.length_nil, length_mark] at fits
  refine .around (endsLine_of_suffix inside) ?_ text longer ?_
  all_goals
    simp only [Block.endingAt, List.length_map, List.length_append, List.length_cons,
      List.length_nil, length_mark]
    omega

/-- A search that stands in front of the end of a line, with `later` in between, finds the same blocks
whether the comment follows there or not. -/
def CommentedFrom (keyword front comment : Text) (behind : Marked) (before : Option Char)
    (offset : Nat) (later : Marked) : Prop :=
  List.Forall₂ (Block.Commented front comment)
    (blocksFrom keyword before offset (later ++ ('\n', .code) :: behind))
    (blocksFrom keyword before offset (later ++ ('\n', .code) :: (mark comment ++ behind)))

theorem commentedFrom_of_found (searched : keyword ≠ []) (line : CommentLine comment)
    {behind : Marked} {before : Option Char} {offset : Nat} {x : Char × Kind} {more after : Marked}
    (tail : x :: (more ++ [('\n', .code)]) <:+ mark front)
    (place : offset + (more.length + 2) = front.length) (within : after <:+ x :: more)
    (count : after.length + keyword.length = more.length + 1)
    (found : ∀ rest, afterKeyword? keyword before (x :: (more ++ ('\n', .code) :: rest)) =
      some (after ++ ('\n', .code) :: rest))
    (shorter : ∀ {later : Marked} {last : Option Char} {start : Nat}, later <:+ x :: more →
      later.length ≤ more.length → start + (later.length + 1) = front.length →
        CommentedFrom keyword front comment behind last start later) :
    CommentedFrom keyword front comment behind before offset (x :: more) := by
  have positive := List.length_pos_iff.mpr searched
  have unopened : CommentedFrom keyword front comment behind keyword.getLast?
      (offset + keyword.length) after := shorter within (by omega) (by omega)
  have moved {rest : Marked} (less : rest.length ≤ behind.length) :
      offset + ((more ++ ('\n', .code) :: (mark comment ++ behind)).length + 1) - rest.length =
        offset + ((more ++ ('\n', .code) :: behind).length + 1) - rest.length + comment.length := by
    simp only [List.length_append, List.length_cons, length_mark]
    omega
  rw [CommentedFrom, List.cons_append, List.cons_append, blocksFrom_cons_of_found searched (found _),
    blocksFrom_cons_of_found searched (found _)]
  rcases blockBehind?_append_break after with
    none | ⟨body, later, inside, closed⟩ | passed | ⟨inner, depth, brace, goes⟩
  · rw [none, none]
    exact unopened
  · have bound := inside.length_le
    have stop (rest : Marked) : offset + ((more ++ ('\n', .code) :: rest).length + 1) -
        (later ++ ('\n', .code) :: rest).length = offset + (more.length + 1) - later.length := by
      simp only [List.length_append, List.length_cons]
      omega
    rw [List.length_append, List.length_cons] at bound
    rw [closed, closed]
    dsimp only
    rw [stop, stop]
    refine .cons (commented_endingAt_ahead (by omega) (by omega)) ?_
    exact shorter (.trans ⟨body ++ [('}', .code)], by simp⟩ (inside.trans within)) (by omega)
      (by omega)
  · rw [passed, passed, blockBehind?_append_blank line.isBlank]
    match opened : blockBehind? behind with
    | none => exact unopened
    | some none => exact .nil
    | some (some (body, rest)) =>
      have bound := length_blockBehind? opened
      dsimp only
      rw [moved (by omega), List.length_append, List.length_cons]
      exact .cons (commented_endingAt_behind (by omega)) (commented_rest _ (by omega) rest)
  · rw [goes, goes, cutAtClosingBrace?_append_blank line.isBlank]
    cases closed : cutAtClosingBrace? depth behind with
    | none => exact .nil
    | some cut =>
      obtain ⟨body, rest⟩ := cut
      have parts := length_cutAtClosingBrace? closed
      obtain ⟨ahead, same⟩ := brace.trans within
      have inside : ('{', .code) :: (inner ++ [('\n', .code)]) <:+ mark front :=
        .trans ⟨ahead, by simpa using congrArg (· ++ [('\n', Kind.code)]) same⟩ tail
      dsimp only [Option.map_some]
      rw [moved (by omega), List.length_append, List.length_cons]
      exact .cons (commented_endingAt_around inside (by omega)) (commented_rest _ (by omega) rest)

theorem commentedFrom (searched : keyword ≠ []) (inLine : '\n' ∉ keyword)
    (line : CommentLine comment) {later : Marked} (behind : Marked) {before : Option Char}
    {offset : Nat} (tail : later ++ [('\n', .code)] <:+ mark front)
    (place : offset + (later.length + 1) = front.length) :
    CommentedFrom keyword front comment behind before offset later := by
  induction size : later.length using Nat.strongRecOn generalizing later before offset with
  | ind size ih =>
  cases later with
  | nil =>
    have absent (rest : Marked) :
        afterKeyword? keyword before (('\n', .code) :: rest) = none :=
      afterKeyword?_cons_blank searched inLine (.inr rfl) rest
    rw [CommentedFrom, List.nil_append, List.nil_append,
      blocksFrom_cons_of_absent searched (absent _), blocksFrom_cons_of_absent searched (absent _),
      blocksFrom_append_comment searched inLine line]
    exact commented_rest _ (Nat.le_of_eq (by simpa using place.symm)) behind
  | cons x more =>
    rw [List.length_cons] at place size
    rw [List.cons_append] at tail
    have shorter {rest : Marked} {last : Option Char} {start : Nat} (inside : rest <:+ x :: more)
        (less : rest.length ≤ more.length) (start' : start + (rest.length + 1) = front.length) :
        CommentedFrom keyword front comment behind last start rest := by
      refine ih rest.length (by omega) ?_ start' rfl
      obtain ⟨ahead, same⟩ := inside
      exact .trans ⟨ahead, by rw [← List.append_assoc, same, List.cons_append]⟩ tail
    rcases afterKeyword?_append_break before inLine (x :: more) with absent | ⟨fits, found⟩
    · simp only [List.cons_append] at absent
      rw [CommentedFrom, List.cons_append, List.cons_append,
        blocksFrom_cons_of_absent searched (absent _), blocksFrom_cons_of_absent searched (absent _)]
      exact shorter (List.suffix_cons x more) (Nat.le_refl _) (by omega)
    · refine commentedFrom_of_found searched line tail place (List.drop_suffix _ _) ?_ found shorter
      rw [List.length_cons] at fits
      rw [List.length_drop, List.length_cons]
      omega

theorem flatMap_eq_of_forall₂ {α β γ : Type} {R : α → β → Prop} {f : α → List γ} {g : β → List γ}
    {xs : List α} {ys : List β} (related : List.Forall₂ R xs ys) (same : ∀ x y, R x y → f x = g y) :
    xs.flatMap f = ys.flatMap g := by
  induction related with
  | nil => rfl
  | cons here _ ih => rw [List.flatMap_cons, List.flatMap_cons, same _ _ here, ih]

/-- The blocks of a script with a comment line are those of the script without it. -/
theorem commented_blocks (searched : keyword ≠ []) (inLine : '\n' ∉ keyword)
    (line : CommentLine comment) (ends : EndsLine front) (behind : Text) :
    List.Forall₂ (Block.Commented front comment) (blocks keyword (front ++ behind))
      (blocks keyword (front ++ comment ++ behind)) := by
  rw [blocks, blocks, List.append_assoc, mark_append ends, mark_append ends,
    mark_append line.endsLine]
  rcases ends with rfl | ⟨before, marked⟩
  · have first : (none : Option Char).all isDelimiter = (some '\n').all isDelimiter := rfl
    rw [mark_nil, List.nil_append, List.nil_append, blocksFrom_append_comment searched inLine line,
      blocksFrom_congr first]
    exact commented_rest _ (Nat.zero_le _) _
  · rw [marked, List.append_assoc, List.append_assoc]
    refine commentedFrom searched inLine line (mark behind) (marked ▸ List.suffix_rfl) ?_
    rw [← length_mark front, marked, List.length_append, List.length_singleton, Nat.zero_add]

theorem Block.Commented.body_commented {block commented : Block}
    (related : block.Commented front comment commented) :
    Script.Commented comment block.body commented.body := by
  cases related with
  | ahead _ body _ => exact body ▸ .same _
  | behind _ body _ => exact body ▸ .same _
  | around ends _ body longer _ => exact body ▸ longer ▸ .inserted ends _

theorem commented_bodies (searched : keyword ≠ []) (inLine : '\n' ∉ keyword)
    (line : CommentLine comment) {plain commented : Text} (related : Commented comment plain commented) :
    List.Forall₂ (Commented comment) (bodies keyword plain) (bodies keyword commented) := by
  cases related with
  | same text => exact List.forall₂_same.mpr fun body _ => .same body
  | inserted ends behind =>
    rw [bodies, bodies, List.forall₂_map_left_iff, List.forall₂_map_right_iff]
    exact (commented_blocks searched inLine line ends behind).imp fun _ _ => (·.body_commented)

end Insertion

end GradlePublishing.Script
