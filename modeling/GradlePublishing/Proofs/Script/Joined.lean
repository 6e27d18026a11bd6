import GradlePublishing.Proofs.Script.Depth
import GradlePublishing.Proofs.Script.Enclosed

/-!
Scripts read piece by piece. Where a line break of code parts a script so that no block reaches over it
(`Joins`), the blocks of the script are those of the one piece and then those of the other, and so is its mask
(`blocks_mask_of_joins`).
-/

namespace GradlePublishing.Script

section Search

variable {keyword : Text}

theorem suffix_of_afterOpenBrace? {rest inner : Marked} (opened : afterOpenBrace? rest = some inner) :
    ('{', .code) :: inner <:+ rest := by
  unfold afterOpenBrace? at opened
  split at opened
  · rename_i kept same
    cases opened
    rw [← same]
    exact List.dropWhile_suffix _
  · cases opened

theorem cutAtClosingBrace?_append {depth : Nat} {rest body after : Marked}
    (closed : cutAtClosingBrace? depth rest = some (body, after)) (more : Marked) :
    rest = body ++ ('}', .code) :: after ∧
      cutAtClosingBrace? depth (rest ++ more) = some (body, after ++ more) := by
  induction rest generalizing depth body with
  | nil => simp [cutAtClosingBrace?] at closed
  | cons x rest ih =>
    rcases cutAtClosingBrace?_cons depth x with ⟨rfl, closes⟩ | ⟨next, goes⟩
    · rw [closes] at closed
      cases closed
      exact ⟨rfl, closes _⟩
    · rw [goes] at closed
      obtain ⟨⟨inner, behind⟩, cut, same⟩ := Option.map_eq_some_iff.mp closed
      cases same
      obtain ⟨rfl, longer⟩ := ih cut
      exact ⟨rfl, by rw [List.cons_append, goes, longer]; rfl⟩

/-- Every brace that is opened among the marks is closed there. -/
def ClosesAll (marks : Marked) : Prop :=
  ∀ inner, ('{', .code) :: inner <:+ marks → (cutAtClosingBrace? 0 inner).isSome = true

theorem ClosesAll.of_suffix {marks tail : Marked} (closed : ClosesAll marks) (part : tail <:+ marks) :
    ClosesAll tail := fun inner opens => closed inner (opens.trans part)

/-- A search finds what lies in front of a line break and then what lies behind it, since it neither stops in
front of the line break nor finds a block there that opens behind it. -/
theorem blocksFrom_append_break (searched : keyword ≠ []) (inLine : '\n' ∉ keyword)
    {front behind : Marked} (closed : ClosesAll front) (unopened : afterOpenBrace? behind = none)
    (before : Option Char) (offset : Nat) :
    blocksFrom keyword before offset (front ++ ('\n', .code) :: behind) =
      blocksFrom keyword before offset front ++
        blocksFrom keyword (some '\n') (offset + (front.length + 1)) behind := by
  fun_induction blocksFrom keyword before offset front with
  | case1 before offset =>
    rw [List.nil_append, blocksFrom_cons_of_absent searched
      (afterKeyword?_cons_blank searched inLine (.inr rfl) behind)]
    rfl
  | case2 before offset x rest empty => exact absurd empty searched
  | case3 before offset x rest _ absent ih =>
    have here := afterKeyword?_before_break before inLine (x :: rest) behind
    rw [absent, List.cons_append] at here
    rw [List.cons_append, blocksFrom_cons_of_absent searched here,
      ih (closed.of_suffix (List.suffix_cons x rest))]
    congr 2
    rw [List.length_cons]
    omega
  | case4 before offset x rest _ after found absent ih =>
    have here := afterKeyword?_before_break before inLine (x :: rest) behind
    have brace := afterOpenBrace?_before_break unopened after
    obtain ⟨word, whole, length⟩ := eq_append_of_afterKeyword? found
    rw [found, List.cons_append] at here
    rw [absent] at brace
    rw [List.cons_append, blocksFrom_cons_of_unopened searched here brace,
      ih (closed.of_suffix (whole ▸ List.suffix_append word after)), whole, List.length_append, length]
    congr 2
    omega
  | case5 before offset x rest _ after found inner opened unclosed =>
    obtain ⟨word, whole, -⟩ := eq_append_of_afterKeyword? found
    have block := closed inner ((suffix_of_afterOpenBrace? opened).trans
      (whole ▸ List.suffix_append word after))
    rw [unclosed] at block
    cases block
  | case6 before offset x rest _ after found inner opened body later cut stop ih =>
    have here := afterKeyword?_before_break before inLine (x :: rest) behind
    have brace := afterOpenBrace?_before_break unopened after
    obtain ⟨word, whole, -⟩ := eq_append_of_afterKeyword? found
    obtain ⟨ahead, skipped⟩ := suffix_of_afterOpenBrace? opened
    obtain ⟨parts, ending⟩ := cutAtClosingBrace?_append cut (('\n', .code) :: behind)
    rw [found, List.cons_append] at here
    rw [opened] at brace
    have tail : later <:+ x :: rest :=
      ⟨word ++ (ahead ++ ('{', .code) :: (body ++ [('}', .code)])), by rw [whole, ← skipped, parts]; simp⟩
    have bound := tail.length_le
    rw [List.length_cons] at bound
    have place : offset + ((rest ++ ('\n', .code) :: behind).length + 1) -
        (later ++ ('\n', Kind.code) :: behind).length = stop := by
      simp only [List.length_append, List.length_cons, stop]
      omega
    have next : stop + (later.length + 1) = offset + ((x :: rest).length + 1) := by
      simp only [List.length_cons, stop]
      omega
    rw [List.cons_append, blocksFrom_cons_of_closed searched here brace ending, place,
      ih (closed.of_suffix tail), next, List.cons_append]

end Search

/-- Two pieces of a script that can be read one by one: the line break between them is code, the first closes
every brace that it opens, and no brace comes first in the second. -/
structure Joins (front behind : Text) : Prop where
  code : (classify (front ++ '\n' :: behind))[front.length]? = some .code
  closed : ∀ opening < front.length, (mark (front ++ '\n' :: behind))[opening]? = some ('{', .code) →
    ∃ closing < front.length, IsClosing (front ++ '\n' :: behind) opening closing
  unopened : ∀ opening, ¬ IsOpening (front ++ '\n' :: behind) (front.length + 1) opening

theorem openBraceAt?_eq_none_iff {content : Text} {index : Nat} :
    openBraceAt? content content.length index = none ↔ ∀ opening, ¬ IsOpening content index opening := by
  simp only [← openBraceAt?_eq_some_iff, Option.eq_none_iff_forall_ne_some]

theorem joins_iff {front behind : Text} : Joins front behind ↔
    (classify (front ++ '\n' :: behind))[front.length]? = some .code ∧
      (∀ opening < front.length, (mark (front ++ '\n' :: behind))[opening]? = some ('{', .code) →
        ∃ closing < front.length, closingBraceAt? (front ++ '\n' :: behind)
          (front ++ '\n' :: behind).length 0 (opening + 1) = some closing) ∧
      openBraceAt? (front ++ '\n' :: behind) (front ++ '\n' :: behind).length (front.length + 1) = none := by
  rw [openBraceAt?_eq_none_iff]
  constructor
  · rintro ⟨code, closed, unopened⟩
    refine ⟨code, fun opening inside brace => ?_, unopened⟩
    obtain ⟨closing, within, closes⟩ := closed opening inside brace
    exact ⟨closing, within, (isClosing_iff brace).mpr closes⟩
  · rintro ⟨code, closed, unopened⟩
    refine ⟨code, fun opening inside brace => ?_, unopened⟩
    obtain ⟨closing, within, closes⟩ := closed opening inside brace
    exact ⟨closing, within, (isClosing_iff brace).mp closes⟩

instance (front behind : Text) : Decidable (Joins front behind) := decidable_of_iff _ joins_iff.symm

namespace Joins

variable {front behind : Text} (joins : Joins front behind)

include joins

theorem mark_eq : mark (front ++ '\n' :: behind) = mark front ++ ('\n', .code) :: mark behind := by
  have char : (front ++ '\n' :: behind)[front.length]? = some '\n' := by simp
  have here := getElem?_mark char joins.code
  have before := mark_take here
  have after := mark_drop here
  rw [List.take_left] at before
  rw [List.drop_length_add_append, List.drop_one, List.tail_cons] at after
  rw [before, after]
  exact eq_take_append_cons_drop here

/-! In the first piece alone the same braces are closed as in the script. -/

theorem getElem?_mark_front {index : Nat} (inside : index < front.length) :
    (mark (front ++ '\n' :: behind))[index]? = (mark front)[index]? := by
  rw [joins.mark_eq, List.getElem?_append_left (by rwa [length_mark])]

theorem balances_iff {opening index : Nat} (inside : index < front.length) :
    Balances (front ++ '\n' :: behind) opening index ↔ Balances front opening index := by
  have counts (brace : Char) : braces (front ++ '\n' :: behind) brace opening (index + 1) =
      braces front brace opening (index + 1) := by
    rw [braces, marksBetween, joins.mark_eq, List.take_append_of_le_length (by rwa [length_mark]), braces,
      marksBetween]
  have brace := joins.getElem?_mark_front inside
  constructor
  · rintro ⟨reached, here, equal⟩
    exact ⟨reached, by rwa [← brace], by rwa [← counts, ← counts]⟩
  · rintro ⟨reached, here, equal⟩
    exact ⟨reached, by rwa [brace], by rwa [counts, counts]⟩

theorem exists_isClosing {opening : Nat} (brace : (mark front)[opening]? = some ('{', .code)) :
    ∃ closing < front.length, IsClosing front opening closing := by
  have inside := (List.getElem?_eq_some_iff.mp brace).1
  rw [length_mark] at inside
  rw [← joins.getElem?_mark_front inside] at brace
  obtain ⟨closing, within, balances, first⟩ := joins.closed opening inside brace
  refine ⟨closing, within, (joins.balances_iff within).mp balances, fun index before other => ?_⟩
  exact first index before ((joins.balances_iff (Nat.lt_trans before within)).mpr other)

theorem closesAll : ClosesAll (mark front) := by
  rintro inner ⟨ahead, whole⟩
  have brace : (mark front)[ahead.length]? = some ('{', .code) := by simp [← whole]
  obtain ⟨closing, -, closes⟩ := joins.exists_isClosing brace
  have cut := cutAtClosingBrace?_marksBetween (Nat.le_refl front.length) 0 (ahead.length + 1)
  rw [(isClosing_iff brace).mpr closes, marksBetween, ← length_mark front, List.take_length, ← whole,
    List.drop_length_add_append, List.drop_one, List.tail_cons] at cut
  rw [cut]
  rfl

theorem depthBehind_eq : depthBehind 0 (mark front) = 0 := by
  have outside : IsTopLevel front front.length := by
    rintro opening ⟨-, brace, unclosed⟩
    obtain ⟨closing, within, closes⟩ := joins.exists_isClosing brace
    exact unclosed closing within closes
  have surface := depth_eq_zero_iff.mpr outside
  rwa [depthAt, ← length_mark, List.take_length] at surface

theorem afterOpenBrace?_eq_none : afterOpenBrace? (mark behind) = none := by
  have opens := afterOpenBrace?_marksBetween (Nat.le_refl (front ++ '\n' :: behind).length)
    (front.length + 1)
  rwa [openBraceAt?_eq_none_iff.mpr joins.unopened, marksBetween, ← length_mark (front ++ '\n' :: behind),
    List.take_length, joins.mark_eq, ← length_mark front, List.drop_length_add_append, List.drop_one,
    List.tail_cons] at opens

end Joins

/-- A script of two pieces has the blocks of the first and, further on, those of the second. Its mask is that of
the first, the line break, and that of the second. -/
theorem blocks_mask_of_joins {front behind : Text} (joins : Joins front behind) :
    (∀ keyword : Text, keyword ≠ [] → (∀ c ∈ keyword, isDelimiter c = false) →
      blocks keyword (front ++ '\n' :: behind) =
        blocks keyword front ++ (blocks keyword behind).map (Block.shift (front.length + 1))) ∧
      mask (front ++ '\n' :: behind) = mask front ++ '\n' :: mask behind := by
  constructor
  · intro keyword searched solid
    have inLine : '\n' ∉ keyword := fun member => absurd (solid _ member) (by decide)
    have free : (some '\n').all isDelimiter = (none : Option Char).all isDelimiter := rfl
    rw [blocks, joins.mark_eq, blocksFrom_append_break searched inLine joins.closesAll
      joins.afterOpenBrace?_eq_none, length_mark, blocks, blocks, map_shift_blocksFrom,
      blocksFrom_congr free]
  · rw [mask, joins.mark_eq, maskFrom_append, joins.depthBehind_eq, maskFrom_cons]
    rfl

/-- A stray brace, a keyword that waits for a block at the end of the first piece, and a literal without an
end. -/
theorem blocks_mask_of_joins_waiting :
    let front : Text := r"} b {'}'} b"
    let behind : Text := r"// {
x b {} '"
    Joins front behind ∧
      blocks "b" (front ++ '\n' :: behind) =
        blocks "b" front ++ (blocks "b" behind).map (Block.shift (front.length + 1)) ∧
      (blocks "b" front).map (·.start) = [2] ∧ (blocks "b" behind).map (·.start) = [7] ∧
      mask (front ++ '\n' :: behind) = mask front ++ '\n' :: mask behind := by
  intro front behind
  have joins : Joins front behind := by decide +kernel
  obtain ⟨found, masked⟩ := blocks_mask_of_joins joins
  have solid : ∀ c ∈ "b".toList, isDelimiter c = false := List.forall_mem_singleton.mpr rfl
  exact ⟨joins, found "b" (by decide) solid, by decide +kernel, by decide +kernel, masked⟩

end GradlePublishing.Script
