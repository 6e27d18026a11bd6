import GradlePublishing.Proofs.Script.Nesting

/-!
Which blocks a search finds. The places where a block may start can be told without a search
(`IsHead`), and so can the brace that closes it (`IsClosing`). The search jumps ahead from a keyword that
opens no block and from the end of a block, but misses nothing by it: it finds every head outside the
blocks before it, up to the first of these that is never closed (`blocks_heads`).
-/

namespace GradlePublishing.Script

/-- The keyword stands at `start` in the code, with a delimiter or nothing at all on either side. -/
structure IsKeyword (keyword content : Text) (start : Nat) : Prop where
  text : (content.drop start).take keyword.length = keyword
  code : ∀ kind ∈ ((classify content).drop start).take keyword.length, kind = .code
  before : start = 0 ∨ ∃ c, content[start - 1]? = some c ∧ isDelimiter c = true
  behind : start + keyword.length = content.length ∨
    ∃ c, content[start + keyword.length]? = some c ∧ isDelimiter c = true

/-- The brace at `opening` is the next character from `index` on that is neither space nor comment. -/
structure IsOpening (content : Text) (index opening : Nat) : Prop where
  behind : index ≤ opening
  brace : (mark content)[opening]? = some ('{', .code)
  gap : ∀ between, index ≤ between → between < opening →
    ∃ x, (mark content)[between]? = some x ∧ (x.2 = .comment ∨ isSpace x.1 = true)

/-- A block of `keyword` may start at `start`, with the brace at `opening`. -/
structure IsHead (keyword content : Text) (start opening : Nat) : Prop where
  stands : IsKeyword keyword content start
  opens : IsOpening content (start + keyword.length) opening

/-- How often a brace stands in the code from `opening` on and before `stop`. -/
def braces (content : Text) (brace : Char) (opening stop : Nat) : Nat :=
  (marksBetween content stop opening).count (brace, .code)

/-- The brace at `index` closes as many braces as have been opened from `opening` on. -/
structure Balances (content : Text) (opening index : Nat) : Prop where
  behind : opening ≤ index
  brace : (mark content)[index]? = some ('}', .code)
  equal : braces content '}' opening (index + 1) = braces content '{' opening (index + 1)

/-- The first brace that balances the one at `opening`. -/
structure IsClosing (content : Text) (opening closing : Nat) : Prop where
  balances : Balances content opening closing
  first : ∀ index < closing, ¬ Balances content opening index

structure Block.IsWhole (keyword content : Text) (block : Block) : Prop where
  searched : block.keyword = keyword
  starts : 0 < block.bodyStart
  head : IsHead keyword content block.start (block.bodyStart - 1)
  closing : IsClosing content (block.bodyStart - 1) block.bodyEnd
  text : block.body = (content.take block.bodyEnd).drop block.bodyStart

/-- The index lies in a block behind its first character. -/
def Block.Covers (block : Block) (index : Nat) : Prop := block.start < index ∧ index ≤ block.bodyEnd

/-- The index lies in none of the blocks. -/
def IsOutside (found : List Block) (index : Nat) : Prop := ∀ block ∈ found, ¬ block.Covers index

theorem isOutside_nil (index : Nat) : IsOutside [] index := by
  rintro block ⟨⟩

theorem isOutside_cons {block : Block} {found : List Block} {index : Nat} :
    IsOutside (block :: found) index ↔ ¬ block.Covers index ∧ IsOutside found index :=
  List.forall_mem_cons

section Keyword

variable {keyword content : Text}

theorem all_getLast?_take_iff {start : Nat} (inside : start ≤ content.length) :
    (content.take start).getLast?.all isDelimiter = true ↔
      start = 0 ∨ ∃ c, content[start - 1]? = some c ∧ isDelimiter c = true := by
  match start with
  | 0 => simp
  | before + 1 =>
    have here : content[before]? = some content[before] := List.getElem?_eq_getElem inside
    rw [List.take_succ_eq_append_getElem inside, List.getLast?_concat]
    simp [here]

theorem all_head?_drop_iff {stop : Nat} (inside : stop ≤ content.length) :
    (content.drop stop).head?.all isDelimiter = true ↔
      stop = content.length ∨ ∃ c, content[stop]? = some c ∧ isDelimiter c = true := by
  rw [List.head?_drop]
  rcases Nat.eq_or_lt_of_le inside with ended | within
  · simp [ended]
  · simp [List.getElem?_eq_getElem within, Nat.ne_of_lt within]

theorem standsAt_iff {index : Nat} (searched : keyword ≠ []) :
    standsAt keyword content content.length index = true ↔ IsKeyword keyword content index := by
  have positive := List.length_pos_iff.mpr searched
  rw [standsAt, isKeywordOccurrence, isBounded, Nat.add_sub_cancel_left]
  simp only [Bool.and_eq_true, decide_eq_true_eq, beq_iff_eq, List.all_eq_true]
  constructor
  · rintro ⟨⟨fits, text⟩, code, before, behind⟩
    exact ⟨text, code, (all_getLast?_take_iff (by omega)).mp before, (all_head?_drop_iff fits).mp behind⟩
  · rintro ⟨text, code, before, behind⟩
    have fits : index + keyword.length ≤ content.length := by
      have lengths := congrArg List.length text
      rw [List.length_take, List.length_drop] at lengths
      omega
    exact ⟨⟨fits, text⟩, code, (all_getLast?_take_iff (by omega)).mpr before,
      (all_head?_drop_iff fits).mpr behind⟩

theorem IsKeyword.lt_length {start : Nat} (searched : keyword ≠ [])
    (stands : IsKeyword keyword content start) : start < content.length := by
  have positive := List.length_pos_iff.mpr searched
  have lengths := congrArg List.length stands.text
  rw [List.length_take, List.length_drop] at lengths
  omega

theorem IsKeyword.not_inside {start inner : Nat} (solid : ∀ c ∈ keyword, isDelimiter c = false)
    (stands : IsKeyword keyword content start) (behind : start < inner)
    (inside : inner < start + keyword.length) : ¬ IsKeyword keyword content inner := by
  intro overlap
  obtain atStart | ⟨c, here, delimits⟩ := overlap.before
  · omega
  · have member : c ∈ keyword := by
      rw [← stands.text]
      apply List.mem_of_getElem? (i := inner - 1 - start)
      rw [List.getElem?_take_of_lt (by omega), List.getElem?_drop]
      rwa [Nat.add_sub_cancel' (by omega)]
    rw [solid c member] at delimits
    cases delimits

end Keyword

section Braces

variable {content : Text}

theorem openBraceAt?_eq_some_iff {index opening : Nat} :
    openBraceAt? content content.length index = some opening ↔ IsOpening content index opening := by
  fun_induction openBraceAt? content content.length index with
  | case1 index inside absent =>
    obtain ⟨x, here⟩ := exists_mark (Nat.le_refl _) inside
    rw [absent] at here
    cases here
  | case2 index inside x here passed ih =>
    rw [ih]
    constructor
    · rintro ⟨behind, brace, gap⟩
      refine ⟨by omega, brace, fun between reached before => ?_⟩
      rcases Nat.eq_or_lt_of_le reached with rfl | later
      · exact ⟨x, here, passed⟩
      · exact gap between later before
    · rintro ⟨behind, brace, gap⟩
      have other : index ≠ opening := by
        rintro rfl
        rw [here] at brace
        cases brace
        revert passed
        decide
      exact ⟨by omega, brace, fun between reached before => gap between (by omega) before⟩
  | case3 index inside here stays =>
    constructor
    · rintro same
      cases same
      exact ⟨Nat.le_refl _, here, fun between reached before => by omega⟩
    · rintro ⟨behind, brace, gap⟩
      rcases Nat.eq_or_lt_of_le behind with rfl | later
      · rfl
      · obtain ⟨x, here', passed⟩ := gap index (Nat.le_refl _) later
        rw [here] at here'
        cases here'
        exact absurd passed stays
  | case4 index inside x here stays other =>
    constructor
    · intro same
      cases same
    · rintro ⟨behind, brace, gap⟩
      rcases Nat.eq_or_lt_of_le behind with rfl | later
      · rw [here] at brace
        exact absurd (Option.some.inj brace) other
      · obtain ⟨y, here', passed⟩ := gap index (Nat.le_refl _) later
        rw [here] at here'
        cases here'
        exact absurd passed stays
  | case5 index outside =>
    constructor
    · intro same
      cases same
    · rintro ⟨behind, brace, gap⟩
      have bound := (List.getElem?_eq_some_iff.mp brace).1
      rw [length_mark] at bound
      omega

theorem marksBetween_succ {opening index : Nat} {x : Char × Kind} (behind : opening ≤ index)
    (here : (mark content)[index]? = some x) :
    marksBetween content (index + 1) opening = marksBetween content index opening ++ [x] := by
  have reached : opening ≤ ((mark content).take index).length := by
    rw [List.length_take]
    have := (List.getElem?_eq_some_iff.mp here).1
    omega
  rw [marksBetween, marksBetween, List.take_add_one, here, Option.toList_some,
    List.drop_append_of_le_length reached]

theorem braces_succ (brace : Char) {opening index : Nat} {x : Char × Kind} (behind : opening ≤ index)
    (here : (mark content)[index]? = some x) :
    braces content brace opening (index + 1) =
      braces content brace opening index + if x = (brace, .code) then 1 else 0 := by
  rw [braces, marksBetween_succ behind here, List.count_append, List.count_singleton, braces]
  simp

theorem not_balances_of_ne {opening index : Nat} {x : Char × Kind} (here : (mark content)[index]? = some x)
    (other : x ≠ ('}', .code)) : ¬ Balances content opening index := by
  rintro ⟨-, brace, -⟩
  rw [here] at brace
  exact other (Option.some.inj brace)

/-- The search for the first brace that balances may pass over one that does not. -/
theorem first_balances_succ_iff {opening index closing : Nat} (other : ¬ Balances content opening index) :
    (index + 1 ≤ closing ∧ Balances content opening closing ∧
        ∀ between, index + 1 ≤ between → between < closing → ¬ Balances content opening between) ↔
      index ≤ closing ∧ Balances content opening closing ∧
        ∀ between, index ≤ between → between < closing → ¬ Balances content opening between := by
  constructor
  · rintro ⟨reached, balances, first⟩
    refine ⟨by omega, balances, fun between behind before => ?_⟩
    rcases Nat.eq_or_lt_of_le behind with rfl | later
    · exact other
    · exact first between later before
  · rintro ⟨reached, balances, first⟩
    rcases Nat.eq_or_lt_of_le reached with rfl | later
    · exact absurd balances other
    · exact ⟨later, balances, fun between behind before => first between (by omega) before⟩

theorem closingBraceAt?_eq_some_iff {opening depth index closing : Nat} (behind : opening ≤ index)
    (count : braces content '{' opening index = braces content '}' opening index + (depth + 1)) :
    closingBraceAt? content content.length depth index = some closing ↔
      index ≤ closing ∧ Balances content opening closing ∧
        ∀ between, index ≤ between → between < closing → ¬ Balances content opening between := by
  fun_induction closingBraceAt? content content.length depth index with
  | case1 depth index inside absent =>
    obtain ⟨x, here⟩ := exists_mark (Nat.le_refl _) inside
    rw [absent] at here
    cases here
  | case2 index inside here =>
    have opens := braces_succ '{' behind here
    have closes := braces_succ '}' behind here
    have balances : Balances content opening index := ⟨behind, here, by simp_all⟩
    constructor
    · rintro same
      cases same
      exact ⟨Nat.le_refl _, balances, fun between reached before => by omega⟩
    · rintro ⟨reached, -, first⟩
      rcases Nat.eq_or_lt_of_le reached with rfl | later
      · rfl
      · exact absurd balances (first index (Nat.le_refl _) later)
  | case3 index inside depth here ih =>
    have opens := braces_succ '{' behind here
    have closes := braces_succ '}' behind here
    simp only [Prod.mk.injEq, Char.reduceEq, and_true, ↓reduceIte, Nat.add_zero] at opens closes
    have open' : ¬ Balances content opening index := by
      rintro ⟨-, -, equal⟩
      omega
    rw [ih (by omega) (by omega), first_balances_succ_iff open']
  | case4 depth index inside x here other ih =>
    have opens := braces_succ '{' behind here
    have closes := braces_succ '}' behind here
    rw [if_neg other] at closes
    rw [dite_eq_ite] at ih
    have deeper : braces content '{' opening (index + 1) = braces content '}' opening (index + 1) +
        ((if x = ('{', .code) then depth + 1 else depth) + 1) := by
      by_cases brace : x = ('{', .code)
      · rw [if_pos brace] at opens ⊢
        omega
      · rw [if_neg brace] at opens ⊢
        omega
    rw [ih (by omega) deeper, first_balances_succ_iff (not_balances_of_ne here other)]
  | case5 depth index outside =>
    constructor
    · intro same
      cases same
    · rintro ⟨reached, balances, -⟩
      have bound := (List.getElem?_eq_some_iff.mp balances.brace).1
      rw [length_mark] at bound
      omega

theorem isClosing_iff {opening closing : Nat} (opened : (mark content)[opening]? = some ('{', .code)) :
    closingBraceAt? content content.length 0 (opening + 1) = some closing ↔
      IsClosing content opening closing := by
  have none (brace : Char) : braces content brace opening opening = 0 := by
    rw [braces, marksBetween_of_le (Nat.le_refl _), List.count_nil]
  have opens := braces_succ '{' (Nat.le_refl opening) opened
  have closes := braces_succ '}' (Nat.le_refl opening) opened
  simp only [none, Prod.mk.injEq, Char.reduceEq, and_true, ↓reduceIte] at opens closes
  rw [closingBraceAt?_eq_some_iff (Nat.le_add_right opening 1) (by omega),
    first_balances_succ_iff (not_balances_of_ne opened (by decide))]
  constructor
  · rintro ⟨-, balances, first⟩
    refine ⟨balances, fun index before closed => first index closed.behind before closed⟩
  · rintro ⟨balances, first⟩
    exact ⟨balances.behind, balances, fun between _ before => first between before⟩

theorem IsOpening.unique {index opening other : Nat} (opens : IsOpening content index opening)
    (opens' : IsOpening content index other) : opening = other :=
  Option.some.inj ((openBraceAt?_eq_some_iff.mpr opens).symm.trans (openBraceAt?_eq_some_iff.mpr opens'))

theorem IsClosing.opening_lt {opening closing : Nat} (closes : IsClosing content opening closing)
    (opened : (mark content)[opening]? = some ('{', .code)) : opening < closing := by
  rcases Nat.eq_or_lt_of_le closes.balances.behind with rfl | later
  · exact absurd closes.balances (not_balances_of_ne opened (by decide))
  · exact later

end Braces

section Search

variable {keyword content : Text}

/-- The blocks that a search finds from `index` on. -/
structure FindsFrom (keyword content : Text) (index : Nat) (found : List Block) : Prop where
  whole : ∀ block ∈ found, block.IsWhole keyword content
  behind : ∀ block ∈ found, index ≤ block.start
  ordered : found.Pairwise fun block later => block.bodyEnd < later.start
  starts_iff : ∀ start, index ≤ start → ((∃ block ∈ found, block.start = start) ↔
    (∃ opening, IsHead keyword content start opening) ∧ IsOutside found start ∧
      ∀ head opening, index ≤ head → head ≤ start → IsHead keyword content head opening →
        IsOutside found head → ∃ closing, IsClosing content opening closing)

theorem FindsFrom.skip {index next : Nat} {found : List Block} (finds : FindsFrom keyword content next found)
    (ahead : index ≤ next)
    (absent : ∀ start opening, index ≤ start → start < next → ¬ IsHead keyword content start opening) :
    FindsFrom keyword content index found where
  whole := finds.whole
  behind block member := Nat.le_trans ahead (finds.behind block member)
  ordered := finds.ordered
  starts_iff := by
    intro start reached
    by_cases passed : start < next
    · constructor
      · rintro ⟨block, member, rfl⟩
        have := finds.behind block member
        omega
      · rintro ⟨⟨opening, head⟩, -, -⟩
        exact absurd head (absent start opening reached passed)
    · rw [finds.starts_iff start (by omega)]
      refine and_congr_right fun _ => and_congr_right fun _ => ⟨fun closed => ?_, fun closed => ?_⟩
      · intro head opening from' upTo isHead outside
        have later : next ≤ head := Nat.le_of_not_lt fun before =>
          absent head opening from' before isHead
        exact closed head opening later upTo isHead outside
      · intro head opening from' upTo isHead outside
        exact closed head opening (by omega) upTo isHead outside

/-- Nothing is found where every head has one before it, or is one, that is never closed. -/
theorem findsFrom_nil {index : Nat}
    (unclosed : ∀ start opening, index ≤ start → IsHead keyword content start opening →
      ∃ head opening, index ≤ head ∧ head ≤ start ∧ IsHead keyword content head opening ∧
        ∀ closing, ¬ IsClosing content opening closing) :
    FindsFrom keyword content index [] where
  whole := List.forall_mem_nil _
  behind := List.forall_mem_nil _
  ordered := List.Pairwise.nil
  starts_iff start reached := by
    constructor
    · rintro ⟨block, member, -⟩
      cases member
    · rintro ⟨⟨opening, head⟩, -, closed⟩
      obtain ⟨first, brace, behind, before, isHead, never⟩ := unclosed start opening reached head
      obtain ⟨closing, closes⟩ := closed first brace behind before isHead (isOutside_nil first)
      exact absurd closes (never closing)

theorem Block.IsWhole.start_lt_bodyEnd {block : Block} (whole : block.IsWhole keyword content) :
    block.start < block.bodyEnd := by
  have opens := whole.head.opens
  have ahead := opens.behind
  have closes := whole.closing.opening_lt opens.brace
  omega

theorem FindsFrom.isOutside {index start : Nat} {found : List Block}
    (finds : FindsFrom keyword content index found) (before : start ≤ index) : IsOutside found start := by
  rintro block member ⟨behind, -⟩
  have := finds.behind block member
  omega

/-- A closed head starts a block, and the search goes on behind its end. -/
theorem FindsFrom.cons {block : Block} {found : List Block} (whole : block.IsWhole keyword content)
    (finds : FindsFrom keyword content (block.bodyEnd + 1) found) :
    FindsFrom keyword content block.start (block :: found) where
  whole := List.forall_mem_cons.mpr ⟨whole, finds.whole⟩
  behind := by
    have ordered := whole.start_lt_bodyEnd
    refine List.forall_mem_cons.mpr ⟨Nat.le_refl _, fun later member => ?_⟩
    have := finds.behind later member
    omega
  ordered := List.pairwise_cons.mpr ⟨fun later member => finds.behind later member, finds.ordered⟩
  starts_iff := by
    intro start reached
    have ordered := whole.start_lt_bodyEnd
    simp only [isOutside_cons, List.mem_cons, or_and_right, exists_or, exists_eq_left]
    rcases Nat.eq_or_lt_of_le reached with rfl | behind
    · refine ⟨fun _ => ⟨⟨_, whole.head⟩, ⟨?_, finds.isOutside (by omega)⟩, ?_⟩, fun _ => Or.inl rfl⟩
      · rintro ⟨later, -⟩
        omega
      · intro head opening from' upTo isHead _
        obtain rfl : head = block.start := by omega
        obtain rfl := isHead.opens.unique whole.head.opens
        exact ⟨block.bodyEnd, whole.closing⟩
    · by_cases inside : start ≤ block.bodyEnd
      · constructor
        · rintro (same | ⟨later, member, rfl⟩)
          · omega
          · have := finds.behind later member
            omega
        · rintro ⟨-, ⟨outside, -⟩, -⟩
          exact absurd ⟨behind, inside⟩ outside
      · have notCovered : ¬ block.Covers start := fun covers => inside covers.2
        have other : block.start ≠ start := by omega
        simp only [other, false_or, notCovered, not_false_eq_true, true_and]
        rw [finds.starts_iff start (by omega)]
        refine and_congr_right fun _ => and_congr_right fun _ => ⟨fun closed => ?_, fun closed => ?_⟩
        · intro head opening from' upTo isHead outside
          rcases Nat.eq_or_lt_of_le from' with rfl | later
          · obtain rfl := isHead.opens.unique whole.head.opens
            exact ⟨block.bodyEnd, whole.closing⟩
          · have behindBlock : block.bodyEnd < head := Nat.lt_of_not_le fun within =>
              outside.1 ⟨later, within⟩
            exact closed head opening behindBlock upTo isHead outside.2
        · intro head opening from' upTo isHead outside
          have notCovered : ¬ block.Covers head := fun covers => by
            have := covers.2
            omega
          exact closed head opening (by omega) upTo isHead ⟨notCovered, outside⟩

/-- From any place of a script on the search finds what it should. -/
theorem findsFrom_blocksBetween (content : Text) (searched : keyword ≠ [])
    (solid : ∀ c ∈ keyword, isDelimiter c = false) (index : Nat) :
    FindsFrom keyword content index (blocksBetween keyword content content.length index) := by
  fun_induction blocksBetween keyword content content.length index with
  | case1 index inside stands unopened ih =>
    have here := (standsAt_iff searched).mp stands
    refine ih.skip (by omega) fun start opening reached before head => ?_
    rcases Nat.eq_or_lt_of_le reached with rfl | behind
    · rw [openBraceAt?_eq_some_iff.mpr head.opens] at unopened
      cases unopened
    · exact here.not_inside solid behind before head.stands
  | case2 index inside stands opening opened unclosed =>
    have opens := openBraceAt?_eq_some_iff.mp opened
    have head : IsHead keyword content index opening := ⟨(standsAt_iff searched).mp stands, opens⟩
    refine findsFrom_nil fun start _ reached _ =>
      ⟨index, opening, Nat.le_refl _, reached, head, fun closing closes => ?_⟩
    rw [(isClosing_iff opens.brace).mpr closes] at unclosed
    cases unclosed
  | case3 index inside stands opening opened closing closed ih =>
    have opens := openBraceAt?_eq_some_iff.mp opened
    have whole : Block.IsWhole keyword content
        ⟨keyword, index, opening + 1, closing, (content.take closing).drop (opening + 1)⟩ := {
      searched := rfl
      starts := Nat.succ_pos opening
      head := ⟨(standsAt_iff searched).mp stands, opens⟩
      closing := (isClosing_iff opens.brace).mp closed
      text := rfl }
    exact FindsFrom.cons whole ih
  | case4 index inside absent ih =>
    refine ih.skip (Nat.le_succ index) fun start opening reached before head => ?_
    obtain rfl : start = index := by omega
    exact absent ((standsAt_iff searched).mpr head.stands)
  | case5 index ended =>
    refine findsFrom_nil fun start opening reached head => ?_
    have inside := head.stands.lt_length searched
    exact absurd ⟨searched, by omega⟩ ended

end Search

/-- Every block found is whole, they follow one another without overlap, and a block starts exactly at each
head that lies in none of the others if no such head before it, nor it itself, is left unclosed. -/
theorem blocks_heads (keyword content : Text) (searched : keyword ≠ [])
    (solid : ∀ c ∈ keyword, isDelimiter c = false) :
    (∀ block ∈ blocks keyword content, block.IsWhole keyword content) ∧
      (blocks keyword content).Pairwise (fun block later => block.bodyEnd < later.start) ∧
      ∀ start, (∃ block ∈ blocks keyword content, block.start = start) ↔
        (∃ opening, IsHead keyword content start opening) ∧
          IsOutside (blocks keyword content) start ∧
          ∀ head ≤ start, ∀ opening, IsHead keyword content head opening →
            IsOutside (blocks keyword content) head → ∃ closing, IsClosing content opening closing := by
  have finds := findsFrom_blocksBetween content searched solid 0
  rw [← blocks_eq_blocksBetween] at finds
  refine ⟨finds.whole, finds.ordered, fun start => ?_⟩
  rw [finds.starts_iff start (Nat.zero_le start)]
  refine and_congr_right fun _ => and_congr_right fun _ => ⟨fun closed => ?_, fun closed => ?_⟩
  · exact fun head before opening => closed head opening (Nat.zero_le head) before
  · exact fun head opening _ before => closed head before opening

/-- The brace in the literal does not end the first block, and the last head is never closed. -/
theorem blocks_heads_with_unclosed :
    let content : Text := r"b x b { '}' b {} } b {"
    let found := blocks "b" content
    found.map (fun block => (block.start, block.bodyEnd)) = [(4, 17)] ∧
      (∀ block ∈ found, block.IsWhole "b" content) ∧
      found.Pairwise (fun block later => block.bodyEnd < later.start) ∧
      ∀ start, (∃ block ∈ found, block.start = start) ↔
        (∃ opening, IsHead "b" content start opening) ∧ IsOutside found start ∧
          ∀ head ≤ start, ∀ opening, IsHead "b" content head opening →
            IsOutside found head → ∃ closing, IsClosing content opening closing := by
  intro content found
  exact ⟨by decide +kernel, blocks_heads "b" content (by decide) (List.forall_mem_singleton.mpr rfl)⟩

end GradlePublishing.Script
