import GradlePublishing.Proofs.Script.Boundary
import GradlePublishing.Script.Block

/-!
Blocks inside blocks. The body of a block may be searched as a script of its own, or in place, with
the kinds and the neighbours that its characters have in the whole script. Both ways find the same
blocks, because a body stands between two braces of code and a script may be cut
around those.
-/

namespace GradlePublishing.Script

/-- The index of the opening brace in front of which only space and comments stand, from `index` on
and before `stop`. -/
def openBraceAt? (content : Text) (stop index : Nat) : Option Nat :=
  if index < stop then
    match (mark content)[index]? with
    | none => none
    | some x =>
      if x.2 = .comment ∨ isSpace x.1 then openBraceAt? content stop (index + 1)
      else if x = ('{', .code) then some index
      else none
  else none
termination_by stop - index

/-- The index of the brace that closes a block, from `index` on and before `stop`. `depth` counts
the braces that are open inside the block. -/
def closingBraceAt? (content : Text) (stop depth index : Nat) : Option Nat :=
  if index < stop then
    match (mark content)[index]? with
    | none => none
    | some x =>
      if x = ('}', .code) then
        match depth with
        | 0 => some index
        | depth + 1 => closingBraceAt? content stop depth (index + 1)
      else
        closingBraceAt? content stop (if x = ('{', .code) then depth + 1 else depth) (index + 1)
  else none
termination_by stop - index

theorem openBraceAt?_bounds {content : Text} {stop index opening : Nat}
    (found : openBraceAt? content stop index = some opening) : index ≤ opening ∧ opening < stop := by
  fun_induction openBraceAt? content stop index with
  | case1 => cases found
  | case2 index inside x here passed ih =>
    have := ih found
    omega
  | case3 index inside here passed =>
    cases found
    omega
  | case4 => cases found
  | case5 => cases found

theorem closingBraceAt?_bounds {content : Text} {stop depth index closing : Nat}
    (found : closingBraceAt? content stop depth index = some closing) :
    index ≤ closing ∧ closing < stop := by
  fun_induction closingBraceAt? content stop depth index with
  | case1 => cases found
  | case2 index inside here =>
    cases found
    omega
  | case3 index inside here depth ih =>
    have := ih found
    omega
  | case4 depth index inside x here other ih =>
    have := ih found
    omega
  | case5 => cases found

/-- Whether `keyword` stands alone at `index` in a script and ends no later than `stop`. -/
def standsAt (keyword content : Text) (stop index : Nat) : Bool :=
  index + keyword.length ≤ stop && (content.drop index).take keyword.length == keyword &&
    isKeywordOccurrence content index (index + keyword.length)

/-- The blocks of `keyword` that lie between two indices of a script, looked for in place. -/
def blocksBetween (keyword content : Text) (stop index : Nat) : List Block :=
  if _ : keyword ≠ [] ∧ index < stop then
    if standsAt keyword content stop index then
      match _ : openBraceAt? content stop (index + keyword.length) with
      | none => blocksBetween keyword content stop (index + keyword.length)
      | some opening =>
        match _ : closingBraceAt? content stop 0 (opening + 1) with
        | none => []
        | some closing =>
          ⟨keyword, index, opening + 1, closing, (content.take closing).drop (opening + 1)⟩ ::
            blocksBetween keyword content stop (closing + 1)
    else blocksBetween keyword content stop (index + 1)
  else []
termination_by stop - index
decreasing_by
  · have positive := List.length_pos_iff.mpr ‹keyword ≠ [] ∧ index < stop›.1
    omega
  · have opened := openBraceAt?_bounds ‹_›
    have closed := closingBraceAt?_bounds ‹_›
    omega
  · omega

/-- A block as it lies in a script that has `count` more characters in front. -/
def Block.shift (count : Nat) (block : Block) : Block :=
  { block with
    start := block.start + count
    bodyStart := block.bodyStart + count
    bodyEnd := block.bodyEnd + count }

/-- The characters of a script from `index` on and before `stop`, with their kinds in the script. -/
def marksBetween (content : Text) (stop index : Nat) : Marked := ((mark content).take stop).drop index

theorem length_mark (content : Text) : (mark content).length = content.length := by
  have same := congrArg List.length (map_fst_mark content)
  rwa [List.length_map] at same

theorem length_marksBetween {content : Text} {stop : Nat} (ends : stop ≤ content.length)
    (index : Nat) : (marksBetween content stop index).length = stop - index := by
  rw [marksBetween, List.length_drop, List.length_take, length_mark, Nat.min_eq_left ends]

theorem map_fst_marksBetween (content : Text) (stop index : Nat) :
    (marksBetween content stop index).map (·.1) = (content.take stop).drop index := by
  rw [marksBetween, List.map_drop, List.map_take, map_fst_mark]

theorem marksBetween_of_le {content : Text} {stop index : Nat} (ended : stop ≤ index) :
    marksBetween content stop index = [] := by
  rw [marksBetween, List.drop_eq_nil_iff, List.length_take]
  exact Nat.le_trans (Nat.min_le_left _ _) ended

theorem marksBetween_cons {content : Text} {stop index : Nat} {x : Char × Kind}
    (inside : index < stop) (here : (mark content)[index]? = some x) :
    marksBetween content stop index = x :: marksBetween content stop (index + 1) := by
  have within : ((mark content).take stop)[index]? = some x := by
    rw [List.getElem?_take_of_lt inside, here]
  obtain ⟨bound, same⟩ := List.getElem?_eq_some_iff.mp within
  rw [marksBetween, List.drop_eq_getElem_cons bound, same, marksBetween]

theorem exists_mark {content : Text} {stop index : Nat} (ends : stop ≤ content.length)
    (inside : index < stop) : ∃ x, (mark content)[index]? = some x := by
  have bound : index < (mark content).length := by
    rw [length_mark]
    omega
  exact ⟨_, List.getElem?_eq_getElem bound⟩

theorem drop_marksBetween (content : Text) (stop index count : Nat) :
    (marksBetween content stop index).drop count = marksBetween content stop (index + count) := by
  rw [marksBetween, List.drop_drop, marksBetween]

theorem afterOpenBrace?_cons (x : Char × Kind) (rest : Marked) :
    afterOpenBrace? (x :: rest) =
      if x.2 = .comment ∨ isSpace x.1 then afterOpenBrace? rest
      else if x = ('{', .code) then some rest
      else none := by
  by_cases passed : x.2 = .comment ∨ isSpace x.1
  · have kept : (x.2 == .comment || isSpace x.1) = true := by simpa using passed
    simp only [if_pos passed, afterOpenBrace?, List.dropWhile_cons, kept, ↓reduceIte]
  · have stops : (x.2 == .comment || isSpace x.1) = false := by simpa using passed
    simp only [if_neg passed, afterOpenBrace?, List.dropWhile_cons, stops, Bool.false_eq_true, ↓reduceIte]
    by_cases opens : x = ('{', .code)
    · rw [if_pos opens, opens]
      rfl
    · rw [if_neg opens]
      split
      · rename_i same
        exact absurd (List.cons.inj same).1 opens
      · rfl

theorem afterOpenBrace?_marksBetween {content : Text} {stop : Nat} (ends : stop ≤ content.length)
    (index : Nat) :
    afterOpenBrace? (marksBetween content stop index) =
      (openBraceAt? content stop index).map fun opening =>
        marksBetween content stop (opening + 1) := by
  fun_induction openBraceAt? content stop index with
  | case1 index inside absent =>
    obtain ⟨x, here⟩ := exists_mark ends inside
    rw [absent] at here
    cases here
  | case2 index inside x here passed ih =>
    rw [marksBetween_cons inside here, afterOpenBrace?_cons, if_pos passed, ih]
  | case3 index inside here stays =>
    rw [marksBetween_cons inside here, afterOpenBrace?_cons, if_neg stays, if_pos rfl, Option.map_some]
  | case4 index inside x here stays other =>
    rw [marksBetween_cons inside here, afterOpenBrace?_cons, if_neg stays, if_neg other, Option.map_none]
  | case5 index outside =>
    rw [marksBetween_of_le (by omega), Option.map_none]
    rfl

/-- A cut behind the character `x` is the cut at the next index with `x` in front of the body. -/
theorem map_closingBraceAt?_cons {content : Text} {stop depth index : Nat} {x : Char × Kind}
    (here : (mark content)[index]? = some x) :
    ((closingBraceAt? content stop depth (index + 1)).map fun closing =>
        (marksBetween content closing (index + 1), marksBetween content stop (closing + 1))).map
        (fun cut => (x :: cut.1, cut.2)) =
      (closingBraceAt? content stop depth (index + 1)).map fun closing =>
        (marksBetween content closing index, marksBetween content stop (closing + 1)) := by
  cases found : closingBraceAt? content stop depth (index + 1) with
  | none => rfl
  | some closing =>
    have inside : index < closing := (closingBraceAt?_bounds found).1
    simp only [Option.map_some, marksBetween_cons inside here]

theorem cutAtClosingBrace?_marksBetween {content : Text} {stop : Nat}
    (ends : stop ≤ content.length) (depth index : Nat) :
    cutAtClosingBrace? depth (marksBetween content stop index) =
      (closingBraceAt? content stop depth index).map fun closing =>
        (marksBetween content closing index, marksBetween content stop (closing + 1)) := by
  fun_induction closingBraceAt? content stop depth index with
  | case1 depth index inside absent =>
    obtain ⟨x, here⟩ := exists_mark ends inside
    rw [absent] at here
    cases here
  | case2 index inside here =>
    rw [marksBetween_cons inside here, Option.map_some, marksBetween_of_le (Nat.le_refl index)]
    rfl
  | case3 index inside depth here ih =>
    rw [← map_closingBraceAt?_cons here, ← ih, marksBetween_cons inside here]
    rfl
  | case4 depth index inside x here other ih =>
    simp only [dite_eq_ite] at ih
    rw [← map_closingBraceAt?_cons here, ← ih, marksBetween_cons inside here]
    simp only [cutAtClosingBrace?, if_neg other]
  | case5 depth index outside =>
    rw [marksBetween_of_le (by omega), Option.map_none, cutAtClosingBrace?]

section Steps

variable {keyword : Text} {before : Option Char} {offset : Nat} {x : Char × Kind}
  {rest after inner body behind : Marked}

theorem blocksFrom_cons_of_absent (searched : keyword ≠ [])
    (absent : afterKeyword? keyword before (x :: rest) = none) :
    blocksFrom keyword before offset (x :: rest) =
      blocksFrom keyword (some x.1) (offset + 1) rest := by
  rw [blocksFrom, dif_neg searched]
  split
  · rfl
  · simp_all

theorem blocksFrom_cons_of_unopened (searched : keyword ≠ [])
    (found : afterKeyword? keyword before (x :: rest) = some after)
    (unopened : afterOpenBrace? after = none) :
    blocksFrom keyword before offset (x :: rest) =
      blocksFrom keyword keyword.getLast? (offset + keyword.length) after := by
  rw [blocksFrom, dif_neg searched]
  split
  · simp_all
  · split
    · simp_all
    · simp_all

theorem blocksFrom_cons_of_unclosed (searched : keyword ≠ [])
    (found : afterKeyword? keyword before (x :: rest) = some after)
    (opened : afterOpenBrace? after = some inner) (unclosed : cutAtClosingBrace? 0 inner = none) :
    blocksFrom keyword before offset (x :: rest) = [] := by
  rw [blocksFrom, dif_neg searched]
  split
  · simp_all
  · split
    · simp_all
    · split
      · rfl
      · simp_all

theorem blocksFrom_cons_of_closed (searched : keyword ≠ [])
    (found : afterKeyword? keyword before (x :: rest) = some after)
    (opened : afterOpenBrace? after = some inner)
    (closed : cutAtClosingBrace? 0 inner = some (body, behind)) :
    blocksFrom keyword before offset (x :: rest) =
      ⟨keyword, offset, offset + (rest.length + 1) - behind.length - body.length - 1,
        offset + (rest.length + 1) - behind.length - 1, body.map (·.1)⟩ ::
        blocksFrom keyword (some '}') (offset + (rest.length + 1) - behind.length) behind := by
  rw [blocksFrom, dif_neg searched]
  split
  · simp_all
  · split
    · simp_all
    · split
      · simp_all
      · simp_all

end Steps

/-- A keyword is read off the head of the marks exactly where it stands alone in the script. -/
theorem afterKeyword?_marksBetween {keyword content : Text} {stop index : Nat}
    {before : Option Char} (searched : keyword ≠ []) (ends : stop ≤ content.length)
    (edge : (content.drop stop).head?.all isDelimiter = true)
    (left : before.all isDelimiter = (content.take index).getLast?.all isDelimiter) :
    afterKeyword? keyword before (marksBetween content stop index) =
      if standsAt keyword content stop index then
        some (marksBetween content stop (index + keyword.length))
      else none := by
  by_cases fits : index + keyword.length ≤ stop
  · have found : (marksBetween content stop index).take keyword.length =
        ((mark content).drop index).take keyword.length := by
      rw [marksBetween, List.drop_take, List.take_take, Nat.min_eq_left (by omega)]
    have texts : (((mark content).drop index).take keyword.length).map (·.1) =
        (content.drop index).take keyword.length := by
      rw [List.map_take, List.map_drop, map_fst_mark]
    have kinds : (((mark content).drop index).take keyword.length).all (·.2 == .code) =
        (((classify content).drop index).take keyword.length).all (· == .code) := by
      rw [classify, ← List.map_drop, ← List.map_take, List.all_map]
      rfl
    have right : ((marksBetween content stop (index + keyword.length)).head?.map (·.1)).all
        isDelimiter = (content.drop (index + keyword.length)).head?.all isDelimiter := by
      rw [← List.head?_map, map_fst_marksBetween]
      by_cases inside : index + keyword.length < stop
      · rw [List.head?_drop, List.head?_drop, List.getElem?_take_of_lt inside]
      · have last : index + keyword.length = stop := by omega
        rw [last, edge, List.drop_take, Nat.sub_self, List.take_zero]
        rfl
    simp only [afterKeyword?, found, drop_marksBetween, texts, kinds, isBounded, left, right, standsAt,
      isKeywordOccurrence, fits, decide_true, Bool.true_and, Nat.add_sub_cancel_left, Bool.and_assoc]
  · have short : (((marksBetween content stop index).take keyword.length).map (·.1) == keyword) =
        false := by
      rw [beq_eq_false_iff_ne]
      intro same
      have positive := List.length_pos_iff.mpr searched
      have lengths := congrArg List.length same
      rw [List.length_map, List.length_take, length_marksBetween ends] at lengths
      omega
    simp only [afterKeyword?, standsAt, fits, short, decide_false, Bool.false_and, Bool.false_eq_true,
      ↓reduceIte]

theorem getLast?_take_succ {content : Text} {index : Nat} {x : Char × Kind}
    (here : (mark content)[index]? = some x) : (content.take (index + 1)).getLast? = some x.1 := by
  have char : content[index]? = some x.1 := by
    rw [← map_fst_mark content, List.getElem?_map, here, Option.map_some]
  rw [List.take_add_one, char, Option.toList_some, List.getLast?_concat]

theorem getLast?_take_of_standsAt {keyword content : Text} {stop index : Nat}
    (searched : keyword ≠ []) (stands : standsAt keyword content stop index = true) :
    (content.take (index + keyword.length)).getLast? = keyword.getLast? := by
  simp only [standsAt, Bool.and_eq_true, beq_iff_eq] at stands
  rw [List.take_add, stands.1.2, List.getLast?_append, List.getLast?_eq_some_getLast searched,
    Option.some_or]

theorem mark_closingBraceAt? {content : Text} {stop depth index closing : Nat}
    (found : closingBraceAt? content stop depth index = some closing) :
    (mark content)[closing]? = some ('}', .code) := by
  fun_induction closingBraceAt? content stop depth index with
  | case1 => cases found
  | case2 index inside here =>
    cases found
    exact here
  | case3 index inside depth here ih => exact ih found
  | case4 depth index inside x here other ih => exact ih found
  | case5 => cases found

theorem mark_openBraceAt? {content : Text} {stop index opening : Nat}
    (found : openBraceAt? content stop index = some opening) :
    (mark content)[opening]? = some ('{', .code) := by
  fun_induction openBraceAt? content stop index with
  | case1 => cases found
  | case2 index inside x here passed ih => exact ih found
  | case3 index inside here passed =>
    cases found
    exact here
  | case4 => cases found
  | case5 => cases found

/-- The search over marks is the search in place. It does not matter which character stands before
the marks, but whether it is a delimiter. -/
theorem blocksFrom_marksBetween {keyword content : Text} {stop index : Nat} {before : Option Char}
    (ends : stop ≤ content.length) (edge : (content.drop stop).head?.all isDelimiter = true)
    (left : before.all isDelimiter = (content.take index).getLast?.all isDelimiter) :
    blocksFrom keyword before index (marksBetween content stop index) =
      blocksBetween keyword content stop index := by
  fun_induction blocksBetween keyword content stop index generalizing before with
  | case1 index searched stands unopened ih =>
    have found := afterKeyword?_marksBetween searched.1 ends edge left
    obtain ⟨x, here⟩ := exists_mark ends searched.2
    rw [if_pos stands, marksBetween_cons searched.2 here] at found
    rw [marksBetween_cons searched.2 here, blocksFrom_cons_of_unopened searched.1 found]
    · apply ih
      rw [getLast?_take_of_standsAt searched.1 stands]
    · rw [afterOpenBrace?_marksBetween ends, unopened, Option.map_none]
  | case2 index searched stands opening opened unclosed =>
    have found := afterKeyword?_marksBetween searched.1 ends edge left
    obtain ⟨x, here⟩ := exists_mark ends searched.2
    rw [if_pos stands, marksBetween_cons searched.2 here] at found
    rw [marksBetween_cons searched.2 here]
    apply blocksFrom_cons_of_unclosed searched.1 found
    · rw [afterOpenBrace?_marksBetween ends, opened, Option.map_some]
    · rw [cutAtClosingBrace?_marksBetween ends, unclosed, Option.map_none]
  | case3 index searched stands opening opened closing closed ih =>
    have found := afterKeyword?_marksBetween searched.1 ends edge left
    obtain ⟨x, here⟩ := exists_mark ends searched.2
    rw [if_pos stands, marksBetween_cons searched.2 here] at found
    have braced := openBraceAt?_bounds opened
    have balanced := closingBraceAt?_bounds closed
    have follows : index + ((marksBetween content stop (index + 1)).length + 1) -
        (marksBetween content stop (closing + 1)).length = closing + 1 := by
      rw [length_marksBetween ends, length_marksBetween ends]
      omega
    have start : closing + 1 - (marksBetween content closing (opening + 1)).length - 1 =
        opening + 1 := by
      rw [length_marksBetween (by omega)]
      omega
    rw [marksBetween_cons searched.2 here, blocksFrom_cons_of_closed searched.1 found]
    rotate_left
    · rw [afterOpenBrace?_marksBetween ends, opened, Option.map_some]
    · rw [cutAtClosingBrace?_marksBetween ends, closed, Option.map_some]
    rw [follows, start, Nat.add_sub_cancel, map_fst_marksBetween]
    congr 1
    apply ih
    rw [getLast?_take_succ (mark_closingBraceAt? closed)]
  | case4 index searched absent ih =>
    have found := afterKeyword?_marksBetween searched.1 ends edge left
    obtain ⟨x, here⟩ := exists_mark ends searched.2
    rw [if_neg absent, marksBetween_cons searched.2 here] at found
    rw [marksBetween_cons searched.2 here, blocksFrom_cons_of_absent searched.1 found]
    apply ih
    rw [getLast?_take_succ here]
  | case5 index ended =>
    by_cases searched : keyword = []
    · cases marksBetween content stop index with
      | nil => rw [blocksFrom]
      | cons x rest => rw [blocksFrom, dif_pos searched]
    · have outside : stop ≤ index := Nat.le_of_not_lt fun inside => ended ⟨searched, inside⟩
      rw [marksBetween_of_le outside, blocksFrom]

theorem blocks_eq_blocksBetween (keyword content : Text) :
    blocks keyword content = blocksBetween keyword content content.length 0 := by
  have everything : marksBetween content content.length 0 = mark content := by
    rw [marksBetween, List.drop_zero, ← length_mark, List.take_length]
  rw [blocks, ← everything]
  apply blocksFrom_marksBetween (Nat.le_refl _)
  · rw [List.drop_length]
    rfl
  · rw [List.take_zero]
    rfl

/-- A block whose body is the text between two braces of code. -/
structure Block.IsBraced (content : Text) (block : Block) : Prop where
  starts : 0 < block.bodyStart
  opened : (mark content)[block.bodyStart - 1]? = some ('{', .code)
  closed : (mark content)[block.bodyEnd]? = some ('}', .code)
  ordered : block.bodyStart ≤ block.bodyEnd
  text : block.body = (content.take block.bodyEnd).drop block.bodyStart

theorem isBraced_of_mem_blocksBetween {keyword content : Text} {stop index : Nat} {block : Block}
    (found : block ∈ blocksBetween keyword content stop index) : block.IsBraced content := by
  fun_induction blocksBetween keyword content stop index with
  | case1 index searched stands unopened ih => exact ih found
  | case2 index searched stands opening opened unclosed => cases found
  | case3 index searched stands opening opened closing closed ih =>
    rcases List.mem_cons.mp found with rfl | later
    · exact {
        starts := Nat.succ_pos opening
        opened := mark_openBraceAt? opened
        closed := mark_closingBraceAt? closed
        ordered := (closingBraceAt?_bounds closed).1
        text := rfl }
    · exact ih later
  | case4 index searched absent ih => exact ih found
  | case5 index ended => cases found

theorem isBraced_of_mem_blocks {keyword content : Text} {block : Block}
    (found : block ∈ blocks keyword content) : block.IsBraced content := by
  rw [blocks_eq_blocksBetween] at found
  exact isBraced_of_mem_blocksBetween found

namespace Block.IsBraced

variable {content : Text} {block : Block}

theorem bodyEnd_lt (braced : block.IsBraced content) : block.bodyEnd < content.length := by
  have bound := (List.getElem?_eq_some_iff.mp braced.closed).1
  rwa [length_mark] at bound

/-- The characters of a body have the kinds that they have in the whole script. -/
theorem mark_body (braced : block.IsBraced content) :
    mark block.body = marksBetween content block.bodyEnd block.bodyStart := by
  have ended := mark_take braced.closed
  have starts := braced.starts
  have ordered := braced.ordered
  have opened : (mark (content.take block.bodyEnd))[block.bodyStart - 1]? = some ('{', .code) := by
    rw [ended, List.getElem?_take_of_lt (by omega), braced.opened]
  have begun := mark_drop opened
  rw [Nat.sub_add_cancel starts, ended, ← braced.text] at begun
  exact begun

theorem getLast?_take_bodyStart (braced : block.IsBraced content) :
    (content.take block.bodyStart).getLast? = some '{' := by
  have last := getLast?_take_succ braced.opened
  rwa [Nat.sub_add_cancel braced.starts] at last

theorem head?_drop_bodyEnd (braced : block.IsBraced content) :
    (content.drop block.bodyEnd).head? = some '}' := by
  rw [List.head?_drop, ← map_fst_mark content, List.getElem?_map, braced.closed, Option.map_some]

end Block.IsBraced

/-- Text in front of a script moves its blocks and changes nothing else. -/
theorem map_shift_blocksFrom (count : Nat) (keyword : Text) (before : Option Char) (offset : Nat)
    (rest : Marked) :
    (blocksFrom keyword before offset rest).map (Block.shift count) =
      blocksFrom keyword before (offset + count) rest := by
  fun_induction blocksFrom keyword before offset rest with
  | case1 => rw [blocksFrom, List.map_nil]
  | case2 before offset x rest empty => rw [blocksFrom, dif_pos empty, List.map_nil]
  | case3 before offset x rest searched absent ih =>
    rw [ih, blocksFrom_cons_of_absent searched absent, Nat.add_right_comm]
  | case4 before offset x rest searched after found unopened ih =>
    rw [ih, blocksFrom_cons_of_unopened searched found unopened, Nat.add_right_comm]
  | case5 before offset x rest searched after found inner opened unclosed =>
    rw [blocksFrom_cons_of_unclosed searched found opened unclosed, List.map_nil]
  | case6 before offset x rest searched after found inner opened body behind closed stop ih =>
    have behindKeyword := length_afterKeyword? found
    have behindBrace := length_afterOpenBrace? opened
    have parts := length_cutAtClosingBrace? closed
    rw [List.length_cons] at behindKeyword
    have moved : offset + count + (rest.length + 1) - behind.length = stop + count := by
      omega
    have start : stop + count - body.length - 1 = stop - body.length - 1 + count := by
      omega
    have ending : stop + count - 1 = stop - 1 + count := by
      omega
    rw [List.map_cons, ih, blocksFrom_cons_of_closed searched found opened closed, moved, start, ending]
    rfl

/-- Searching the body of a block on its own gives the blocks that the search in place gives between
the braces of the block, and the search in place over the whole script is the search itself. -/
theorem blocks_in_body (outer inner content : Text) (block : Block)
    (found : block ∈ blocks outer content) :
    classify block.body = ((classify content).take block.bodyEnd).drop block.bodyStart ∧
      (blocks inner block.body).map (Block.shift block.bodyStart) =
        blocksBetween inner content block.bodyEnd block.bodyStart ∧
      blocks inner content = blocksBetween inner content content.length 0 := by
  have braced := isBraced_of_mem_blocks found
  refine ⟨?_, ?_, blocks_eq_blocksBetween inner content⟩
  · rw [classify, braced.mark_body, marksBetween, List.map_drop, List.map_take, classify]
  · rw [blocks, map_shift_blocksFrom, Nat.zero_add, braced.mark_body]
    apply blocksFrom_marksBetween (Nat.le_of_lt braced.bodyEnd_lt)
    · rw [braced.head?_drop_bodyEnd]
      rfl
    · rw [braced.getLast?_take_bodyStart]
      rfl

/-- A closing brace in a comment does not end the body, neither for the script nor for the body. -/
theorem blocks_in_body_with_comment :
    let content : Text := r"a { // }
 b { }
}"
    let block : Block := ⟨"a", 0, 3, 16, r" // }
 b { }
"⟩
    block ∈ blocks "a" content ∧
      classify block.body = ((classify content).take 16).drop 3 ∧
      (blocks "b" block.body).map (Block.shift 3) = blocksBetween "b" content 16 3 ∧
      blocks "b" content = blocksBetween "b" content content.length 0 := by
  intro content block
  have found : block ∈ blocks "a" content := by decide +kernel
  exact ⟨found, blocks_in_body "a" "b" content block found⟩

end GradlePublishing.Script
