import GradlePublishing.Proofs.Script.Shown

/-!
What the mask makes of a block. The search for blocks counts braces from the opening brace of the block on. The
mask counts them from the start of the script and never below none, but as long as a block is open both counts go
up and down together (`depthAt_add_braces`). So the mask keeps both braces of a block or neither of them, and
blanks out everything in between (`mask_of_mem_blocks`).
-/

namespace GradlePublishing.Script

/-- Every block that the search finds ends at the brace that closes its opening one. -/
theorem isClosing_of_mem_blocksBetween {keyword content : Text} {index : Nat} {block : Block}
    (found : block ∈ blocksBetween keyword content content.length index) :
    IsClosing content (block.bodyStart - 1) block.bodyEnd := by
  fun_induction blocksBetween keyword content content.length index with
  | case1 index searched stands unopened ih => exact ih found
  | case2 index searched stands opening opened unclosed => cases found
  | case3 index searched stands opening opened closing closed ih =>
    rcases List.mem_cons.mp found with rfl | later
    · exact (isClosing_iff (mark_openBraceAt? opened)).mp closed
    · exact ih later
  | case4 index searched absent ih => exact ih found
  | case5 index ended => cases found

section

variable {content : Text} {opening closing index : Nat}

theorem IsClosing.unclosed (closes : IsClosing content opening closing) (upTo : index ≤ closing) :
    ∀ between < index, ¬ IsClosing content opening between := by
  intro between before other
  apply closes.first between _ other.balances
  omega

/-- As long as the brace at `opening` is open, the depth goes up and down with the braces from there on. -/
theorem depthAt_add_braces (brace : (mark content)[opening]? = some ('{', .code)) (behind : opening < index)
    (unclosed : ∀ closing < index, ¬ IsClosing content opening closing) :
    depthAt content index + braces content '}' opening index =
      depthAt content opening + braces content '{' opening index := by
  induction index, behind using Nat.le_induction with
  | base =>
    have opens := braces_succ '{' (Nat.le_refl opening) brace
    have closes := braces_succ '}' (Nat.le_refl opening) brace
    have depth := depthAt_succ brace
    simp only [braces_self, Prod.mk.injEq, Char.reduceEq, and_true, ↓reduceIte] at opens closes depth
    show depthAt content (opening + 1) + braces content '}' opening (opening + 1) =
      depthAt content opening + braces content '{' opening (opening + 1)
    omega
  | succ index behind ih =>
    have earlier : ∀ closing < index, ¬ IsClosing content opening closing :=
      fun closing before => unclosed closing (Nat.lt_succ_of_lt before)
    have equal := ih earlier
    -- The depth is not cut off at zero, since fewer braces were closed than opened.
    have more := braces_lt_of_unclosed behind brace earlier
    have reached : opening ≤ index := Nat.le_of_succ_le behind
    cases here : (mark content)[index]? with
    | none => rwa [depthAt_of_ended here, braces_of_ended _ here, braces_of_ended _ here]
    | some x =>
      have opens := braces_succ '{' reached here
      have closes := braces_succ '}' reached here
      have depth := depthAt_succ here
      by_cases opened : x = ('{', .code)
      · subst opened
        simp only [Prod.mk.injEq, Char.reduceEq, and_true, ↓reduceIte] at opens closes depth
        omega
      · rw [if_neg opened] at opens depth
        by_cases closed : x = ('}', .code)
        · rw [if_pos closed] at closes depth
          omega
        · rw [if_neg closed] at closes depth
          omega

theorem IsClosing.depthAt_lt (closes : IsClosing content opening closing)
    (brace : (mark content)[opening]? = some ('{', .code)) (behind : opening < index) (upTo : index ≤ closing) :
    depthAt content opening < depthAt content index := by
  have equal := depthAt_add_braces brace behind (closes.unclosed upTo)
  have more := braces_lt_of_unclosed behind brace (closes.unclosed upTo)
  omega

theorem IsClosing.depthAt_closing (closes : IsClosing content opening closing)
    (brace : (mark content)[opening]? = some ('{', .code)) :
    depthAt content closing = depthAt content opening + 1 := by
  have balances := closes.balances
  have equal := depthAt_add_braces brace (closes.opening_lt brace) (closes.unclosed (Nat.le_refl closing))
  have opened := braces_succ '{' balances.behind balances.brace
  have closed := braces_succ '}' balances.behind balances.brace
  have balanced := balances.equal
  simp only [Prod.mk.injEq, Char.reduceEq, and_true, ↓reduceIte] at opened closed
  omega

end

def IsBlankBetween (s : Text) (start stop : Nat) : Prop :=
  ∀ index, start ≤ index → index < stop → s[index]? = some ' ' ∨ s[index]? = some '\n'

theorem maskedAs_of_deep {depth : Nat} {x : Char × Kind} (inside : 0 < depth) (stays : 0 < depthAfter depth x) :
    maskedAs depth x = ' ' ∨ maskedAs depth x = '\n' := by
  unfold depthAfter at stays
  unfold maskedAs blankOut
  split
  · rw [if_neg (by omega)]
    exact .inl rfl
  · rename_i other
    rw [if_neg other] at stays
    split
    · rename_i closing
      rw [if_pos closing] at stays
      rw [if_neg (by omega)]
      exact .inl rfl
    · rw [if_pos (.inl inside)]
      split
      · exact .inr rfl
      · exact .inl rfl

theorem mask_opening {content : Text} {opening : Nat} (brace : (mark content)[opening]? = some ('{', .code)) :
    (mask content)[opening]? = some (if depthAt content opening = 0 then '{' else ' ') := by
  rw [getElem?_mask, brace, Option.map_some, maskedAs, if_pos rfl]

namespace IsClosing

variable {content : Text} {opening closing : Nat} (closes : IsClosing content opening closing)
  (brace : (mark content)[opening]? = some ('{', .code))

include closes brace

theorem isBlankBetween_mask : IsBlankBetween (mask content) (opening + 1) closing := by
  intro index behind before
  have within : index < (mark content).length :=
    Nat.lt_trans before (List.getElem?_eq_some_iff.mp closes.balances.brace).1
  have here : (mark content)[index]? = some (mark content)[index] := List.getElem?_eq_getElem within
  have deeper := closes.depthAt_lt brace behind (Nat.le_of_lt before)
  have stays : depthAt content opening < depthAt content (index + 1) := closes.depthAt_lt brace (by omega) before
  rw [depthAt_succ here] at stays
  have blank := maskedAs_of_deep (Nat.zero_lt_of_lt deeper) (Nat.zero_lt_of_lt stays)
  rw [getElem?_mask, here, Option.map_some]
  exact blank.imp (congrArg some) (congrArg some)

theorem mask_closing :
    (mask content)[closing]? = some (if depthAt content opening = 0 then '}' else ' ') := by
  have other : ('}', Kind.code) ≠ ('{', .code) := by decide
  rw [getElem?_mask, closes.balances.brace, Option.map_some, closes.depthAt_closing brace, maskedAs,
    if_neg other, if_pos rfl]
  by_cases surface : depthAt content opening = 0
  · rw [if_pos surface, if_pos (by omega)]
  · rw [if_neg surface, if_neg (by omega)]

end IsClosing

/-- Of every block that a search finds, the mask shows both braces or neither of them, and nothing that stands
between them but the line breaks. -/
theorem mask_of_mem_blocks {keyword content : Text} {block : Block} (found : block ∈ blocks keyword content) :
    0 < block.bodyStart ∧ block.bodyStart ≤ block.bodyEnd ∧
      ((mask content)[block.bodyStart - 1]? = some '{' →
        (mask content)[block.bodyEnd]? = some '}' ∧
          IsBlankBetween (mask content) block.bodyStart block.bodyEnd) ∧
      ((mask content)[block.bodyStart - 1]? ≠ some '{' →
        IsBlankBetween (mask content) (block.bodyStart - 1) (block.bodyEnd + 1)) := by
  have braced := isBraced_of_mem_blocks found
  rw [blocks_eq_blocksBetween] at found
  have closes := isClosing_of_mem_blocksBetween found
  have first := mask_opening braced.opened
  have last := closes.mask_closing braced.opened
  have body := closes.isBlankBetween_mask braced.opened
  rw [Nat.sub_add_cancel braced.starts] at body
  refine ⟨braced.starts, braced.ordered, fun shown => ?_, fun hidden => ?_⟩
  · have surface : depthAt content (block.bodyStart - 1) = 0 := by
      apply Classical.byContradiction
      intro inside
      rw [first, if_neg inside] at shown
      cases shown
    rw [last, if_pos surface]
    exact ⟨rfl, body⟩
  · have inside : depthAt content (block.bodyStart - 1) ≠ 0 := by
      intro surface
      rw [first, if_pos surface] at hidden
      exact hidden rfl
    rw [if_neg inside] at first last
    intro index behind before
    by_cases atFirst : index = block.bodyStart - 1
    · rw [atFirst]
      exact .inl first
    by_cases atLast : index = block.bodyEnd
    · rw [atLast]
      exact .inl last
    apply body index
    · omega
    · omega

/-- A block at the top level and one inside it, behind a stray brace and with braces in a literal and a comment. -/
theorem mask_of_mem_blocks_nested :
    let content : Text := r"}'{' a { b /*}*/ {
'}' }
}"
    let outer : Block := ⟨"a", 5, 8, 25, r" b /*}*/ {
'}' }
"⟩
    let inner : Block := ⟨"b", 9, 18, 23, r"
'}' "⟩
    outer ∈ blocks "a" content ∧ inner ∈ blocks "b" content ∧
      (mask content)[25]? = some '}' ∧ IsBlankBetween (mask content) 8 25 ∧
      IsBlankBetween (mask content) 17 24 := by
  intro content outer inner
  have first : outer ∈ blocks "a" content := by decide +kernel
  have second : inner ∈ blocks "b" content := by decide +kernel
  obtain ⟨shown, blank⟩ := (mask_of_mem_blocks first).2.2.1 (by decide +kernel)
  exact ⟨first, second, shown, blank, (mask_of_mem_blocks second).2.2.2 (by decide +kernel)⟩

end GradlePublishing.Script
