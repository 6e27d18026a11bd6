import GradlePublishing.Proofs.Script.Heads
import GradlePublishing.Script.Mask
import Mathlib.Data.Nat.Init

/-!
The depth of a place in a script. The mask counts open braces on its way, and never less than none. A place
has depth zero exactly if every brace opened before it has been closed before it (`depth_eq_zero_iff`).
-/

namespace GradlePublishing.Script

/-- The number of open braces behind a mark. A closing brace without an opening one changes nothing. -/
def depthAfter (depth : Nat) (x : Char × Kind) : Nat :=
  if x = ('{', .code) then depth + 1 else if x = ('}', .code) then depth - 1 else depth

def depthBehind (depth : Nat) (marks : Marked) : Nat := marks.foldl depthAfter depth

theorem depthBehind_append (depth : Nat) (front behind : Marked) :
    depthBehind depth (front ++ behind) = depthBehind (depthBehind depth front) behind :=
  List.foldl_append

theorem depthBehind_of_no_brace {marks : Marked} (opening : ('{', .code) ∉ marks)
    (closing : ('}', .code) ∉ marks) (depth : Nat) : depthBehind depth marks = depth := by
  induction marks with
  | nil => rfl
  | cons x marks ih =>
    rw [List.mem_cons, not_or] at opening closing
    rw [depthBehind, List.foldl_cons, depthAfter, if_neg (Ne.symm opening.1), if_neg (Ne.symm closing.1)]
    exact ih opening.2 closing.2

/-- What a character is masked by inside `depth` open braces. -/
def maskedAs (depth : Nat) (x : Char × Kind) : Char :=
  if x = ('{', .code) then if depth = 0 then '{' else ' '
  else if x = ('}', .code) then if depth ≤ 1 then '}' else ' '
  else if 0 < depth ∨ x.2 = .comment then blankOut x.1
  else x.1

theorem maskFrom_cons (depth : Nat) (x : Char × Kind) (rest : Marked) :
    maskFrom depth (x :: rest) = maskedAs depth x :: maskFrom (depthAfter depth x) rest := by
  obtain ⟨c, kind⟩ := x
  by_cases opening : c = '{' ∧ kind = .code
  · simp [maskFrom, maskedAs, depthAfter, opening]
  · by_cases closing : c = '}' ∧ kind = .code
    · obtain ⟨rfl, rfl⟩ := closing
      match depth with
      | 0 => simp [maskFrom, maskedAs, depthAfter]
      | 1 => simp [maskFrom, maskedAs, depthAfter]
      | depth + 2 => simp [maskFrom, maskedAs, depthAfter]
    · have unclosed : ¬ (c = '}' ∧ kind = .code ∧ 0 < depth) := fun same => closing ⟨same.1, same.2.1⟩
      rw [maskFrom, if_neg opening, if_neg unclosed, maskedAs, depthAfter]
      simp only [Prod.mk.injEq, opening, closing, ↓reduceIte]
      split <;> rfl

/-- The mask of a piece depends on nothing behind it, and of what stands before it only on the depth. -/
theorem maskFrom_append (depth : Nat) (front behind : Marked) :
    maskFrom depth (front ++ behind) =
      maskFrom depth front ++ maskFrom (depthBehind depth front) behind := by
  induction front generalizing depth with
  | nil => rw [List.nil_append, maskFrom, List.nil_append, depthBehind, List.foldl_nil]
  | cons x front ih =>
    rw [List.cons_append, maskFrom_cons, ih, maskFrom_cons, List.cons_append, depthBehind, depthBehind,
      List.foldl_cons]

theorem getElem?_maskFrom (depth : Nat) (marks : Marked) (index : Nat) :
    (maskFrom depth marks)[index]? =
      marks[index]?.map (maskedAs (depthBehind depth (marks.take index))) := by
  induction marks generalizing depth index with
  | nil => rw [maskFrom]; rfl
  | cons x marks ih =>
    rw [maskFrom_cons]
    cases index with
    | zero => rfl
    | succ index => exact ih _ _

section

variable {content : Text}

/-- The brace at `opening` stands before `index`, and so does none that closes it. -/
structure IsOpenAt (content : Text) (opening index : Nat) : Prop where
  before : opening < index
  brace : (mark content)[opening]? = some ('{', .code)
  unclosed : ∀ closing < index, ¬ IsClosing content opening closing

/-- The index lies outside all braces. -/
def IsTopLevel (content : Text) (index : Nat) : Prop := ∀ opening, ¬ IsOpenAt content opening index

/-- The number of open braces before an index. -/
def depthAt (content : Text) (index : Nat) : Nat := depthBehind 0 ((mark content).take index)

theorem depthAt_succ {index : Nat} {x : Char × Kind} (here : (mark content)[index]? = some x) :
    depthAt content (index + 1) =
      if x = ('{', .code) then depthAt content index + 1
      else if x = ('}', .code) then depthAt content index - 1
      else depthAt content index := by
  rw [depthAt, List.take_add_one, here, depthBehind_append]
  rfl

theorem depthAt_of_ended {index : Nat} (ended : (mark content)[index]? = none) :
    depthAt content (index + 1) = depthAt content index := by
  rw [depthAt, List.take_add_one, ended, Option.toList_none, List.append_nil, depthAt]

theorem Balances.exists_isClosing {opening index : Nat} (balances : Balances content opening index) :
    ∃ closing ≤ index, IsClosing content opening closing := by
  induction index using Nat.strongRecOn with
  | ind index ih =>
    by_cases earlier : ∃ closing < index, Balances content opening closing
    · obtain ⟨closing, before, balances⟩ := earlier
      obtain ⟨first, reached, closes⟩ := ih closing before balances
      exact ⟨first, by omega, closes⟩
    · exact ⟨index, Nat.le_refl index, balances, fun closing before other => earlier ⟨closing, before, other⟩⟩

theorem braces_self (brace : Char) (opening : Nat) : braces content brace opening opening = 0 := by
  rw [braces, marksBetween_of_le (Nat.le_refl _), List.count_nil]

theorem braces_of_ended (brace : Char) {opening index : Nat} (ended : (mark content)[index]? = none) :
    braces content brace opening (index + 1) = braces content brace opening index := by
  rw [braces, marksBetween, List.take_add_one, ended, Option.toList_none, List.append_nil, braces,
    marksBetween]

/-- Until it is closed, more braces are opened from `opening` on than are closed. -/
theorem braces_lt_of_unclosed {opening index : Nat} (behind : opening < index)
    (brace : (mark content)[opening]? = some ('{', .code))
    (unclosed : ∀ closing < index, ¬ IsClosing content opening closing) :
    braces content '}' opening index < braces content '{' opening index := by
  induction index, behind using Nat.le_induction with
  | base =>
    rw [braces_succ '}' (Nat.le_refl opening) brace, braces_succ '{' (Nat.le_refl opening) brace,
      braces_self, braces_self]
    decide
  | succ index behind ih =>
    have more := ih fun closing before => unclosed closing (Nat.lt_succ_of_lt before)
    have reached : opening ≤ index := Nat.le_of_succ_le behind
    cases here : (mark content)[index]? with
    | none => rwa [braces_of_ended _ here, braces_of_ended _ here]
    | some x =>
      have opens := braces_succ '{' reached here
      have closes := braces_succ '}' reached here
      by_cases closing : x = ('}', .code)
      · subst closing
        have notEqual : braces content '}' opening (index + 1) ≠ braces content '{' opening (index + 1) := by
          intro equal
          obtain ⟨first, before, isClosing⟩ := Balances.exists_isClosing ⟨reached, here, equal⟩
          exact unclosed first (Nat.lt_succ_of_le before) isClosing
        simp only [Prod.mk.injEq, Char.reduceEq, and_true, ↓reduceIte] at opens closes
        omega
      · rw [if_neg closing] at closes
        split at opens <;> omega

theorem braces_le_depthAt {opening index : Nat} (behind : opening ≤ index) :
    braces content '{' opening index ≤ braces content '}' opening index + depthAt content index := by
  induction index, behind using Nat.le_induction with
  | base => rw [braces_self]; exact Nat.zero_le _
  | succ index behind ih =>
    cases here : (mark content)[index]? with
    | none => rwa [braces_of_ended _ here, braces_of_ended _ here, depthAt_of_ended here]
    | some x =>
      have opens := braces_succ '{' behind here
      have closes := braces_succ '}' behind here
      have depth := depthAt_succ here
      by_cases opened : x = ('{', .code)
      · subst opened
        simp only [Prod.mk.injEq, Char.reduceEq, and_true, ↓reduceIte] at opens closes depth
        omega
      · rw [if_neg opened] at opens depth
        by_cases closed : x = ('}', .code)
        · rw [if_pos closed] at closes depth
          omega
        · rw [if_neg closed] at closes depth
          omega

/-- The depth at an index is what is opened from `opening` on and not closed again. -/
structure CountsFrom (content : Text) (opening index : Nat) : Prop where
  inside : 0 < depthAt content index
  equal : braces content '{' opening index = braces content '}' opening index + depthAt content index

theorem countsFrom_brace {opening : Nat} (brace : (mark content)[opening]? = some ('{', .code))
    (surface : depthAt content opening = 0) : CountsFrom content opening (opening + 1) := by
  have depth : depthAt content (opening + 1) = 1 := by rw [depthAt_succ brace, if_pos rfl, surface]
  constructor
  · rw [depth]
    exact Nat.one_pos
  · rw [depth, braces_succ '{' (Nat.le_refl opening) brace, braces_succ '}' (Nat.le_refl opening) brace,
      braces_self, braces_self]
    decide

theorem CountsFrom.succ {opening index : Nat} (counts : CountsFrom content opening index)
    (behind : opening ≤ index) (inside : 0 < depthAt content (index + 1)) :
    CountsFrom content opening (index + 1) := by
  refine ⟨inside, ?_⟩
  have equal := counts.equal
  cases here : (mark content)[index]? with
  | none => rwa [depthAt_of_ended here, braces_of_ended _ here, braces_of_ended _ here]
  | some x =>
    have opens := braces_succ '{' behind here
    have closes := braces_succ '}' behind here
    have depth := depthAt_succ here
    by_cases opened : x = ('{', .code)
    · subst opened
      simp only [Prod.mk.injEq, Char.reduceEq, and_true, ↓reduceIte] at opens closes depth
      omega
    · rw [if_neg opened] at opens depth
      by_cases closed : x = ('}', .code)
      · rw [if_pos closed] at closes depth
        omega
      · rw [if_neg closed] at closes depth
        omega

/-- Below the surface, the depth counts from the outermost brace that is open. -/
theorem exists_countsFrom {index : Nat} (inside : 0 < depthAt content index) :
    ∃ opening < index, (mark content)[opening]? = some ('{', .code) ∧
      ∀ between, opening < between → between ≤ index → CountsFrom content opening between := by
  induction index with
  | zero =>
    rw [depthAt, List.take_zero] at inside
    cases inside
  | succ index ih =>
    by_cases surface : depthAt content index = 0
    · have brace : (mark content)[index]? = some ('{', .code) := by
        cases here : (mark content)[index]? with
        | none => rw [depthAt_of_ended here, surface] at inside; cases inside
        | some x =>
          have depth := depthAt_succ here
          refine congrArg some (Classical.byContradiction fun other => ?_)
          rw [if_neg other] at depth
          split at depth <;> omega
      refine ⟨index, Nat.lt_succ_self index, brace, fun between behind upTo => ?_⟩
      obtain rfl : between = index + 1 := by omega
      exact countsFrom_brace brace surface
    · obtain ⟨opening, before, brace, counts⟩ := ih (Nat.pos_of_ne_zero surface)
      refine ⟨opening, by omega, brace, fun between behind upTo => ?_⟩
      rcases Nat.eq_or_lt_of_le upTo with rfl | earlier
      · exact (counts index before (Nat.le_refl index)).succ (Nat.le_of_lt before) inside
      · exact counts between behind (by omega)

theorem depth_eq_zero_iff {index : Nat} : depthAt content index = 0 ↔ IsTopLevel content index := by
  constructor
  · rintro surface opening ⟨before, brace, unclosed⟩
    have more := braces_lt_of_unclosed before brace unclosed
    have counted : braces content '{' opening index ≤ braces content '}' opening index + depthAt content index :=
      braces_le_depthAt (Nat.le_of_lt before)
    omega
  · intro outside
    refine Classical.byContradiction fun inside => ?_
    obtain ⟨opening, before, brace, counts⟩ := exists_countsFrom (Nat.pos_of_ne_zero inside)
    refine outside opening ⟨before, brace, fun closing earlier closes => ?_⟩
    have ahead := closes.opening_lt brace
    obtain ⟨positive, equal⟩ := counts (closing + 1) (by omega) (by omega)
    have balanced := closes.balances.equal
    omega

instance (content : Text) (index : Nat) : Decidable (IsTopLevel content index) :=
  decidable_of_iff (depthAt content index = 0) depth_eq_zero_iff

end

end GradlePublishing.Script
