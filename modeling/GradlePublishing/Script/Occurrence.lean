import GradlePublishing.Failure
import GradlePublishing.Script.Block

/-!
Pieces of a script between two indices that need not lie in it. For indices that do, the answer is
that of `isKeywordOccurrence` (`standsAlone_natCast`).
-/

namespace GradlePublishing.Script

def isDelimiterAt (content : Text) (index : Int) : Except Failure Bool :=
  match Index.get? content index with
  | some c => .ok (isDelimiter c)
  | none => .error .indexOutOfRange

def isFreeBefore (content : Text) (start : Int) : Except Failure Bool :=
  if 0 < start then isDelimiterAt content (start - 1) else .ok true

def isFreeBehind (content : Text) (stop : Int) : Except Failure Bool :=
  if stop = content.length then .ok true else isDelimiterAt content stop

def standsAlone (content : Text) (start stop : Int) : Except Failure Bool :=
  if (Index.slice (classify content) start stop).all (· == .code) then
    match isFreeBefore content start with
    | .ok true => isFreeBehind content stop
    | other => other
  else .ok false

theorem isDelimiterAt_natCast {content : Text} {index : Nat} (inside : index < content.length) :
    isDelimiterAt content (index : Int) = .ok (isDelimiter content[index]) := by
  simp [isDelimiterAt, Index.get?_natCast, inside]

theorem isFreeBefore_natCast {content : Text} {start : Nat} (inside : start ≤ content.length) :
    isFreeBefore content (start : Int) = .ok ((content.take start).getLast?.all isDelimiter) := by
  match start with
  | 0 => rfl
  | before + 1 =>
    have same : ((before + 1 : Nat) : Int) - 1 = (before : Nat) := by omega
    have last : (content.take (before + 1)).getLast? = some content[before] := by
      rw [List.take_succ_eq_append_getElem inside, List.getLast?_concat]
    rw [isFreeBefore, if_pos (by omega), same, isDelimiterAt_natCast inside, last]
    rfl

theorem isFreeBehind_natCast {content : Text} {stop : Nat} (inside : stop ≤ content.length) :
    isFreeBehind content (stop : Int) = .ok ((content.drop stop).head?.all isDelimiter) := by
  by_cases ended : stop = content.length
  · simp [isFreeBehind, ended]
  · have inside : stop < content.length := by omega
    rw [isFreeBehind, if_neg (by omega), isDelimiterAt_natCast inside,
      List.drop_eq_getElem_cons inside]
    rfl

theorem standsAlone_natCast {content : Text} {start stop : Nat} (ordered : start ≤ stop)
    (inside : stop ≤ content.length) :
    standsAlone content (start : Int) (stop : Int) =
      .ok (isKeywordOccurrence content start stop) := by
  unfold standsAlone isKeywordOccurrence isBounded
  rw [Index.slice_natCast, List.drop_take, isFreeBefore_natCast (Nat.le_trans ordered inside),
    isFreeBehind_natCast inside]
  cases (((classify content).drop start).take (stop - start)).all (· == .code) with
  | false => rfl
  | true => cases (content.take start).getLast?.all isDelimiter <;> rfl

end GradlePublishing.Script
