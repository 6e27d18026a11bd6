import GradlePublishing.Script.Token

/-!
Blocks of the form `keyword { … }`. A keyword stands alone in the code, an opening brace is the
next thing after it that is neither space nor comment, and the body runs to the brace that
balances it. Only braces of kind code count.
-/

namespace GradlePublishing.Script

structure Block where
  keyword : Text
  start : Nat
  bodyStart : Nat
  bodyEnd : Nat
  body : Text
  deriving DecidableEq, Repr

def isBounded (before after : Option Char) : Bool :=
  before.all isDelimiter && after.all isDelimiter

/-- Whether the characters from `start` to `stop` are code that stands alone. -/
def isKeywordOccurrence (content : Text) (start stop : Nat) : Bool :=
  (((classify content).drop start).take (stop - start)).all (· == .code) &&
    isBounded (content.take start).getLast? (content.drop stop).head?

def afterKeyword? (keyword : Text) (before : Option Char) (rest : Marked) : Option Marked :=
  let found := rest.take keyword.length
  let after := rest.drop keyword.length
  if found.map (·.1) == keyword && found.all (·.2 == .code) &&
      isBounded before (after.head?.map (·.1)) then
    some after
  else none

/-- What follows the opening brace when only space and comments stand before it. -/
def afterOpenBrace? (rest : Marked) : Option Marked :=
  match rest.dropWhile fun x => x.2 == .comment || isSpace x.1 with
  | ('{', .code) :: inner => some inner
  | _ => none

/-- Cuts before the closing brace that balances an opening one: the body, and what follows the
closing brace. The first argument counts the braces still open inside the body. -/
def cutAtClosingBrace? : Nat → Marked → Option (Marked × Marked)
  | _, [] => none
  | depth, x :: rest =>
    if x = ('}', .code) then
      match depth with
      | 0 => some ([], rest)
      | depth + 1 => (cutAtClosingBrace? depth rest).map fun (body, after) => (x :: body, after)
    else
      (cutAtClosingBrace? (if x = ('{', .code) then depth + 1 else depth) rest).map
        fun (body, after) => (x :: body, after)

theorem length_afterKeyword? {keyword : Text} {before : Option Char} {rest after : Marked}
    (found : afterKeyword? keyword before rest = some after) :
    after.length ≤ rest.length - keyword.length := by
  simp only [afterKeyword?] at found
  split at found
  · cases found
    simp
  · cases found

theorem length_afterOpenBrace? {rest inner : Marked} (found : afterOpenBrace? rest = some inner) :
    inner.length < rest.length := by
  unfold afterOpenBrace? at found
  split at found
  · rename_i kept same
    cases found
    have shorter :=
      (List.dropWhile_suffix (l := rest) fun x => x.2 == .comment || isSpace x.1).length_le
    rw [same, List.length_cons] at shorter
    omega
  · cases found

theorem length_cutAtClosingBrace? {depth : Nat} {rest body after : Marked}
    (found : cutAtClosingBrace? depth rest = some (body, after)) :
    body.length + after.length + 1 = rest.length := by
  induction rest generalizing depth body with
  | nil => simp [cutAtClosingBrace?] at found
  | cons x rest ih =>
    unfold cutAtClosingBrace? at found
    split at found
    · split at found
      · cases found
        simp
      · obtain ⟨⟨inner, behind⟩, cut, same⟩ := Option.map_eq_some_iff.mp found
        cases same
        have := ih cut
        simp only [List.length_cons]
        omega
    · obtain ⟨⟨inner, behind⟩, cut, same⟩ := Option.map_eq_some_iff.mp found
      cases same
      have := ih cut
      simp only [List.length_cons]
      omega

/-- The blocks of `keyword` in the rest of a script, which starts at `offset` after the character
`before`. Blocks inside a block are part of its body. The search ends at a block that is never
closed. -/
def blocksFrom (keyword : Text) (before : Option Char) (offset : Nat) : Marked → List Block
  | [] => []
  | x :: rest =>
    if _ : keyword = [] then []
    else
      match found : afterKeyword? keyword before (x :: rest) with
      | none => blocksFrom keyword (some x.1) (offset + 1) rest
      | some after =>
        match _ : afterOpenBrace? after with
        | none => blocksFrom keyword keyword.getLast? (offset + keyword.length) after
        | some inner =>
          match closed : cutAtClosingBrace? 0 inner with
          | none => []
          | some (body, behind) =>
            let stop := offset + (rest.length + 1) - behind.length
            ⟨keyword, offset, stop - body.length - 1, stop - 1, body.map (·.1)⟩ ::
              blocksFrom keyword (some '}') stop behind
termination_by rest => rest.length
decreasing_by
  all_goals simp_wf
  all_goals
    have positive := List.length_pos_iff.mpr ‹keyword ≠ []›
    have found' := length_afterKeyword? found
    simp only [List.length_cons] at found'
  · omega
  · have inside := length_afterOpenBrace? ‹_›
    have behind' := length_cutAtClosingBrace? closed
    omega

def blocks (keyword content : Text) : List Block :=
  blocksFrom keyword none 0 (mark content)

def bodies (keyword content : Text) : List Text := (blocks keyword content).map Block.body

end GradlePublishing.Script
