import GradlePublishing.Script.Token

/-!
The top level of a script: everything inside braces and every comment is blanked out, while the
outermost braces, all line breaks and all offsets stay.
-/

namespace GradlePublishing.Script

def blankOut (c : Char) : Char := if c = '\n' then '\n' else ' '

/-- Masks the rest of a script that starts inside `depth` open braces. A closing brace without an
opening one changes nothing. -/
def maskFrom : Nat → Marked → Text
  | _, [] => []
  | depth, (c, kind) :: rest =>
    if c = '{' ∧ kind = .code then
      (if depth = 0 then '{' else ' ') :: maskFrom (depth + 1) rest
    else if c = '}' ∧ kind = .code ∧ 0 < depth then
      (if depth = 1 then '}' else ' ') :: maskFrom (depth - 1) rest
    else if 0 < depth ∨ kind = .comment then blankOut c :: maskFrom depth rest
    else c :: maskFrom depth rest

/-- Keeps the top-level code and literals of a script and blanks out the rest. -/
def mask (content : Text) : Text := maskFrom 0 (mark content)

theorem length_maskFrom (depth : Nat) (rest : Marked) :
    (maskFrom depth rest).length = rest.length := by
  fun_induction maskFrom depth rest <;> simp_all

theorem length_mask (content : Text) : (mask content).length = content.length := by
  have same := congrArg List.length (map_fst_mark content)
  simpa [mask, length_maskFrom] using same

end GradlePublishing.Script
