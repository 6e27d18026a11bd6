import GradlePublishing.Proofs.Script.Boundary

/-!
Comments that fill lines of their own. Whatever stands behind a line break of code, what stands in front
of it keeps its kinds (`mark_append`). So a comment that is put in behind such a line break changes no
other kinds, and of its own characters only its last line break is code (`CommentLine.mark_eq`).
-/

namespace GradlePublishing

namespace Text

theorem length_le_of_through {stop s : Text} (left : (through stop s).2 ≠ []) :
    stop.length ≤ s.length := by
  induction s with
  | nil => exact absurd rfl left
  | cons c s ih =>
    cases found : after? stop (c :: s) with
    | some rest =>
      rw [after?_eq_some_iff.mp found, List.length_append]
      omega
    | none =>
      simp only [through, found] at left
      have shorter := ih left
      rw [List.length_cons]
      omega

/-- A `stop` that is found before the end is found there in a longer text as well. -/
theorem through_append_of_left {stop s : Text} (left : (through stop s).2 ≠ []) (t : Text) :
    (through stop (s ++ t)).2 = (through stop s).2 ++ t := by
  induction s with
  | nil => exact absurd rfl left
  | cons c s ih =>
    cases found : after? stop (c :: s) with
    | some rest =>
      have longer : after? stop (c :: (s ++ t)) = some (rest ++ t) := after?_append found t
      simp only [List.cons_append, through, found, longer]
    | none =>
      simp only [through, found] at left ⊢
      have fits := length_le_of_through left
      have absent : after? stop (c :: (s ++ t)) = none := by
        cases longer : after? stop (c :: (s ++ t)) with
        | none => rfl
        | some rest =>
          have whole : (c :: s) ++ t = stop ++ rest := after?_eq_some_iff.mp longer
          have starts : stop <+: c :: s :=
            List.prefix_of_prefix_length_le ⟨rest, whole.symm⟩ ⟨t, rfl⟩ (Nat.le_succ_of_le fits)
          obtain ⟨between, same⟩ := starts
          rw [after?_eq_some_iff.mpr same.symm] at found
          cases found
      simp only [List.cons_append, through, absent]
      exact ih left

theorem through_of_not_infix {text : Text} (unclosed : ¬ ['*', '/'] <:+: text) (rest : Text) :
    through ['*', '/'] (text ++ '*' :: '/' :: rest) = (text ++ ['*', '/'], rest) := by
  induction text with
  | nil => rfl
  | cons c text ih =>
    have later : ¬ ['*', '/'] <:+: text := fun inside => unclosed (inside.trans ⟨[c], [], by simp⟩)
    have absent : after? ['*', '/'] (c :: (text ++ '*' :: '/' :: rest)) = none := by
      cases found : after? ['*', '/'] (c :: (text ++ '*' :: '/' :: rest)) with
      | none => rfl
      | some behind =>
        obtain ⟨rfl, same⟩ := List.cons.inj (after?_eq_some_iff.mp found)
        cases text with
        | nil => cases same
        | cons d text =>
          obtain ⟨rfl, -⟩ := List.cons.inj same
          exact absurd ⟨[], text, rfl⟩ unclosed
    simp only [List.cons_append, through, absent, ih later]

end Text

namespace Script

theorem lineLiteral_append_of_left {quote : Char} {s : Text} (left : (lineLiteral quote s).2 ≠ [])
    (t : Text) : (lineLiteral quote (s ++ t)).2 = (lineLiteral quote s).2 ++ t := by
  fun_induction lineLiteral quote s with
  | case1 => exact absurd rfl left
  | case2 => exact absurd rfl left
  | case3 c s ih => simpa only [List.cons_append, lineLiteral] using ih left
  | case4 s single hidden =>
    have plain : quote ≠ '\\' := ne_backslash single hidden
    rw [List.cons_append, lineLiteral_cons plain, if_pos rfl]
  | case5 s single hidden open' =>
    rw [List.cons_append, lineLiteral_cons (by decide), if_neg open', if_pos rfl]
  | case6 c s single hidden open' inLine ih =>
    have plain : c ≠ '\\' := ne_backslash single hidden
    rw [List.cons_append, lineLiteral_cons plain, if_neg open', if_neg inLine]
    exact ih left

/-- A token that ends before the end of a text is the same token in a longer text. -/
theorem nextToken_append_of_left {c : Char} {s : Text} (left : (nextToken c s).2 ≠ []) (t : Text) :
    nextToken c (s ++ t) = ((nextToken c s).1, (nextToken c s).2 ++ t) := by
  suffices behind : (nextToken c (s ++ t)).2 = (nextToken c s).2 ++ t by
    rw [nextToken_of_append behind, ← behind]
  cases quote : Text.isQuote c with
  | true =>
    cases tripled : Text.after? [c, c] s with
    | some inner =>
      simp only [nextToken, quote, ↓reduceIte, tripled, Text.after?_append tripled t] at left ⊢
      exact Text.through_append_of_left left t
    | none =>
      simp only [nextToken, quote, ↓reduceIte, tripled] at left
      have single : Text.after? [c, c] (s ++ t) = none := by
        cases longer : Text.after? [c, c] (s ++ t) with
        | none => rfl
        | some inner =>
          have whole := Text.after?_eq_some_iff.mp longer
          cases s with
          | nil => exact absurd rfl left
          | cons d s =>
            obtain ⟨rfl, more⟩ := List.cons.inj whole
            cases s with
            | nil =>
              -- The second quote would end the literal and the text.
              have plain : d ≠ '\\' := by
                rintro rfl
                cases quote
              rw [lineLiteral_cons plain, if_pos rfl] at left
              exact absurd rfl left
            | cons e s =>
              obtain ⟨rfl, -⟩ := List.cons.inj more
              cases (Text.after?_eq_some_iff.mpr rfl).symm.trans tripled
      simp only [nextToken, quote, ↓reduceIte, tripled, single]
      exact lineLiteral_append_of_left left t
  | false =>
    cases comment : opensComment c s with
    | true =>
      obtain ⟨rfl, ⟨line, rfl⟩ | ⟨inner, rfl⟩⟩ := opensComment_eq_true_iff.mp comment
      · rw [nextToken_slashes] at left
        rw [List.cons_append, nextToken_slashes, nextToken_slashes, List.dropWhile_append,
          if_neg (by simpa using left)]
      · rw [nextToken_slash_star] at left
        rw [List.cons_append, nextToken_slash_star, nextToken_slash_star]
        exact Text.through_append_of_left left t
    | false =>
      rw [nextToken_code quote comment] at left ⊢
      have none : opensComment c (s ++ t) = false := by
        cases s with
        | nil => exact absurd rfl left
        | cons d s => exact comment
      rw [nextToken_code quote none]

theorem mark_break (s : Text) : mark ('\n' :: s) = ('\n', .code) :: mark s := by
  rw [mark_cons, nextToken_code (by decide) rfl]
  rfl

/-- Whatever follows a line break of code, it stays one, and so do the kinds in front of it. -/
theorem mark_append_break {content : Text} {front behind : Marked}
    (cut : mark content = front ++ ('\n', .code) :: behind) (s : Text) :
    mark (front.map (·.1) ++ '\n' :: s) = front ++ ('\n', .code) :: mark s := by
  induction content using tokens.induct generalizing front with
  | case1 =>
    rw [mark, tokens] at cut
    exact absurd (congrArg List.length cut) (by simp)
  | case2 c content ih =>
    rcases mark_cons_cut cut with ⟨rfl, -⟩ | ⟨later, rfl, rest⟩
    · exact mark_break s
    · obtain ⟨more, text⟩ := nextToken_head c content
      have remaining : (nextToken c content).2 = later.map (·.1) ++ ['\n'] ++ behind.map (·.1) := by
        rw [← map_fst_mark (nextToken c content).2, rest]
        simp
      have source : content = more ++ later.map (·.1) ++ ['\n'] ++ behind.map (·.1) := by
        have whole := nextToken_append c content
        rw [text, remaining, List.cons_append] at whole
        simpa using (List.cons.inj whole).2.symm
      -- The first token ends before the line break, so it depends on nothing behind that.
      have first : nextToken c (more ++ later.map (·.1) ++ ['\n']) =
          ((nextToken c content).1, later.map (·.1) ++ ['\n']) := by
        rw [source] at remaining
        rw [nextToken_of_append remaining, ← source]
      have longer : nextToken c (more ++ later.map (·.1) ++ '\n' :: s) =
          ((nextToken c content).1, later.map (·.1) ++ '\n' :: s) := by
        have extended := nextToken_append_of_left (by rw [first]; simp) s
        rw [first] at extended
        simpa using extended
      have texts : ((nextToken c content).1.marks ++ later).map (·.1) ++ '\n' :: s =
          c :: (more ++ later.map (·.1) ++ '\n' :: s) := by
        rw [List.map_append, Token.map_fst_marks, text]
        simp
      rw [texts, mark_cons, longer, ih rest, List.append_assoc]

/-- A text that ends with a line break of code, or is empty. What follows it starts on a line of its
own. -/
def EndsLine (front : Text) : Prop :=
  front = [] ∨ ∃ before, mark front = before ++ [('\n', .code)]

theorem mark_nil : mark [] = [] := by
  rw [mark, tokens]
  rfl

theorem mark_append {front : Text} (ends : EndsLine front) (behind : Text) :
    mark (front ++ behind) = mark front ++ mark behind := by
  rcases ends with rfl | ⟨before, marked⟩
  · rw [mark_nil, List.nil_append, List.nil_append]
  · have text : front = before.map (·.1) ++ ['\n'] := by
      rw [← map_fst_mark front, marked]
      simp
    have longer := mark_append_break marked behind
    rw [marked, text]
    simpa using longer

theorem EndsLine.eq_append {front : Text} (ends : EndsLine front) :
    front = [] ∨ ∃ before, front = before ++ ['\n'] := by
  refine ends.imp_right fun ⟨before, marked⟩ => ⟨before.map (·.1), ?_⟩
  rw [← map_fst_mark front, marked]
  simp

/-- A line starts between two pieces of a script: the first is empty or ends with a line break that
is code in the script. -/
def StartsLine (front behind : Text) : Prop :=
  front = [] ∨ ∃ before, front = before ++ ['\n'] ∧
    (classify (front ++ behind))[before.length]? = some .code

theorem getElem?_mark {content : Text} {index : Nat} {c : Char} {kind : Kind}
    (char : content[index]? = some c) (here : (classify content)[index]? = some kind) :
    (mark content)[index]? = some (c, kind) := by
  rw [← map_fst_mark content, List.getElem?_map] at char
  rw [classify, List.getElem?_map] at here
  obtain ⟨x, found, kind⟩ := Option.map_eq_some_iff.mp here
  rw [found, Option.map_some] at char
  rw [found, ← kind, ← Option.some.inj char]

theorem StartsLine.endsLine {front behind : Text} (starts : StartsLine front behind) :
    EndsLine front := by
  rcases starts with rfl | ⟨before, rfl, code⟩
  · exact .inl rfl
  · have char : (before ++ ['\n'] ++ behind)[before.length]? = some '\n' := by simp
    have cut := eq_take_append_cons_drop (getElem?_mark char code)
    have texts : ((mark (before ++ ['\n'] ++ behind)).take before.length).map (·.1) = before := by
      rw [List.map_take, map_fst_mark]
      simp
    have marked := mark_append_break cut []
    rw [texts, mark_nil] at marked
    exact .inr ⟨_, marked⟩

inductive CommentLine : Text → Prop
  | line {text : Text} (single : '\n' ∉ text) : CommentLine ('/' :: '/' :: text ++ ['\n'])
  | block {text : Text} (unclosed : ¬ ['*', '/'] <:+: text) :
    CommentLine ('/' :: '*' :: text ++ ['*', '/', '\n'])

theorem Token.kind_of_mem_marks {token : Token} {x : Char × Kind} (member : x ∈ token.marks) :
    x.2 = token.kind := by
  obtain ⟨c, -, rfl⟩ := List.mem_map.mp member
  rfl

/-- Only the line break at the end of a comment line is code. -/
theorem CommentLine.mark_eq {comment : Text} (line : CommentLine comment) :
    ∃ inside, mark comment = inside ++ [('\n', .code)] ∧ ∀ x ∈ inside, x.2 = .comment := by
  cases line with
  | @line text single =>
    have inLine : ∀ c ∈ text, (c != '\n') = true := by
      rintro c inside
      exact bne_iff_ne.mpr fun same => single (same ▸ inside)
    have taken : (text ++ ['\n']).takeWhile (· != '\n') = text := by
      rw [List.takeWhile_append_of_pos inLine]
      simp
    have left : (text ++ ['\n']).dropWhile (· != '\n') = ['\n'] := by
      rw [List.dropWhile_append_of_pos inLine]
      simp
    refine ⟨(⟨.comment, '/' :: '/' :: text⟩ : Token).marks, ?_, fun x => Token.kind_of_mem_marks⟩
    rw [List.cons_append, List.cons_append, mark_cons, nextToken_slashes, taken, left, mark_break,
      mark_nil]
  | @block text unclosed =>
    refine ⟨(⟨.comment, '/' :: '*' :: (text ++ ['*', '/'])⟩ : Token).marks, ?_,
      fun x => Token.kind_of_mem_marks⟩
    rw [List.cons_append, List.cons_append, mark_cons, nextToken_slash_star,
      Text.through_of_not_infix unclosed, mark_break, mark_nil]

theorem CommentLine.endsLine {comment : Text} (line : CommentLine comment) : EndsLine comment := by
  obtain ⟨inside, marked, -⟩ := line.mark_eq
  exact .inr ⟨inside, marked⟩

def IsBlank (marks : Marked) : Prop := ∀ x ∈ marks, x.2 = .comment ∨ x = ('\n', .code)

theorem CommentLine.isBlank {comment : Text} (line : CommentLine comment) :
    IsBlank (mark comment) := by
  obtain ⟨inside, marked, comments⟩ := line.mark_eq
  intro x member
  rw [marked] at member
  rcases List.mem_append.mp member with member | member
  · exact .inl (comments x member)
  · exact .inr (List.mem_singleton.mp member)

end Script

end GradlePublishing
