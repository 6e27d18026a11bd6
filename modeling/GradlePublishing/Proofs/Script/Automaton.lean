import GradlePublishing.Proofs.Script.Boundary

/-!
Reading a script one character at a time. Cutting a script into tokens runs ahead to the end of each token;
an automaton with one state for each kind of token, which sees no more than two characters ahead, gives
every character the same kind (`classify_eq_kinds`).
-/

namespace GradlePublishing.Script

/-- What the next character lies in. -/
inductive State
  | code
  | lineComment
  | blockComment
  | literal (quote : Char)
  | escape (quote : Char)
  | tripled (quote : Char)
  deriving DecidableEq, Repr

/-- A step of the automaton: the kind of the character it reads, the number of characters behind it that
complete the same mark, and the state behind the mark. -/
structure Step where
  kind : Kind
  more : Nat
  state : State
  deriving DecidableEq, Repr

def State.read (state : State) (c : Char) (second third : Option Char) : Step :=
  match state with
  | .code =>
    if Text.isQuote c then
      if second = some c ∧ third = some c then ⟨.literal, 2, .tripled c⟩
      else ⟨.literal, 0, .literal c⟩
    else if c = '/' ∧ second = some '/' then ⟨.comment, 1, .lineComment⟩
    else if c = '/' ∧ second = some '*' then ⟨.comment, 1, .blockComment⟩
    else ⟨.code, 0, .code⟩
  | .lineComment =>
    if c = '\n' then ⟨.code, 0, .code⟩ else ⟨.comment, 0, .lineComment⟩
  | .blockComment =>
    if c = '*' ∧ second = some '/' then ⟨.comment, 1, .code⟩ else ⟨.comment, 0, .blockComment⟩
  | .literal quote =>
    if c = '\\' then ⟨.literal, 0, .escape quote⟩
    else if c = quote then ⟨.literal, 0, .code⟩
    else if c = '\n' then ⟨.code, 0, .code⟩
    else ⟨.literal, 0, .literal quote⟩
  | .escape quote => ⟨.literal, 0, .literal quote⟩
  | .tripled quote =>
    if c = quote ∧ second = some quote ∧ third = some quote then ⟨.literal, 2, .code⟩
    else ⟨.literal, 0, .tripled quote⟩

/-- The kinds of the characters behind a step. The rest of a mark takes the kind of its first character. -/
def Step.kinds : Step → Text → List Kind
  | _, [] => []
  | ⟨kind, more + 1, state⟩, _ :: s => kind :: Step.kinds ⟨kind, more, state⟩ s
  | ⟨_, 0, state⟩, c :: s =>
    (state.read c s[0]? s[1]?).kind :: Step.kinds (state.read c s[0]? s[1]?) s

/-- The kinds of the characters of a text that the automaton enters in this state. -/
def State.kinds (state : State) (s : Text) : List Kind := Step.kinds ⟨.code, 0, state⟩ s

@[simp] theorem State.kinds_nil (state : State) : state.kinds [] = [] := rfl

theorem State.kinds_cons (state : State) (c : Char) (s : Text) :
    state.kinds (c :: s) =
      (state.read c s[0]? s[1]?).kind :: (state.read c s[0]? s[1]?).kinds s := rfl

@[simp] theorem Step.kinds_zero (kind : Kind) (state : State) (s : Text) :
    Step.kinds ⟨kind, 0, state⟩ s = state.kinds s := by
  cases s <;> rfl

@[simp] theorem Step.kinds_succ (kind : Kind) (more : Nat) (state : State) (c : Char) (s : Text) :
    Step.kinds ⟨kind, more + 1, state⟩ (c :: s) = kind :: Step.kinds ⟨kind, more, state⟩ s := rfl

theorem exists_eq_of_ahead {s : Text} {c d : Char} (next : s[0]? = some c) (second : s[1]? = some d) :
    ∃ rest, s = c :: d :: rest := by
  cases s with
  | nil => cases next
  | cons a s =>
    cases s with
    | nil => cases second
    | cons b s =>
      cases next
      cases second
      exact ⟨s, rfl⟩

/-- A literal that reaches the end of its line leaves the line break to the code. -/
theorem State.kinds_literal_newline {quote : Char} (other : '\n' ≠ quote) (s : Text) :
    (State.literal quote).kinds ('\n' :: s) = State.code.kinds ('\n' :: s) := by
  simp [kinds_cons, read, other, Text.isQuote]

theorem State.kinds_literal (quote : Char) (s : Text) :
    (State.literal quote).kinds s =
      List.replicate (lineLiteral quote s).1.length .literal ++
        State.code.kinds (lineLiteral quote s).2 := by
  fun_induction lineLiteral quote s with
  | case1 => rfl
  | case2 => simp [kinds_cons, read]
  | case3 c s ih => simp [kinds_cons, read, ih, List.replicate_succ]
  | case4 s single hidden =>
    have plain : quote ≠ '\\' := ne_backslash single hidden
    simp [kinds_cons, read, plain]
  | case5 s single hidden other => exact kinds_literal_newline other s
  | case6 c s single hidden other inLine ih =>
    have plain : c ≠ '\\' := ne_backslash single hidden
    simp [kinds_cons, read, plain, other, inLine, ih, List.replicate_succ]

theorem State.kinds_blockComment (s : Text) :
    State.blockComment.kinds s =
      List.replicate (Text.through ['*', '/'] s).1.length .comment ++
        State.code.kinds (Text.through ['*', '/'] s).2 := by
  fun_induction Text.through ['*', '/'] s with
  | case1 => rfl
  | case2 c s rest found =>
    obtain ⟨rfl, rfl⟩ : c = '*' ∧ s = '/' :: rest := by
      simpa using Text.after?_eq_some_iff.mp found
    simp [kinds_cons, read, List.replicate_succ]
  | case3 c s absent ih =>
    have stays : ¬ (c = '*' ∧ s[0]? = some '/') := by
      rintro ⟨rfl, slash⟩
      cases s with
      | nil => cases slash
      | cons d s => simp_all [Text.after?]
    simp [kinds_cons, read, stays, ih, List.replicate_succ]

theorem State.kinds_tripled (quote : Char) (s : Text) :
    (State.tripled quote).kinds s =
      List.replicate (Text.through [quote, quote, quote] s).1.length .literal ++
        State.code.kinds (Text.through [quote, quote, quote] s).2 := by
  fun_induction Text.through [quote, quote, quote] s with
  | case1 => rfl
  | case2 c s rest found =>
    obtain ⟨rfl, rfl⟩ : c = quote ∧ s = quote :: quote :: rest := by
      simpa using Text.after?_eq_some_iff.mp found
    simp [kinds_cons, read, List.replicate_succ]
  | case3 c s absent ih =>
    have stays : ¬ (c = quote ∧ s[0]? = some quote ∧ s[1]? = some quote) := by
      rintro ⟨rfl, second, third⟩
      obtain ⟨rest, rfl⟩ := exists_eq_of_ahead second third
      simp [Text.after?] at absent
    simp [kinds_cons, read, stays, ih, List.replicate_succ]

theorem State.kinds_lineComment (s : Text) :
    State.lineComment.kinds s =
      List.replicate (s.takeWhile (· != '\n')).length .comment ++
        State.code.kinds (s.dropWhile (· != '\n')) := by
  induction s with
  | nil => rfl
  | cons c s ih =>
    by_cases ends : c = '\n'
    · simp [ends, kinds_cons, read, Text.isQuote]
    · simp [ends, kinds_cons, read, ih, List.replicate_succ]

/-- The automaton gives the characters of the first token their kind and is back in code behind it. -/
theorem State.kinds_code_cons (c : Char) (s : Text) :
    State.code.kinds (c :: s) =
      List.replicate (nextToken c s).1.text.length (nextToken c s).1.kind ++
        State.code.kinds (nextToken c s).2 := by
  cases quote : Text.isQuote c with
  | true =>
    cases tripled : Text.after? [c, c] s with
    | some inner =>
      obtain rfl : s = c :: c :: inner := Text.after?_eq_some_iff.mp tripled
      simp [kinds_cons, read, quote, nextToken, tripled, kinds_tripled, List.replicate_succ]
    | none =>
      have single : ¬ (s[0]? = some c ∧ s[1]? = some c) := by
        rintro ⟨second, third⟩
        obtain ⟨rest, rfl⟩ := exists_eq_of_ahead second third
        simp [Text.after?] at tripled
      simp [kinds_cons, read, quote, single, nextToken, tripled, kinds_literal, List.replicate_succ]
  | false =>
    cases comment : opensComment c s with
    | true =>
      obtain ⟨rfl, ⟨line, rfl⟩ | ⟨inner, rfl⟩⟩ := opensComment_eq_true_iff.mp comment
      · simp [kinds_cons, read, quote, nextToken_slashes, kinds_lineComment, List.replicate_succ]
      · simp [kinds_cons, read, quote, nextToken_slash_star, kinds_blockComment, List.replicate_succ]
    | false =>
      have noLine : ¬ (c = '/' ∧ s[0]? = some '/') := by
        rintro ⟨rfl, second⟩
        simp [opensComment, List.head?_eq_getElem?, second] at comment
      have noBlock : ¬ (c = '/' ∧ s[0]? = some '*') := by
        rintro ⟨rfl, second⟩
        simp [opensComment, List.head?_eq_getElem?, second] at comment
      rw [nextToken_code quote comment]
      simp [kinds_cons, read, quote, noLine, noBlock]

theorem classify_cons (c : Char) (s : Text) :
    classify (c :: s) =
      List.replicate (nextToken c s).1.text.length (nextToken c s).1.kind ++
        classify (nextToken c s).2 := by
  rw [classify, mark_cons, List.map_append, Token.marks, List.map_map, ← List.map_const']
  rfl

/-- Every character of a script has one kind, and it is the one that the automaton gives to it. -/
theorem classify_eq_kinds (content : Text) :
    classify content = State.code.kinds content ∧ (classify content).length = content.length := by
  refine ⟨?_, length_classify content⟩
  induction content using tokens.induct with
  | case1 => rw [State.kinds_nil, classify, mark, tokens]; rfl
  | case2 c s ih => rw [classify_cons, State.kinds_code_cons, ih]

end GradlePublishing.Script
