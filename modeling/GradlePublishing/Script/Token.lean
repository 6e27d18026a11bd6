import GradlePublishing.Text.Basic

/-!
The lexical structure of a build script that both of its dialects share: string literals, comments
and everything else, which is code. A script is cut into tokens whose texts join to the script
(`tokens_flatMap_text`), and every character takes the kind of its token.
-/

namespace GradlePublishing.Script

inductive Kind
  | code
  | literal
  | comment
  deriving DecidableEq, Repr

/-- A string literal, a comment, or a single character of code. -/
structure Token where
  kind : Kind
  text : Text
  deriving DecidableEq, Repr

/-- The characters that can stand next to a keyword. -/
def isDelimiter (c : Char) : Bool :=
  c ∈ ['{', '}', '(', ')', ';', ',', ' ', '\t', '\n', '\r']

/-- The characters that separate a keyword from its opening brace. -/
def isSpace (c : Char) : Bool := c ∈ [' ', '\t', '\n', '\r']

/-- The rest of a literal on one line after its opening quote, and what follows it. A backslash
hides the next character; a literal without a closing quote ends before the line break. -/
def lineLiteral (quote : Char) : Text → Text × Text
  | [] => ([], [])
  | ['\\'] => (['\\'], [])
  | '\\' :: c :: s => ('\\' :: c :: (lineLiteral quote s).1, (lineLiteral quote s).2)
  | c :: s =>
    if c = quote then ([c], s)
    else if c = '\n' then ([], c :: s)
    else (c :: (lineLiteral quote s).1, (lineLiteral quote s).2)

/-- The token that starts with `c`, and what follows it. Tripled quotes open a literal that may
span lines and knows no escapes. -/
def nextToken (c : Char) (s : Text) : Token × Text :=
  if Text.isQuote c then
    match Text.after? [c, c] s with
    | some inner =>
      (⟨.literal, c :: c :: c :: (Text.through [c, c, c] inner).1⟩,
        (Text.through [c, c, c] inner).2)
    | none => (⟨.literal, c :: (lineLiteral c s).1⟩, (lineLiteral c s).2)
  else
    match c, s with
    | '/', '/' :: line =>
      (⟨.comment, '/' :: '/' :: line.takeWhile (· != '\n')⟩, line.dropWhile (· != '\n'))
    | '/', '*' :: inner =>
      (⟨.comment, '/' :: '*' :: (Text.through ['*', '/'] inner).1⟩,
        (Text.through ['*', '/'] inner).2)
    | _, _ => (⟨.code, [c]⟩, s)

theorem lineLiteral_append (quote : Char) (s : Text) :
    (lineLiteral quote s).1 ++ (lineLiteral quote s).2 = s := by
  fun_induction lineLiteral quote s <;> simp_all

theorem nextToken_append (c : Char) (s : Text) :
    (nextToken c s).1.text ++ (nextToken c s).2 = c :: s := by
  unfold nextToken
  split
  · split
    · rename_i inner found
      have := Text.after?_eq_some_iff.mp found
      simp [Text.through_append, this]
    · simp [lineLiteral_append]
  · split <;> simp [Text.through_append, List.takeWhile_append_dropWhile]

theorem nextToken_text_ne_nil (c : Char) (s : Text) : (nextToken c s).1.text ≠ [] := by
  unfold nextToken
  split <;> split <;> simp

theorem length_nextToken (c : Char) (s : Text) : (nextToken c s).2.length ≤ s.length := by
  have whole := congrArg List.length (nextToken_append c s)
  have nonempty := List.length_pos_iff.mpr (nextToken_text_ne_nil c s)
  simp only [List.length_append, List.length_cons] at whole
  omega

def tokens : Text → List Token
  | [] => []
  | c :: s => (nextToken c s).1 :: tokens (nextToken c s).2
termination_by s => s.length
decreasing_by
  have := length_nextToken c s
  simp only [List.length_cons]
  omega

theorem tokens_flatMap_text (content : Text) : (tokens content).flatMap Token.text = content := by
  fun_induction tokens content with
  | case1 => rfl
  | case2 c s ih => simp [ih, nextToken_append]

abbrev Marked := List (Char × Kind)

def mark (content : Text) : Marked :=
  (tokens content).flatMap fun token => token.text.map fun c => (c, token.kind)

def classify (content : Text) : List Kind := (mark content).map (·.2)

theorem map_fst_mark (content : Text) : (mark content).map (·.1) = content := by
  have texts : (mark content).map (·.1) = (tokens content).flatMap Token.text := by
    simp [mark, List.map_flatMap, Function.comp_def]
  rw [texts, tokens_flatMap_text]

theorem length_classify (content : Text) : (classify content).length = content.length := by
  have same := congrArg List.length (map_fst_mark content)
  simpa [classify] using same

end GradlePublishing.Script
