import GradlePublishing.Proofs.Script.Literal
import GradlePublishing.Proofs.Script.Ordinary

/-!
Quoted pieces and literals. A reader ends a quoted piece at the first quote, and a literal goes on when a
backslash hides that quote. A piece is therefore the whole interior of a literal exactly if it does not end
escaped, nor does a quoted name in front of it (`interiorAt_iff_of_introduces`).
-/

namespace GradlePublishing.Script

theorem lineLiteral_append_ordinary {quote : Char} (quotes : Text.isQuote quote = true) {s : Text}
    (ordinary : ∀ c ∈ s, isOrdinary c = true) (rest : Text) :
    lineLiteral quote (s ++ rest) = (s ++ (lineLiteral quote rest).1, (lineLiteral quote rest).2) := by
  induction s with
  | nil => rfl
  | cons c s ih =>
    obtain ⟨first, more⟩ := List.forall_mem_cons.mp ordinary
    obtain ⟨-, -, -, visible, inLine⟩ := isOrdinary_eq_true_iff.mp first
    have other : c ≠ quote := by
      rintro rfl
      rw [isQuote_of_isOrdinary first] at quotes
      cases quotes
    rw [List.cons_append, lineLiteral_cons visible, if_neg other, if_neg inLine, ih more, List.cons_append]

/-- The text is the whole interior of the literal that starts at an index of the script. -/
def InteriorAt (content text : Text) (start : Nat) : Prop :=
  ∃ stop, LiteralAt content start stop ∧ (content.take (stop - 1)).drop (start + 1) = text

theorem InteriorAt.exists_token {content text : Text} {start : Nat} (interior : InteriorAt content text start) :
    ∃ token ∈ tokens content, token.kind = .literal ∧ token.text.dropLast.tail = text := by
  obtain ⟨stop, ⟨before, token, after, cut, literal, rfl, rfl⟩, rfl⟩ := interior
  refine ⟨token, by rw [cut]; simp, literal, ?_⟩
  have parts : content = before.flatMap Token.text ++ (token.text ++ after.flatMap Token.text) := by
    rw [← List.flatMap_cons, ← List.flatMap_append, ← cut, tokens_flatMap_text]
  obtain ⟨c, s, -, rfl, -⟩ := exists_of_tokens_eq_cons (tokens_drop cut)
  have nonempty := List.length_pos_iff.mpr (nextToken_text_ne_nil c s)
  rw [Nat.add_sub_assoc nonempty]
  conv =>
    rhs
    rw [parts, List.take_length_add_append, ← List.drop_drop, List.drop_left,
      List.take_append_of_le_length (Nat.sub_le _ 1), ← List.dropLast_eq_take, List.drop_one]

section

variable {content piece rest : Text} {index : Nat}

/-- A quoted piece at a boundary is the whole interior of a literal, unless a backslash hides the closing quote
and the line goes on behind it. -/
theorem IsBoundary.interiorAt_iff (boundary : IsBoundary content index)
    (starts : StartsQuoted (content.drop index) piece rest) :
    InteriorAt content piece index ↔ (EndsEscaped piece → rest.head?.all (· == '\n') = true) := by
  obtain ⟨quote, quotes, nonempty, unquoted, single, here⟩ := starts
  have token : (nextToken quote (piece ++ quote :: rest)).1.text =
      quote :: (lineLiteral quote (piece ++ quote :: rest)).1 := by
    rw [nextToken_quoted quotes nonempty unquoted]
  have behind : content.drop (index + 1) = piece ++ quote :: rest := by
    rw [← List.drop_drop, here, List.drop_one, List.tail_cons]
  have interior : InteriorAt content piece index ↔
      (piece ++ quote :: rest).take ((lineLiteral quote (piece ++ quote :: rest)).1.length - 1) = piece := by
    unfold InteriorAt
    simp only [boundary.literalAt_iff here quotes, exists_eq_left', token, List.length_cons, List.drop_take,
      behind]
    have same : index + ((lineLiteral quote (piece ++ quote :: rest)).1.length + 1) - 1 - (index + 1) =
        (lineLiteral quote (piece ++ quote :: rest)).1.length - 1 := by omega
    rw [same]
  rw [interior, lineLiteral_append_quote quotes single unquoted]
  split
  · next escaped =>
    have length : (piece ++ quote :: (lineLiteral quote rest).1).length - 1 =
        piece.length + (lineLiteral quote rest).1.length := by
      rw [List.length_append, List.length_cons]
      omega
    rw [length, List.take_length_add_append, List.append_right_eq_self, List.take_eq_nil_iff,
      ← fst_lineLiteral_eq_nil_iff quotes, List.length_eq_zero_iff]
    simp [escaped]
  · next visible =>
    simp [visible]

/-- A boundary does not lie inside the token that starts at an earlier one. -/
theorem IsBoundary.next_le {later : Nat} (boundary : IsBoundary content index)
    (last : IsBoundary content later) (ahead : index < later) {c : Char} {s : Text}
    (here : content.drop index = c :: s) : index + (nextToken c s).1.text.length ≤ later := by
  obtain ⟨before, after, cut, rfl⟩ := boundary
  obtain ⟨more, behind, cut', rfl⟩ := last
  have first := tokens_drop cut
  rw [here, tokens] at first
  rcases List.append_eq_append_iff.mp (cut.symm.trans cut') with ⟨between, rfl, parts⟩ | ⟨between, rfl, -⟩
  · rw [List.flatMap_append, List.length_append] at ahead ⊢
    cases between with
    | nil => simp at ahead
    | cons token between =>
      rw [← first, List.cons_append] at parts
      rw [(List.cons.inj parts).1, List.flatMap_cons, List.length_append]
      omega
  · rw [List.flatMap_append, List.length_append] at ahead
    omega

section Name

variable {name : Text} {quote : Char} (boundary : IsBoundary content index)
  (quotes : Text.isQuote quote = true) (nonempty : name ≠ []) (unquoted : quote ∉ name)
  (single : '\n' ∉ name) (here : content.drop index = quote :: (name ++ quote :: rest))

include boundary quotes nonempty unquoted single here

theorem IsBoundary.behind_quoted (visible : ¬ EndsEscaped name) :
    IsBoundary content (index + (quote :: (name ++ [quote])).length) := by
  have closed := boundary.next here
  rwa [nextToken_quoted quotes nonempty unquoted, lineLiteral_append_quote quotes single unquoted,
    if_neg visible] at closed

/-- Behind a quote that a backslash hides, the script is not cut before the literal ends. -/
theorem IsBoundary.past_quoted (escaped : EndsEscaped name) {later : Nat} (last : IsBoundary content later)
    (ahead : index < later) :
    index + (quote :: (name ++ [quote])).length + (lineLiteral quote rest).1.length ≤ later := by
  have passed := boundary.next_le last ahead here
  rw [nextToken_quoted quotes nonempty unquoted, lineLiteral_append_quote quotes single unquoted,
    if_pos escaped] at passed
  simp only [List.length_append, List.length_cons, List.length_nil] at passed ⊢
  omega

end Name

/-- What stands in front of a value: ordinary characters with the name of the value, which may be in quotes. -/
inductive Introduces (name : Text) : Text → Prop
  | bare (front behind : Text) (ordinary : ∀ c ∈ front ++ (name ++ behind), isOrdinary c = true) :
    Introduces name (front ++ (name ++ behind))
  | quoted (front behind : Text) {quote : Char} (quotes : Text.isQuote quote = true) (nonempty : name ≠ [])
    (unquoted : quote ∉ name) (single : '\n' ∉ name)
    (ordinary : ∀ c ∈ front ++ behind, isOrdinary c = true) :
    Introduces name (front ++ quote :: (name ++ quote :: behind))

/-- A value behind a lead that starts in the code is the whole interior of a literal, unless the name in the
lead or the value itself hides its closing quote. -/
theorem interiorAt_iff_of_introduces {c : Char} (code : (mark content)[index]? = some (c, .code))
    {name lead tail : Text} (introduces : Introduces name lead) (here : content.drop index = lead ++ tail)
    (starts : StartsQuoted tail piece rest) :
    InteriorAt content piece (index + lead.length) ↔
      ¬ EndsEscaped name ∧ (EndsEscaped piece → rest.head?.all (· == '\n') = true) := by
  have plain {s : Text} (ordinary : ∀ c ∈ s, isOrdinary c = true) : ∀ c ∈ s, isPlain c = true :=
    fun c member => (isOrdinary_eq_true_iff.mp (ordinary c member)).1
  have behind : content.drop (index + lead.length) = tail := by
    rw [← List.drop_drop, here, List.drop_left]
  have boundary := isBoundary_of_code code
  cases introduces with
  | bare front after ordinary =>
    have visible : ¬ EndsEscaped name := not_endsEscaped_of_notMem fun member =>
      absurd (ordinary '\\' (by simp [member])) (by decide)
    rw [(boundary.plain here (plain ordinary)).interiorAt_iff (behind ▸ starts)]
    exact (and_iff_right visible).symm
  | @quoted front after quote quotes nonempty unquoted single ordinary =>
    obtain ⟨first, later⟩ := List.forall_mem_append.mp ordinary
    have parts : content.drop index = front ++ quote :: (name ++ quote :: (after ++ tail)) := by
      rw [here]
      simp
    have opens := boundary.plain parts (plain first)
    have opened : content.drop (index + front.length) = quote :: (name ++ quote :: (after ++ tail)) := by
      rw [← List.drop_drop, parts, List.drop_left]
    have length : index + (front ++ quote :: (name ++ quote :: after)).length =
        index + front.length + (quote :: (name ++ [quote])).length + after.length := by
      simp only [List.length_append, List.length_cons, List.length_nil]
      omega
    by_cases escaped : EndsEscaped name
    · -- The literal of the name goes on past the quote of the value, or the line would end in front of it.
      refine iff_of_false ?_ fun both => both.1 escaped
      rintro ⟨stop, literal, -⟩
      have ahead : index + front.length < index + (front ++ quote :: (name ++ quote :: after)).length := by
        simp
      have passed := opens.past_quoted quotes nonempty unquoted single opened escaped literal.isBoundary ahead
      rw [length, lineLiteral_append_ordinary quotes later, List.length_append] at passed
      have nothing : (lineLiteral quote tail).1 = [] := List.length_eq_zero_iff.mp (by omega)
      obtain ⟨other, quotes', -, -, -, text⟩ := starts
      rw [fst_lineLiteral_eq_nil_iff quotes, text] at nothing
      obtain rfl : other = '\n' := by simpa using nothing
      cases quotes'
    · have closed := opens.behind_quoted quotes nonempty unquoted single opened escaped
      have between : content.drop (index + front.length + (quote :: (name ++ [quote])).length) =
          after ++ tail := by
        rw [← List.drop_drop, opened]
        simp
      have reached := closed.plain between (plain later)
      rw [← length] at reached
      rw [reached.interiorAt_iff (behind ▸ starts)]
      exact (and_iff_right escaped).symm

/-- A text starts with a value in quotes behind a lead with its name, and goes on with `rest`. -/
def StartsValue (s name value rest : Text) : Prop :=
  ∃ lead tail, Introduces name lead ∧ s = lead ++ tail ∧ StartsQuoted tail value rest

theorem StartsQuoted.append {s value rest : Text} (starts : StartsQuoted s value rest) (behind : Text) :
    StartsQuoted (s ++ behind) value (rest ++ behind) := by
  obtain ⟨quote, quotes, nonempty, unquoted, single, rfl⟩ := starts
  exact ⟨quote, quotes, nonempty, unquoted, single, by simp⟩

namespace StartsValue

variable {s more name value rest : Text}

theorem append (starts : StartsValue s name value rest) (behind : Text) :
    StartsValue (s ++ behind) name value (rest ++ behind) := by
  obtain ⟨lead, tail, introduces, rfl, quoted⟩ := starts
  exact ⟨lead, tail ++ behind, introduces, List.append_assoc _ _ _, quoted.append behind⟩

theorem of_quoted (ahead : GoesOnWith s more) (starts : StartsQuoted more value rest) :
    StartsValue s [] value rest := by
  obtain ⟨lead, ordinary, rfl⟩ := ahead
  have introduces : Introduces [] (lead ++ ([] ++ [])) := .bare lead [] (by simpa using ordinary)
  exact ⟨lead, more, by simpa using introduces, rfl, starts⟩

theorem of_goesOnWith (ahead : GoesOnWith s more) (starts : StartsValue more name value rest) :
    StartsValue s name value rest := by
  obtain ⟨front, ordinary, rfl⟩ := ahead
  obtain ⟨lead, tail, introduces, rfl, quoted⟩ := starts
  refine ⟨front ++ lead, tail, ?_, (List.append_assoc _ _ _).symm, quoted⟩
  cases introduces with
  | bare first behind more =>
    rw [← List.append_assoc]
    exact .bare (front ++ first) behind
      (by rw [List.append_assoc]; exact List.forall_mem_append.mpr ⟨ordinary, more⟩)
  | quoted first behind quotes nonempty unquoted single more =>
    rw [← List.append_assoc]
    exact .quoted (front ++ first) behind quotes nonempty unquoted single
      (by rw [List.append_assoc]; exact List.forall_mem_append.mpr ⟨ordinary, more⟩)

end StartsValue

end

end GradlePublishing.Script
