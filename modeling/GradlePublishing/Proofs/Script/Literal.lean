import GradlePublishing.Proofs.Script.WholeLine

/-!
Where the literals of a script lie. A literal is one token, told by the indices of its ends (`LiteralAt`).
From a boundary between two tokens on, the script is cut as if it started there, so the literal at an index
can be read off without what is in front of it (`IsBoundary.literalAt_iff`).
-/

namespace GradlePublishing.Script

/-- The script is cut into tokens at the index. -/
def IsBoundary (content : Text) (index : Nat) : Prop :=
  ∃ before after, tokens content = before ++ after ∧ (before.flatMap Token.text).length = index

/-- One literal of a script covers the characters from `start` on and before `stop`. -/
def LiteralAt (content : Text) (start stop : Nat) : Prop :=
  ∃ before token after, tokens content = before ++ token :: after ∧ token.kind = .literal ∧
    (before.flatMap Token.text).length = start ∧ start + token.text.length = stop

theorem exists_of_tokens_eq_cons {s : Text} {token : Token} {after : List Token}
    (cut : tokens s = token :: after) :
    ∃ c more, s = c :: more ∧ token = (nextToken c more).1 ∧ after = tokens (nextToken c more).2 := by
  cases s with
  | nil =>
    rw [tokens] at cut
    cases cut
  | cons c more =>
    rw [tokens] at cut
    obtain ⟨first, rest⟩ := List.cons.inj cut
    exact ⟨c, more, rfl, first.symm, rest.symm⟩

theorem tokens_flatMap_of_append {content : Text} {before after : List Token}
    (cut : tokens content = before ++ after) : tokens (after.flatMap Token.text) = after := by
  induction before generalizing content with
  | nil =>
    rw [List.nil_append] at cut
    rw [← cut, tokens_flatMap_text]
  | cons token before ih =>
    obtain ⟨c, more, -, -, rest⟩ := exists_of_tokens_eq_cons cut
    exact ih rest.symm

theorem tokens_drop {content : Text} {before after : List Token} (cut : tokens content = before ++ after) :
    tokens (content.drop (before.flatMap Token.text).length) = after := by
  have text : content = before.flatMap Token.text ++ after.flatMap Token.text := by
    rw [← List.flatMap_append, ← cut, tokens_flatMap_text]
  conv => lhs; rw [text, List.drop_left]
  exact tokens_flatMap_of_append cut

section

variable {content : Text} {index : Nat}

theorem IsBoundary.next (boundary : IsBoundary content index) {c : Char} {s : Text}
    (here : content.drop index = c :: s) :
    IsBoundary content (index + (nextToken c s).1.text.length) := by
  obtain ⟨before, after, cut, rfl⟩ := boundary
  have behind := tokens_drop cut
  rw [here, tokens] at behind
  refine ⟨before ++ [(nextToken c s).1], tokens (nextToken c s).2, ?_, ?_⟩
  · rw [cut, ← behind, List.append_assoc, List.singleton_append]
  · rw [List.flatMap_append, List.length_append, List.flatMap_singleton]

/-- A boundary behind which a text stands that is code wherever it stands. -/
theorem IsBoundary.plain {lead rest : Text} (boundary : IsBoundary content index)
    (here : content.drop index = lead ++ rest)
    (plain : ∀ c ∈ lead, isPlain c = true) : IsBoundary content (index + lead.length) := by
  induction lead generalizing index with
  | nil => exact boundary
  | cons c lead ih =>
    obtain ⟨first, more⟩ := List.forall_mem_cons.mp plain
    obtain ⟨quote, slash⟩ : Text.isQuote c = false ∧ c ≠ '/' := by simpa [isPlain] using first
    have code : nextToken c (lead ++ rest) = (⟨.code, [c]⟩, lead ++ rest) :=
      nextToken_code quote (by simp [opensComment, slash])
    have behind : IsBoundary content (index + (nextToken c (lead ++ rest)).1.text.length) :=
      boundary.next here
    rw [code] at behind
    have later : content.drop (index + 1) = lead ++ rest := by
      rw [← List.drop_drop, here, List.cons_append, List.drop_one, List.tail_cons]
    rw [List.length_cons, Nat.add_comm lead.length, ← Nat.add_assoc]
    exact ih behind later more

theorem kind_of_isQuote {quote : Char} (quotes : Text.isQuote quote = true) (s : Text) :
    (nextToken quote s).1.kind = .literal := by
  unfold nextToken
  rw [if_pos quotes]
  split <;> rfl

theorem isQuote_of_kind_literal {c : Char} {s : Text} (literal : (nextToken c s).1.kind = .literal) :
    Text.isQuote c = true := by
  unfold nextToken at literal
  split at literal
  · assumption
  · split at literal <;> cases literal

theorem IsBoundary.literalAt_iff (boundary : IsBoundary content index) {quote : Char} {s : Text}
    (here : content.drop index = quote :: s) (quotes : Text.isQuote quote = true) {stop : Nat} :
    LiteralAt content index stop ↔ index + (nextToken quote s).1.text.length = stop := by
  constructor
  · rintro ⟨before, token, after, cut, -, rfl, rfl⟩
    have behind := tokens_drop cut
    rw [here, tokens] at behind
    rw [(List.cons.inj behind).1]
  · rintro rfl
    obtain ⟨before, after, cut, rfl⟩ := boundary
    have behind := tokens_drop cut
    rw [here, tokens] at behind
    exact ⟨before, _, _, by rw [cut, ← behind], kind_of_isQuote quotes s, rfl, rfl⟩

theorem exists_token_of_getElem? {x : Char × Kind} (here : (mark content)[index]? = some x) :
    ∃ before token after, tokens content = before ++ token :: after ∧ token.kind = x.2 ∧
      (before.flatMap Token.text).length ≤ index ∧
      index < (before.flatMap Token.text).length + token.text.length := by
  rw [mark] at here
  generalize tokens content = pieces at here ⊢
  induction pieces generalizing index with
  | nil => cases here
  | cons token pieces ih =>
    rw [List.flatMap_cons] at here
    by_cases inside : index < token.text.length
    · rw [List.getElem?_append_left (by simpa using inside), List.getElem?_map] at here
      obtain ⟨c, -, rfl⟩ := Option.map_eq_some_iff.mp here
      exact ⟨[], token, pieces, rfl, rfl, Nat.zero_le _, by simpa using inside⟩
    · rw [List.getElem?_append_right (by simpa using inside), List.length_map] at here
      obtain ⟨before, later, after, rfl, kind, first, last⟩ := ih here
      refine ⟨token :: before, later, after, rfl, kind, ?_, ?_⟩
      all_goals
        rw [List.flatMap_cons, List.length_append]
        omega

theorem exists_literalAt {c : Char} (here : (mark content)[index]? = some (c, .literal)) :
    ∃ start stop, LiteralAt content start stop ∧ start ≤ index ∧ index < stop := by
  obtain ⟨before, token, after, cut, kind, first, last⟩ := exists_token_of_getElem? here
  exact ⟨_, _, ⟨before, token, after, cut, kind, rfl, rfl⟩, first, last⟩

/-- The script is cut in front of every character of code. -/
theorem isBoundary_of_code {c : Char} (here : (mark content)[index]? = some (c, .code)) :
    IsBoundary content index := by
  obtain ⟨before, token, after, cut, kind, first, last⟩ := exists_token_of_getElem? here
  obtain ⟨d, more, -, rfl, -⟩ := exists_of_tokens_eq_cons (tokens_drop cut)
  rw [nextToken_of_kind_code kind] at last
  refine ⟨before, _, cut, ?_⟩
  simp only [List.length_singleton] at last
  omega

theorem LiteralAt.isBoundary {start stop : Nat} (literal : LiteralAt content start stop) :
    IsBoundary content start := by
  obtain ⟨before, token, after, cut, -, place, -⟩ := literal
  exact ⟨before, token :: after, cut, place⟩

theorem LiteralAt.getElem?_mark {start stop : Nat} (literal : LiteralAt content start stop)
    (first : start ≤ index) (last : index < stop) :
    ∃ c, (mark content)[index]? = some (c, .literal) := by
  obtain ⟨before, token, after, cut, kind, rfl, rfl⟩ := literal
  obtain ⟨offset, rfl⟩ := Nat.exists_eq_add_of_le first
  have inside : offset < token.text.length := Nat.lt_of_add_lt_add_left last
  have marks : mark content =
      before.flatMap Token.marks ++ (token.marks ++ after.flatMap Token.marks) := by
    rw [mark, cut, List.flatMap_append, List.flatMap_cons]
    rfl
  have ahead : (before.flatMap Token.marks).length = (before.flatMap Token.text).length := by
    simp [List.length_flatMap, Token.marks]
  refine ⟨token.text[offset], ?_⟩
  rw [marks, List.getElem?_append_right (by omega), ahead, Nat.add_sub_cancel_left,
    List.getElem?_append_left (by simpa [Token.marks] using inside), Token.marks, List.getElem?_map,
    List.getElem?_eq_getElem inside, kind, Option.map_some]

theorem LiteralAt.exists_quote {start stop : Nat} (literal : LiteralAt content start stop) :
    ∃ quote, Text.isQuote quote = true ∧ (mark content)[start]? = some (quote, .literal) ∧ start < stop := by
  obtain ⟨before, token, after, cut, kind, place, length⟩ := id literal
  obtain ⟨quote, s, here, rfl, -⟩ := exists_of_tokens_eq_cons (tokens_drop cut)
  have longer : start < stop := by
    have nonempty := List.length_pos_iff.mpr (nextToken_text_ne_nil quote s)
    omega
  obtain ⟨c, marked⟩ := literal.getElem?_mark (Nat.le_refl start) longer
  have char : content[start]? = some quote := by
    rw [← Nat.add_zero start, ← List.getElem?_drop, ← place, here]
    rfl
  rw [← map_fst_mark content, List.getElem?_map, marked, Option.map_some] at char
  cases char
  exact ⟨_, isQuote_of_kind_literal kind, marked, longer⟩

end

/-- A literal on one line is closed by its quote, or the line ends. -/
theorem lineLiteral_closes (quote : Char) (s : Text) :
    quote ∈ (lineLiteral quote s).1 ∨ (lineLiteral quote s).2 = [] ∨
      ∃ rest, (lineLiteral quote s).2 = '\n' :: rest := by
  fun_induction lineLiteral quote s with
  | case1 => exact .inr (.inl rfl)
  | case2 => exact .inr (.inl rfl)
  | case3 c s ih => exact ih.imp_left fun closed => List.mem_cons_of_mem _ (List.mem_cons_of_mem _ closed)
  | case4 s => exact .inl List.mem_cons_self
  | case5 s => exact .inr (.inr ⟨s, rfl⟩)
  | case6 c s single hidden open' inLine ih => exact ih.imp_left (List.mem_cons_of_mem c)

/-- A literal is closed by the quote that it starts with, unless the line or the script ends before. -/
theorem nextToken_closes {quote : Char} (quotes : Text.isQuote quote = true) (s : Text) :
    ∃ more, (nextToken quote s).1.text = quote :: more ∧
      (quote ∈ more ∨ (nextToken quote s).2 = [] ∨ ∃ rest, (nextToken quote s).2 = '\n' :: rest) := by
  unfold nextToken
  rw [if_pos quotes]
  split
  · exact ⟨_, rfl, .inl List.mem_cons_self⟩
  · exact ⟨_, rfl, lineLiteral_closes quote s⟩

end GradlePublishing.Script
