import GradlePublishing.Script.Token

/-!
Token boundaries. A token never looks past the place where it ends, so a script may be cut between
two tokens and each side read on its own. A character of code is a token by itself, which makes
every such character a place to cut (`mark_around_code`).
-/

namespace GradlePublishing

namespace Text

theorem after?_append {lead s rest : Text} (found : after? lead s = some rest) (t : Text) :
    after? lead (s ++ t) = some (rest ++ t) := by
  rw [after?_eq_some_iff] at found ⊢
  rw [found, List.append_assoc]

theorem after?_of_append {lead s rest t : Text} (found : after? lead (s ++ t) = some (rest ++ t)) :
    after? lead s = some rest := by
  rw [after?_eq_some_iff] at found ⊢
  rw [← List.append_assoc] at found
  exact List.append_cancel_right found

theorem eq_nil_of_append_eq {front rest t : Text} (whole : front ++ (rest ++ t) = t) :
    front = [] ∧ rest = [] := by
  have lengths := congrArg List.length whole
  simp only [List.length_append] at lengths
  exact ⟨List.length_eq_zero_iff.mp (by omega), List.length_eq_zero_iff.mp (by omega)⟩

theorem through_of_append {stop s rest t : Text} (left : (through stop (s ++ t)).2 = rest ++ t) :
    through stop s = ((through stop (s ++ t)).1, rest) := by
  induction s with
  | nil =>
    have whole := through_append stop t
    rw [List.nil_append] at left ⊢
    rw [left] at whole
    obtain ⟨taken, nothing⟩ := eq_nil_of_append_eq whole
    rw [taken, nothing, through]
  | cons c s ih =>
    cases found : after? stop (c :: s ++ t) with
    | some behind =>
      have found' : after? stop (c :: (s ++ t)) = some behind := found
      simp only [List.cons_append, through, found'] at left ⊢
      rw [left] at found
      rw [after?_of_append found]
    | none =>
      have found' : after? stop (c :: (s ++ t)) = none := found
      have absent : after? stop (c :: s) = none := by
        cases here : after? stop (c :: s) with
        | none => rfl
        | some behind =>
          rw [after?_append here] at found
          cases found
      simp only [List.cons_append, through, found', absent] at left ⊢
      rw [ih left]

theorem dropWhile_of_append {p : Char → Bool} {s rest t : Text}
    (left : (s ++ t).dropWhile p = rest ++ t) :
    s.dropWhile p = rest ∧ s.takeWhile p = (s ++ t).takeWhile p := by
  induction s with
  | nil =>
    have whole := List.takeWhile_append_dropWhile (p := p) (l := t)
    rw [List.nil_append] at left ⊢
    rw [left] at whole
    obtain ⟨taken, nothing⟩ := eq_nil_of_append_eq whole
    exact ⟨nothing.symm, taken.symm⟩
  | cons c s ih =>
    by_cases kept : p c
    · simp only [List.cons_append, List.dropWhile_cons, List.takeWhile_cons, kept, ↓reduceIte]
        at left ⊢
      exact ⟨(ih left).1, by rw [(ih left).2]⟩
    · simp only [List.cons_append, List.dropWhile_cons, List.takeWhile_cons, kept,
        Bool.false_eq_true, ↓reduceIte, and_true] at left ⊢
      exact List.append_cancel_right left

end Text

namespace Script

theorem lineLiteral_cons {quote c : Char} {s : Text} (plain : c ≠ '\\') :
    lineLiteral quote (c :: s) =
      if c = quote then ([c], s)
      else if c = '\n' then ([], c :: s)
      else (c :: (lineLiteral quote s).1, (lineLiteral quote s).2) := by
  rw [lineLiteral]
  · intro same
    exact absurd same plain
  · intro d more same
    exact absurd same plain

theorem ne_backslash {c : Char} {s : Text} (single : c = '\\' → s = [] → False)
    (hidden : ∀ (d : Char) (more : Text), c = '\\' → s = d :: more → False) : c ≠ '\\' := by
  intro same
  cases s with
  | nil => exact single same rfl
  | cons d more => exact hidden d more same rfl

theorem lineLiteral_of_append {quote : Char} {s rest t : Text}
    (left : (lineLiteral quote (s ++ t)).2 = rest ++ t) :
    lineLiteral quote s = ((lineLiteral quote (s ++ t)).1, rest) := by
  fun_induction lineLiteral quote s with
  | case1 =>
    have whole := lineLiteral_append quote t
    rw [List.nil_append] at left ⊢
    rw [left] at whole
    obtain ⟨taken, nothing⟩ := Text.eq_nil_of_append_eq whole
    rw [taken, nothing]
  | case2 =>
    cases t with
    | nil => simpa [lineLiteral] using left.symm
    | cons c t =>
      -- The backslash would hide the first character behind the cut.
      have whole := congrArg List.length (lineLiteral_append quote t)
      have lengths := congrArg List.length left
      simp only [List.cons_append, List.nil_append, lineLiteral, List.length_append,
        List.length_cons] at whole lengths
      omega
  | case3 c s ih =>
    simp only [List.cons_append, lineLiteral] at left ⊢
    rw [ih left]
  | case4 s single hidden =>
    have plain : quote ≠ '\\' := ne_backslash single hidden
    rw [List.cons_append, lineLiteral_cons plain, if_pos rfl] at left ⊢
    rw [List.append_cancel_right left]
  | case5 s single hidden open' =>
    have plain : '\n' ≠ '\\' := by decide
    rw [List.cons_append, lineLiteral_cons plain, if_neg open', if_pos rfl] at left ⊢
    have kept : '\n' :: s = rest := List.append_cancel_right left
    rw [kept]
  | case6 c s single hidden open' inLine ih =>
    have plain : c ≠ '\\' := ne_backslash single hidden
    rw [List.cons_append, lineLiteral_cons plain, if_neg open', if_neg inLine] at left ⊢
    rw [ih left]

theorem nextToken_slashes (s : Text) :
    nextToken '/' ('/' :: s) =
      (⟨.comment, '/' :: '/' :: s.takeWhile (· != '\n')⟩, s.dropWhile (· != '\n')) := rfl

theorem nextToken_slash_star (s : Text) :
    nextToken '/' ('*' :: s) =
      (⟨.comment, '/' :: '*' :: (Text.through ['*', '/'] s).1⟩,
        (Text.through ['*', '/'] s).2) := rfl

def opensComment (c : Char) (s : Text) : Bool :=
  c == '/' && (s.head? == some '/' || s.head? == some '*')

theorem opensComment_eq_true_iff {c : Char} {s : Text} :
    opensComment c s = true ↔ c = '/' ∧ ((∃ line, s = '/' :: line) ∨ ∃ inner, s = '*' :: inner) := by
  cases s <;> simp [opensComment]

theorem nextToken_code {c : Char} {s : Text} (quote : Text.isQuote c = false)
    (comment : opensComment c s = false) : nextToken c s = (⟨.code, [c]⟩, s) := by
  simp only [nextToken, quote, Bool.false_eq_true, ↓reduceIte]
  split
  · simp [opensComment] at comment
  · simp [opensComment] at comment
  · rfl

theorem nextToken_of_append {c : Char} {s rest t : Text}
    (left : (nextToken c (s ++ t)).2 = rest ++ t) :
    nextToken c s = ((nextToken c (s ++ t)).1, rest) := by
  have whole : (nextToken c (s ++ t)).1.text ++ rest = c :: s := by
    have all := nextToken_append c (s ++ t)
    rw [left, ← List.append_assoc, ← List.cons_append] at all
    exact List.append_cancel_right all
  cases quote : Text.isQuote c with
  | true =>
    cases tripled : Text.after? [c, c] (s ++ t) with
    | some inner =>
      simp only [nextToken, quote, ↓reduceIte, tripled] at left whole ⊢
      obtain rfl : c :: c :: ((Text.through [c, c, c] inner).1 ++ rest) = s := (List.cons.inj whole).2
      have cut : inner = (Text.through [c, c, c] inner).1 ++ rest ++ t := by
        rw [List.append_assoc, ← left, Text.through_append]
      have here : Text.after? [c, c] (c :: c :: ((Text.through [c, c, c] inner).1 ++ rest)) =
          some ((Text.through [c, c, c] inner).1 ++ rest) := Text.after?_eq_some_iff.mpr rfl
      rw [cut] at left
      have short := Text.through_of_append left
      rw [← cut] at short
      simp only [here, short]
    | none =>
      have single : Text.after? [c, c] s = none := by
        cases here : Text.after? [c, c] s with
        | none => rfl
        | some inner =>
          rw [Text.after?_append here] at tripled
          cases tripled
      simp only [nextToken, quote, ↓reduceIte, tripled, single] at left ⊢
      rw [lineLiteral_of_append left]
  | false =>
    cases comment : opensComment c (s ++ t) with
    | true =>
      obtain ⟨rfl, ⟨line, opened⟩ | ⟨inner, opened⟩⟩ := opensComment_eq_true_iff.mp comment
      · obtain ⟨line, rfl⟩ : ∃ line, s = '/' :: line := by
          rw [opened, nextToken_slashes] at whole
          exact ⟨_, (List.cons.inj whole).2.symm⟩
        rw [List.cons_append, nextToken_slashes] at left ⊢
        obtain ⟨behind, before⟩ := Text.dropWhile_of_append left
        rw [nextToken_slashes, behind, before]
      · obtain ⟨inner, rfl⟩ : ∃ inner, s = '*' :: inner := by
          rw [opened, nextToken_slash_star] at whole
          exact ⟨_, (List.cons.inj whole).2.symm⟩
        rw [List.cons_append, nextToken_slash_star] at left ⊢
        rw [nextToken_slash_star, Text.through_of_append left]
    | false =>
      have none : opensComment c s = false := by
        cases s with
        | nil => simp [opensComment]
        | cons d s => exact comment
      rw [nextToken_code quote comment] at left ⊢
      rw [nextToken_code quote none, List.append_cancel_right left]

theorem nextToken_head (c : Char) (s : Text) : ∃ more, (nextToken c s).1.text = c :: more := by
  have whole := nextToken_append c s
  obtain ⟨d, more, same⟩ := List.exists_cons_of_ne_nil (nextToken_text_ne_nil c s)
  rw [same] at whole ⊢
  exact ⟨more, by rw [(List.cons.inj whole).1]⟩

theorem nextToken_of_kind_code {c : Char} {s : Text} (code : (nextToken c s).1.kind = .code) :
    nextToken c s = (⟨.code, [c]⟩, s) := by
  unfold nextToken at code ⊢
  split at code
  · split at code <;> cases code
  · split at code
    · cases code
    · cases code
    · simp_all

def Token.marks (token : Token) : Marked := token.text.map fun c => (c, token.kind)

theorem Token.map_fst_marks (token : Token) : token.marks.map (·.1) = token.text := by
  simp [marks, Function.comp_def]

theorem mark_cons (c : Char) (s : Text) :
    mark (c :: s) = (nextToken c s).1.marks ++ mark (nextToken c s).2 := by
  rw [mark, tokens, List.flatMap_cons, mark, Token.marks]

/-- A character of code is the first token, or it stands behind the first token. -/
theorem mark_cons_cut {c d : Char} {s : Text} {front behind : Marked}
    (cut : mark (c :: s) = front ++ (d, .code) :: behind) :
    (front = [] ∧ behind = mark s) ∨
      ∃ later, front = (nextToken c s).1.marks ++ later ∧
        mark (nextToken c s).2 = later ++ (d, .code) :: behind := by
  rw [mark_cons] at cut
  by_cases code : (nextToken c s).1.kind = .code
  · rw [nextToken_of_kind_code code] at cut ⊢
    cases front with
    | nil => exact Or.inl ⟨rfl, (List.cons.inj cut).2.symm⟩
    | cons x later =>
      obtain ⟨first, rest⟩ := List.cons.inj cut
      exact Or.inr ⟨later, by rw [← first]; rfl, rest⟩
  · right
    rcases List.append_eq_append_iff.mp cut with ⟨later, ahead, rest⟩ | ⟨inside, ahead, rest⟩
    · exact ⟨later, ahead, rest⟩
    · cases inside with
      | nil => exact ⟨[], by rw [ahead, List.append_nil, List.append_nil], rest.symm⟩
      | cons x inside =>
        have within : (d, Kind.code) ∈ (nextToken c s).1.marks := by
          rw [ahead, ← (List.cons.inj rest).1]
          simp
        obtain ⟨_, _, same⟩ := List.mem_map.mp within
        exact absurd (Prod.mk.inj same).2 code

/-- A script may be cut around any character of code: what stands before it and what stands behind
it have the kinds that they have on their own. -/
theorem mark_around_code {content : Text} {front behind : Marked} {d : Char}
    (cut : mark content = front ++ (d, .code) :: behind) :
    mark (front.map (·.1)) = front ∧ mark (behind.map (·.1)) = behind := by
  induction content using tokens.induct generalizing front with
  | case1 =>
    rw [mark, tokens] at cut
    exact absurd (congrArg List.length cut) (by simp)
  | case2 c s ih =>
    rcases mark_cons_cut cut with ⟨rfl, rfl⟩ | ⟨later, rfl, rest⟩
    · exact ⟨by rw [List.map_nil, mark, tokens]; rfl, by rw [map_fst_mark]⟩
    · obtain ⟨before, after⟩ := ih rest
      refine ⟨?_, after⟩
      obtain ⟨more, text⟩ := nextToken_head c s
      have remaining : (nextToken c s).2 = later.map (·.1) ++ d :: behind.map (·.1) := by
        rw [← map_fst_mark (nextToken c s).2, rest, List.map_append, List.map_cons]
      have source : s = more ++ later.map (·.1) ++ d :: behind.map (·.1) := by
        have whole := nextToken_append c s
        rw [text, remaining, List.cons_append, ← List.append_assoc] at whole
        exact (List.cons.inj whole).2.symm
      -- The first token ends before the cut, so it is read alike without what follows.
      have first : nextToken c (more ++ later.map (·.1)) = ((nextToken c s).1, later.map (·.1)) := by
        rw [source] at remaining
        rw [nextToken_of_append remaining, ← source]
      have texts : ((nextToken c s).1.marks ++ later).map (·.1) =
          c :: (more ++ later.map (·.1)) := by
        rw [List.map_append, Token.map_fst_marks, text, List.cons_append]
      rw [texts, mark_cons, first, before]

theorem eq_take_append_cons_drop {α : Type} {xs : List α} {index : Nat} {x : α}
    (here : xs[index]? = some x) : xs = xs.take index ++ x :: xs.drop (index + 1) := by
  obtain ⟨bound, same⟩ := List.getElem?_eq_some_iff.mp here
  rw [← same, ← List.drop_eq_getElem_cons bound, List.take_append_drop]

theorem mark_take {content : Text} {index : Nat} {d : Char}
    (here : (mark content)[index]? = some (d, .code)) :
    mark (content.take index) = (mark content).take index := by
  have before := (mark_around_code (eq_take_append_cons_drop here)).1
  rwa [List.map_take, map_fst_mark] at before

theorem mark_drop {content : Text} {index : Nat} {d : Char}
    (here : (mark content)[index]? = some (d, .code)) :
    mark (content.drop (index + 1)) = (mark content).drop (index + 1) := by
  have after := (mark_around_code (eq_take_append_cons_drop here)).2
  rwa [List.map_drop, map_fst_mark] at after

end Script

end GradlePublishing
