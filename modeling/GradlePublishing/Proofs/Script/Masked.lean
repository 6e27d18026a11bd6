import GradlePublishing.Proofs.Script.Shown

/-!
What a scan of the mask sees. The mask is cut into tokens like the script outside all braces, but for the
comments, and into single characters of code everywhere else (`mark_maskFrom`). So masking it again changes
nothing, and it holds no literal and no comment but the literals that the script shows
(`mask_keeps_top_level`).
-/

namespace GradlePublishing

namespace Text

/-- A piece that ends in front of a foreign character ends in front of any other. -/
theorem after?_of_foreign {piece s : Text} {next blank : Char} (foreign : blank ∉ piece)
    (absent : after? piece (s ++ [next]) = none) : after? piece (s ++ [blank]) = none := by
  cases found : after? piece (s ++ [blank]) with
  | none => rfl
  | some rest =>
    have whole := after?_eq_some_iff.mp found
    rcases List.eq_nil_or_concat rest with rfl | ⟨rest, last, rfl⟩
    · rw [List.append_nil] at whole
      exact absurd (whole ▸ List.mem_append_right s List.mem_cons_self) foreign
    · rw [List.concat_eq_append, ← List.append_assoc] at whole
      have same : s = piece ++ rest := (List.append_inj' whole rfl).1
      rw [after?_append (after?_eq_some_iff.mpr same)] at absent
      cases absent

theorem through_of_foreign {stop front : Text} {next blank : Char} (foreign : blank ∉ stop)
    (cut : through stop (front ++ [next]) = (front, [next])) :
    through stop (front ++ [blank]) = (front, [blank]) := by
  induction front with
  | nil =>
    cases found : after? stop [next] with
    | none => simp [through, found] at cut
    | some rest =>
      simp only [List.nil_append, through, found, Prod.mk.injEq] at cut
      obtain ⟨rfl, -⟩ := cut
      rfl
  | cons c front ih =>
    rw [List.cons_append] at cut ⊢
    cases found : after? stop (c :: (front ++ [next])) with
    | some rest =>
      simp only [through, found, Prod.mk.injEq] at cut
      obtain ⟨rfl, -⟩ := cut
      have here : after? (c :: front) (c :: (front ++ [blank])) = some [blank] :=
        after?_eq_some_iff.mpr List.cons_append.symm
      simp only [through, here]
    | none =>
      have absent : after? stop (c :: front ++ [blank]) = none := after?_of_foreign foreign found
      rw [List.cons_append] at absent
      simp only [through, found, Prod.mk.injEq, List.cons.injEq, true_and] at cut
      simp only [through, absent, ih (Prod.ext cut.1 cut.2)]

end Text

namespace Script

/-- A literal that is closed on its line is so whatever character follows it. -/
theorem lineLiteral_of_blank {quote next : Char} {front : Text} (blank : Char) (inLine : next ≠ '\n')
    (cut : lineLiteral quote (front ++ [next]) = (front, [next])) :
    lineLiteral quote (front ++ [blank]) = (front, [blank]) := by
  fun_induction lineLiteral quote front with
  | case1 =>
    by_cases hidden : next = '\\'
    · subst hidden
      cases cut
    · rw [List.nil_append, lineLiteral_cons hidden] at cut
      split at cut
      · simp at cut
      · simp at cut
  | case2 => simp [lineLiteral] at cut
  | case3 c s ih =>
    simp only [List.cons_append, lineLiteral, Prod.mk.injEq, List.cons.injEq, true_and] at cut ⊢
    exact Prod.ext_iff.mp (ih (Prod.ext cut.1 cut.2))
  | case4 s single hidden =>
    have plain : quote ≠ '\\' := ne_backslash single hidden
    rw [List.cons_append, lineLiteral_cons plain, if_pos rfl] at cut ⊢
    obtain ⟨whole, -⟩ := Prod.mk.inj cut
    rw [(List.cons.inj whole).2.symm, List.nil_append]
  | case5 s single hidden open' =>
    rw [List.cons_append, lineLiteral_cons (by decide), if_neg open', if_pos rfl] at cut
    cases cut
  | case6 c s single hidden open' inLine' ih =>
    have plain : c ≠ '\\' := ne_backslash single hidden
    rw [List.cons_append, lineLiteral_cons plain, if_neg open', if_neg inLine'] at cut ⊢
    obtain ⟨whole, left⟩ := Prod.mk.inj cut
    rw [ih (Prod.ext (List.cons.inj whole).2 left)]

/-- A literal in front of a character other than a line break is closed, so a space may stand there as well. -/
theorem nextToken_of_blank {quote next : Char} {front : Text} {token : Token}
    (quotes : Text.isQuote quote = true) (inLine : next ≠ '\n')
    (cut : nextToken quote (front ++ [next]) = (token, [next])) :
    nextToken quote (front ++ [' ']) = (token, [' ']) := by
  have foreign : ' ' ≠ quote := by
    rintro rfl
    cases quotes
  have whole := nextToken_append quote (front ++ [next])
  rw [cut, ← List.cons_append] at whole
  have text : token.text = quote :: front := List.append_cancel_right whole
  unfold nextToken at cut ⊢
  rw [if_pos quotes] at cut ⊢
  cases tripled : Text.after? [quote, quote] (front ++ [next]) with
  | some inner =>
    simp only [tripled, Prod.mk.injEq] at cut
    obtain ⟨rfl, left⟩ := cut
    obtain rfl : quote :: quote :: (Text.through [quote, quote, quote] inner).1 = front :=
      (List.cons.inj text).2
    have body := Text.through_append [quote, quote, quote] inner
    rw [left] at body
    have cut : Text.through [quote, quote, quote]
        ((Text.through [quote, quote, quote] inner).1 ++ [next]) =
          ((Text.through [quote, quote, quote] inner).1, [next]) := by
      rw [body]
      exact Prod.ext rfl left
    have closed := Text.through_of_foreign (by simp [foreign] : ' ' ∉ [quote, quote, quote]) cut
    simp only [List.cons_append, Text.after?, ↓reduceIte, closed]
  | none =>
    have single := Text.after?_of_foreign (by simp [foreign] : ' ' ∉ [quote, quote]) tripled
    simp only [tripled, Prod.mk.injEq] at cut
    obtain ⟨rfl, left⟩ := cut
    have line := lineLiteral_of_blank ' ' inLine (Prod.ext (List.cons.inj text).2 left)
    simp only [single, line, (List.cons.inj text).2]

/-- The second text starts like the first, or with a space in place of a character that is no line break. -/
inductive StartsLike : Text → Text → Prop
  | nil : StartsLike [] []
  | same (c : Char) (s t : Text) : StartsLike (c :: s) (c :: t)
  | blank {c : Char} (inLine : c ≠ '\n') (s t : Text) : StartsLike (c :: s) (' ' :: t)

/-- A literal ends where it ends when the text behind it is changed in this way. -/
theorem nextToken_of_startsLike {quote : Char} {s more rest : Text} (quotes : Text.isQuote quote = true)
    (text : (nextToken quote s).1.text = quote :: more) (alike : StartsLike (nextToken quote s).2 rest) :
    nextToken quote (more ++ rest) = ((nextToken quote s).1, rest) := by
  have whole := nextToken_append quote s
  rw [text, List.cons_append] at whole
  have source : s = more ++ (nextToken quote s).2 := (List.cons.inj whole).2.symm
  have short {next : Char} {behind : Text} (left : (nextToken quote s).2 = next :: behind) :
      nextToken quote (more ++ [next]) = ((nextToken quote s).1, [next]) := by
    have cut : (nextToken quote (more ++ [next] ++ behind)).2 = [next] ++ behind := by
      rw [List.append_assoc, List.singleton_append, ← left, ← source]
    rw [nextToken_of_append cut, List.append_assoc, List.singleton_append, ← left, ← source]
  have long {next : Char} (behind : Text)
      (cut : nextToken quote (more ++ [next]) = ((nextToken quote s).1, [next])) :
      nextToken quote (more ++ next :: behind) = ((nextToken quote s).1, next :: behind) := by
    have longer := nextToken_append_of_left (by rw [cut]; simp) behind
    rwa [cut, List.append_assoc] at longer
  generalize left : (nextToken quote s).2 = behind at alike
  cases alike with
  | nil =>
    rw [left, List.append_nil] at source
    rw [List.append_nil, ← source, ← left]
  | same c s t => exact long t (short left)
  | blank inLine s t => exact long t (nextToken_of_blank quotes inLine (short left))

theorem mark_literal_append {c : Char} {s rest : Text} (literal : (nextToken c s).1.kind = .literal)
    (alike : StartsLike (nextToken c s).2 rest) :
    mark ((nextToken c s).1.text ++ rest) = (nextToken c s).1.marks ++ mark rest := by
  obtain ⟨more, text⟩ := nextToken_head c s
  rw [text, List.cons_append, mark_cons,
    nextToken_of_startsLike (isQuote_of_kind_literal literal) text alike]

theorem isQuote_of_kind_code {c : Char} {s : Text} (code : (nextToken c s).1.kind = .code) :
    Text.isQuote c = false := by
  refine (Bool.not_eq_true _).mp fun quotes => ?_
  rw [kind_of_isQuote quotes] at code
  cases code

theorem opensComment_of_kind_code {c : Char} {s : Text} (code : (nextToken c s).1.kind = .code) :
    opensComment c s = false := by
  refine (Bool.not_eq_true _).mp fun comment => ?_
  obtain ⟨rfl, ⟨line, rfl⟩ | ⟨inner, rfl⟩⟩ := opensComment_eq_true_iff.mp comment
  · cases code
  · cases code

/-- No slash joins another one, or a star, when something between them is blanked out. -/
theorem mark_code_cons {c : Char} {s rest : Text} (code : (nextToken c s).1.kind = .code)
    (alike : StartsLike s rest) : mark (c :: rest) = (c, .code) :: mark rest := by
  have before := opensComment_of_kind_code code
  have uncommented : opensComment c rest = false := by
    cases alike with
    | nil => exact before
    | same d s t => exact before
    | blank inLine s t => simp [opensComment]
  rw [mark_cons, nextToken_code (isQuote_of_kind_code code) uncommented]
  rfl

/-- What the mask makes of the kind of a character inside `depth` open braces. -/
def maskedKind (depth : Nat) (kind : Kind) : Kind :=
  if depth = 0 ∧ kind ≠ .comment then kind else .code

theorem maskedKind_code (depth : Nat) : maskedKind depth .code = .code := ite_self _

/-- The marks of the mask, told from the marks of the script. -/
def maskedMarks : Nat → Marked → Marked
  | _, [] => []
  | depth, x :: rest => (maskedAs depth x, maskedKind depth x.2) :: maskedMarks (depthAfter depth x) rest

theorem maskedMarks_append (depth : Nat) (front behind : Marked) :
    maskedMarks depth (front ++ behind) =
      maskedMarks depth front ++ maskedMarks (depthBehind depth front) behind := by
  induction front generalizing depth with
  | nil => rfl
  | cons x front ih => rw [List.cons_append, maskedMarks, ih, maskedMarks, List.cons_append]; rfl

theorem getElem?_maskedMarks (depth : Nat) (marks : Marked) (index : Nat) :
    (maskedMarks depth marks)[index]? = marks[index]?.map fun x =>
      (maskedAs (depthBehind depth (marks.take index)) x,
        maskedKind (depthBehind depth (marks.take index)) x.2) := by
  induction marks generalizing depth index with
  | nil => rfl
  | cons x marks ih =>
    cases index with
    | zero => rfl
    | succ index => exact ih _ _

/-- The mask shows a character, or a space in place of it unless it is a line break. -/
theorem maskedAs_cases (depth : Nat) (x : Char × Kind) :
    maskedAs depth x = x.1 ∨ maskedAs depth x = ' ' ∧ x.1 ≠ '\n' := by
  obtain ⟨c, kind⟩ := x
  unfold maskedAs blankOut
  grind

theorem startsLike_maskFrom (depth : Nat) (s : Text) : StartsLike s (maskFrom depth (mark s)) := by
  cases s with
  | nil =>
    rw [mark_nil, maskFrom]
    exact .nil
  | cons c s =>
    have texts := map_fst_mark (c :: s)
    obtain ⟨x, marks, marked⟩ : ∃ x marks, mark (c :: s) = x :: marks :=
      List.exists_cons_of_ne_nil fun empty => by simp [empty] at texts
    rw [marked, List.map_cons] at texts
    obtain ⟨rfl, -⟩ := List.cons.inj texts
    rw [marked, maskFrom_cons]
    rcases maskedAs_cases depth x with shown | ⟨hidden, inLine⟩
    · rw [shown]
      exact .same x.1 s _
    · rw [hidden]
      exact .blank inLine s _

/-- What the mask hides becomes code that starts neither a literal nor a comment. -/
theorem isPlain_maskedAs {depth : Nat} {x : Char × Kind} (hidden : ¬ (depth = 0 ∧ x.2 ≠ .comment)) :
    isPlain (maskedAs depth x) = true := by
  obtain ⟨c, kind⟩ := x
  unfold maskedAs blankOut
  grind [isPlain, Text.isQuote]

theorem depthAfter_of_kind {x : Char × Kind} (other : x.2 ≠ .code) (depth : Nat) :
    depthAfter depth x = depth := by
  have brace (c : Char) : x ≠ (c, .code) := by
    rintro rfl
    exact other rfl
  rw [depthAfter, if_neg (brace '{'), if_neg (brace '}')]

theorem maskedMarks_hidden {depth : Nat} {marks : Marked}
    (hidden : ∀ x ∈ marks, x.2 ≠ .code ∧ ¬ (depth = 0 ∧ x.2 ≠ .comment)) :
    (∀ c ∈ maskFrom depth marks, isPlain c = true) ∧
      maskedMarks depth marks = asCode (maskFrom depth marks) := by
  induction marks with
  | nil => simp [maskFrom, maskedMarks, asCode]
  | cons x marks ih =>
    obtain ⟨⟨other, inside⟩, later⟩ := List.forall_mem_cons.mp hidden
    obtain ⟨plain, same⟩ := ih later
    rw [maskFrom_cons, maskedMarks, depthAfter_of_kind other, same, maskedKind, if_neg inside]
    exact ⟨List.forall_mem_cons.mpr ⟨isPlain_maskedAs inside, plain⟩, rfl⟩

theorem maskedMarks_literal {marks : Marked} (literal : ∀ x ∈ marks, x.2 = .literal) :
    maskFrom 0 marks = marks.map (·.1) ∧ maskedMarks 0 marks = marks := by
  induction marks with
  | nil => simp [maskFrom, maskedMarks]
  | cons x marks ih =>
    obtain ⟨here, later⟩ := List.forall_mem_cons.mp literal
    have other : x.2 ≠ .code := by simp [here]
    have char : maskedAs 0 x = x.1 := by rw [maskedAs_zero, shown, if_neg (by simp [here])]
    have kind : maskedKind 0 x.2 = x.2 := if_pos ⟨rfl, by simp [here]⟩
    obtain ⟨texts, same⟩ := ih later
    rw [maskFrom_cons, maskedMarks, depthAfter_of_kind other, texts, same, char, kind]
    exact ⟨rfl, rfl⟩

theorem mark_maskFrom (depth : Nat) (content : Text) :
    mark (maskFrom depth (mark content)) = maskedMarks depth (mark content) := by
  induction content using tokens.induct generalizing depth with
  | case1 => rw [mark_nil, maskFrom, mark_nil]; rfl
  | case2 c s ih =>
    rw [mark_cons, maskFrom_append, maskedMarks_append, ← ih]
    have alike := startsLike_maskFrom (depthBehind depth (nextToken c s).1.marks) (nextToken c s).2
    have kinds (x : Char × Kind) : x ∈ (nextToken c s).1.marks → x.2 = (nextToken c s).1.kind :=
      Token.kind_of_mem_marks
    by_cases code : (nextToken c s).1.kind = .code
    · have single : (nextToken c s).1.marks = [(c, .code)] := by
        rw [nextToken_of_kind_code code]
        rfl
      have texts : maskFrom depth [(c, .code)] = [maskedAs depth (c, .code)] := by
        rw [maskFrom_cons, maskFrom]
      have same : maskedMarks depth [(c, .code)] = [(maskedAs depth (c, .code), .code)] := by
        rw [maskedMarks, maskedKind_code, maskedMarks]
      rw [nextToken_of_kind_code code] at alike
      rw [single, texts, same, List.singleton_append, List.singleton_append,
        nextToken_of_kind_code code]
      rcases maskedAs_cases depth (c, .code) with shown | ⟨hidden, -⟩
      · rw [shown]
        exact mark_code_cons code alike
      · rw [hidden]
        exact mark_plain_append (List.forall_mem_singleton.mpr rfl : ∀ d ∈ [' '], isPlain d = true) _
    · by_cases shown : depth = 0 ∧ (nextToken c s).1.kind ≠ .comment
      · obtain ⟨rfl, solid⟩ := shown
        have literal : (nextToken c s).1.kind = .literal := by
          cases kind : (nextToken c s).1.kind <;> simp_all
        obtain ⟨texts, same⟩ := maskedMarks_literal fun x member => (kinds x member).trans literal
        rw [texts, same, Token.map_fst_marks, mark_literal_append literal alike]
      · have hidden (x : Char × Kind) (member : x ∈ (nextToken c s).1.marks) :
            x.2 ≠ .code ∧ ¬ (depth = 0 ∧ x.2 ≠ .comment) := by
          rw [kinds x member]
          exact ⟨code, shown⟩
        obtain ⟨plain, same⟩ := maskedMarks_hidden hidden
        rw [mark_plain_append plain, same]

theorem mark_mask (content : Text) : mark (mask content) = maskedMarks 0 (mark content) :=
  mark_maskFrom 0 content

/-- What is masked stays as it is when it is masked again, and of its braces only the outermost are left. -/
theorem maskedAs_maskedAs (depth : Nat) (x : Char × Kind) :
    maskedAs (min depth 1) (maskedAs depth x, maskedKind depth x.2) = maskedAs depth x ∧
      depthAfter (min depth 1) (maskedAs depth x, maskedKind depth x.2) =
        min (depthAfter depth x) 1 := by
  obtain ⟨c, kind⟩ := x
  match depth with
  | 0 => grind [maskedAs, maskedKind, depthAfter, blankOut]
  | 1 => grind [maskedAs, maskedKind, depthAfter, blankOut]
  | depth + 2 => grind [maskedAs, maskedKind, depthAfter, blankOut]

theorem maskFrom_maskedMarks (depth : Nat) (marks : Marked) :
    maskFrom (min depth 1) (maskedMarks depth marks) = maskFrom depth marks := by
  induction marks generalizing depth with
  | nil => rw [maskedMarks, maskFrom, maskFrom]
  | cons x marks ih =>
    obtain ⟨char, depths⟩ := maskedAs_maskedAs depth x
    rw [maskedMarks, maskFrom_cons, char, depths, ih, maskFrom_cons]

/-- Masking twice changes nothing more than masking once. Outside all braces and all comments the mask shows
the script with the kinds that it has there, and whatever it holds elsewhere is code. -/
theorem mask_keeps_top_level (content : Text) :
    mask (mask content) = mask content ∧
      (∀ index, (classify (mask content))[index]? = (classify content)[index]?.map fun kind =>
        if IsTopLevel content index ∧ kind ≠ .comment then kind else .code) ∧
      ∀ index, IsTopLevel content index → (classify content)[index]? ≠ some .comment →
        (mask content)[index]? = content[index]? := by
  refine ⟨?_, fun index => ?_, fun index outside solid => ?_⟩
  · rw [mask, mark_mask]
    exact maskFrom_maskedMarks 0 (mark content)
  · have marked := getElem?_maskedMarks 0 (mark content) index
    rw [classify, mark_mask, List.getElem?_map, marked, classify, List.getElem?_map, Option.map_map,
      Option.map_map]
    simp only [maskedKind, ← depth_eq_zero_iff, depthAt]
    rfl
  · rw [← depth_eq_zero_iff] at outside
    rw [getElem?_mask, outside]
    conv => rhs; rw [← map_fst_mark content, List.getElem?_map]
    rw [classify, List.getElem?_map] at solid
    cases here : (mark content)[index]? with
    | none => rfl
    | some x =>
      rw [here] at solid
      have visible : x.2 ≠ .comment := fun comment => solid (congrArg some comment)
      rw [Option.map_some, maskedAs_zero, shown, if_neg visible, Option.map_some]

/-- The quotes on either side of a comment do not join, and neither the stray brace nor the one in the literal
counts. -/
theorem mask_keeps_top_level_around_comment :
    let content : Text := r#"}""/**/"{"{'}'}/'"#
    mask content = r#"}""    "{"{   }/'"# ∧
      mask (mask content) = mask content ∧
      (∀ index, (classify (mask content))[index]? = (classify content)[index]?.map fun kind =>
        if IsTopLevel content index ∧ kind ≠ .comment then kind else .code) ∧
      IsTopLevel content 8 ∧ (classify content)[8]? ≠ some .comment ∧
      (mask content)[8]? = content[8]? := by
  intro content
  have outside : IsTopLevel content 8 := by decide +kernel
  have solid : (classify content)[8]? ≠ some .comment := by decide +kernel
  obtain ⟨twice, kinds, texts⟩ := mask_keeps_top_level content
  exact ⟨by decide +kernel, twice, kinds, outside, solid, texts 8 outside solid⟩

end Script

end GradlePublishing
