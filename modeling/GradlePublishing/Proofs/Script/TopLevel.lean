import GradlePublishing.Proofs.Script.Ordinary
import GradlePublishing.Proofs.Script.Shown
import Mathlib.Data.List.DropRight

/-!
The statements at the top level of a script. A reader that takes a quoted piece behind some plain text
(`ReadsOnePiece`) does not notice where the mask hides the rest of a line: it finds in the mask what it finds in
the script without its comments, as far as this starts in the code and outside all braces (`statements_mask`).
-/

namespace GradlePublishing.Script

section

variable {α : Type} {reader : Text → Option (α × Text)}

/-- A reader for one quoted piece behind some ordinary characters. What follows the piece does not matter to
it. -/
def ReadsOnePiece (reader : Text → Option (α × Text)) : Prop :=
  ∀ ⦃s value rest⦄, reader s = some (value, rest) → ∃ lead quote piece,
    s = lead ++ quote :: (piece ++ quote :: rest) ∧ lead ≠ [] ∧ (∀ c ∈ lead, isOrdinary c = true) ∧
      Text.isQuote quote = true ∧ quote ∉ piece ∧
        ∀ other, reader (lead ++ quote :: (piece ++ quote :: other)) = some (value, other)

namespace ReadsOnePiece

variable (reads : ReadsOnePiece reader)

include reads

theorem blank : reader [] = none := by
  cases read : reader [] with
  | none => rfl
  | some result =>
    obtain ⟨lead, quote, piece, text, -⟩ := reads read
    simp at text

theorem closing (s : Text) : reader ('}' :: s) = none := by
  cases read : reader ('}' :: s) with
  | none => rfl
  | some result =>
    obtain ⟨lead, quote, piece, text, -, plain, quotes, -⟩ := reads read
    cases lead with
    | nil =>
      rw [← (List.cons.inj text).1] at quotes
      cases quotes
    | cons c lead =>
      rw [← (List.cons.inj text).1] at plain
      exact absurd (plain '}' List.mem_cons_self) (by decide)

/-- Where every quote in front of a brace is closed in front of it, nothing is read past the brace. -/
theorem opening {front : Text}
    (closes : ∀ lead quote behind, front = lead ++ quote :: behind → Text.isQuote quote = true →
      (∀ c ∈ lead, Text.isQuote c = false) → quote ∈ behind)
    {s other rest : Text} {value : α} (read : reader (front ++ '{' :: s) = some (value, rest)) :
    ∃ later, reader (front ++ '{' :: other) = some (value, later) := by
  obtain ⟨lead, quote, piece, text, -, plain, quotes, unquoted, again⟩ := reads read
  have notBrace : '{' ≠ quote := by
    rintro rfl
    cases quotes
  -- The brace stands behind the opening quote, and then behind the closing one.
  obtain ⟨inside, rfl, tail⟩ : ∃ inside, front = lead ++ quote :: inside ∧
      piece ++ quote :: rest = inside ++ '{' :: s := by
    rcases List.append_eq_append_iff.mp text with ⟨more, rfl, joined⟩ | ⟨more, rfl, joined⟩
    · cases more with
      | nil => exact absurd (List.cons.inj joined).1 notBrace
      | cons c more =>
        rw [← (List.cons.inj joined).1] at plain
        exact absurd (plain '{' (by simp)) (by decide)
    · cases more with
      | nil => exact absurd (List.cons.inj joined).1.symm notBrace
      | cons c more =>
        rw [List.cons_append] at joined
        exact ⟨more, by rw [(List.cons.inj joined).1], (List.cons.inj joined).2⟩
  have closed := closes lead quote inside rfl quotes fun c member => isQuote_of_isOrdinary (plain c member)
  obtain ⟨behind, rfl⟩ : ∃ behind, inside = piece ++ quote :: behind := by
    rcases List.append_eq_append_iff.mp tail with ⟨more, rfl, joined⟩ | ⟨more, rfl, joined⟩
    · cases more with
      | nil => exact absurd (List.cons.inj joined).1.symm notBrace
      | cons c more =>
        rw [List.cons_append] at joined
        exact ⟨more, by rw [(List.cons.inj joined).1]⟩
    · exact absurd (List.mem_append_left more closed) unquoted
  exact ⟨behind ++ '{' :: other, by simpa using again (behind ++ '{' :: other)⟩

theorem map_opening {front : Text}
    (closes : ∀ lead quote behind, front = lead ++ quote :: behind → Text.isQuote quote = true →
      (∀ c ∈ lead, Text.isQuote c = false) → quote ∈ behind) (s other : Text) :
    (reader (front ++ '{' :: s)).map (·.1) = (reader (front ++ '{' :: other)).map (·.1) := by
  have one {s other : Text} {value : α} (read : (reader (front ++ '{' :: s)).map (·.1) = some value) :
      (reader (front ++ '{' :: other)).map (·.1) = some value := by
    obtain ⟨⟨value, rest⟩, result, rfl⟩ := Option.map_eq_some_iff.mp read
    obtain ⟨later, again⟩ := reads.opening closes result
    rw [again, Option.map_some]
  exact Option.ext fun value => ⟨one, one⟩

end ReadsOnePiece

end

section

variable {α : Type} {reader : Text → Option (α × Text)}

/-- Whether a character of code stands at an index of the marks. -/
def isCodeAt (marks : Marked) (index : Nat) : Bool := (marks.map (·.2))[index]? == some .code

/-- Whether it also stands outside all braces, where the marks start inside `depth` braces. -/
def isTopCodeAt (depth : Nat) (marks : Marked) (index : Nat) : Bool :=
  isCodeAt marks index && depthBehind depth (marks.take index) == 0

/-- A statement that starts in the code outside all braces is read in the mask as in the script without its
comments. -/
theorem ReadsOnePiece.read_mask (reads : ReadsOnePiece reader) {content : Text} {front marks behind : Marked}
    {c : Char} (cut : mark content = front ++ (c, .code) :: (marks ++ behind)) (inLine : c ≠ '\n')
    (single : '\n' ∉ marks.map (·.1)) :
    (reader (maskFrom 0 ((c, .code) :: marks))).map (·.1) =
      (reader (((c, .code) :: marks).map shown)).map (·.1) := by
  by_cases opened : ('{', .code) ∈ (c, .code) :: marks
  · obtain ⟨ahead, inside, parts, closed⟩ := List.eq_append_cons_of_mem opened
    have whole : mark (c :: (marks ++ behind).map (·.1)) = ahead ++ ('{', .code) :: (inside ++ behind) := by
      rw [mark_from_code cut, ← List.cons_append, parts, List.append_assoc, List.cons_append]
    have singleAhead : '\n' ∉ ahead.map (·.1) := by
      have all : '\n' ∉ ((c, Kind.code) :: marks).map (·.1) := by
        rw [List.map_cons, List.mem_cons, not_or]
        exact ⟨Ne.symm inLine, single⟩
      rw [parts, List.map_append, List.mem_append, not_or] at all
      exact all.1
    rw [parts, maskFrom_zero closed, maskFrom_cons, List.map_append, List.map_cons]
    exact reads.map_opening (fun lead quote tail text quotes unquoted =>
      quote_mem_of_shown (by decide) whole singleAhead text quotes unquoted) _ _
  · have shows := maskFrom_zero opened []
    rw [List.append_nil, maskFrom, List.append_nil] at shows
    rw [shows]

theorem skipGap_maskFrom {depth : Nat} (inside : 0 < depth) {marks : Marked}
    (single : '\n' ∉ marks.map (·.1)) :
    skipGap (maskFrom depth marks) = [] ∨ ∃ rest, skipGap (maskFrom depth marks) = '}' :: rest := by
  induction marks generalizing depth with
  | nil => exact .inl rfl
  | cons x marks ih =>
    rw [List.map_cons, List.mem_cons, not_or] at single
    have blank : blankOut x.1 = ' ' := if_neg (Ne.symm single.1)
    have passes (space : maskedAs depth x = ' ') (deeper : 0 < depthAfter depth x) :
        skipGap (maskFrom depth (x :: marks)) = [] ∨
          ∃ rest, skipGap (maskFrom depth (x :: marks)) = '}' :: rest := by
      rw [maskFrom_cons, space]
      exact ih deeper single.2
    by_cases opening : x = ('{', .code)
    · subst opening
      exact passes (by simp [maskedAs, Nat.ne_of_gt inside]) (Nat.succ_pos depth)
    by_cases closing : x = ('}', .code)
    · subst closing
      by_cases outermost : depth ≤ 1
      · right
        have brace : maskedAs depth ('}', .code) = '}' := by simp [maskedAs, outermost]
        exact ⟨_, by rw [maskFrom_cons, brace]; exact skipGap_cons rfl _⟩
      · exact passes (by simp [maskedAs, outermost]) (by simp [depthAfter]; omega)
    · refine passes ?_ ?_
      · rw [maskedAs, if_neg opening, if_neg closing, if_pos (.inl inside), blank]
      · rwa [depthAfter, if_neg opening, if_neg closing]

theorem ReadsOnePiece.statements_inside (reads : ReadsOnePiece reader) {depth : Nat} (inside : 0 < depth)
    {marks : Marked} (single : '\n' ∉ marks.map (·.1)) : statements reader (maskFrom depth marks) = [] := by
  rw [statements_single (by rwa [mem_maskFrom])]
  rcases skipGap_maskFrom inside single with empty | ⟨more, brace⟩
  · rw [empty, reads.blank]
    rfl
  · rw [brace, reads.closing]
    rfl

theorem statements_gap {indent s : Text} (gaps : ∀ c ∈ indent, isGap c = true) (start : skipGap s = s)
    (single : '\n' ∉ indent ++ s) :
    statements reader (indent ++ s) = (((reader s).map (·.1)).map (Found.mk indent.length)).toList := by
  have behind : skipGap (indent ++ s) = s := (List.dropWhile_append_of_pos gaps).trans start
  have first : s.takeWhile isGap = [] := by
    have whole := List.takeWhile_append_dropWhile (p := isGap) (l := s)
    rw [← skipGap, start] at whole
    exact List.append_left_eq_self.mp whole
  rw [statements_single single, behind, List.takeWhile_append_of_pos gaps, first, List.append_nil,
    Option.map_map]
  rfl

theorem filter_eq_nil_of_offset {place : Nat} {value? : Option α} {keep : Nat → Bool}
    (dropped : keep place = false) :
    ((value?.map (Found.mk place)).toList.filter fun found => keep found.offset) = [] := by
  cases value? with
  | none => rfl
  | some value => exact List.filter_cons_of_neg (by simp [dropped])

theorem exists_indent (marks : Marked) : ∃ indent rest, marks = indent ++ rest ∧
    (∀ x ∈ indent, isGap (shown x) = true) ∧ skipGap (rest.map shown) = rest.map shown := by
  refine ⟨marks.takeWhile (isGap ∘ shown), marks.dropWhile (isGap ∘ shown),
    List.takeWhile_append_dropWhile.symm, fun x => List.mem_takeWhile_imp, ?_⟩
  rw [← List.dropWhile_map, skipGap, List.dropWhile_idempotent]

/-- On one line, the statements of the mask that start in the code are those that are shown and start in the
code outside all braces. -/
theorem ReadsOnePiece.filter_statements_line (reads : ReadsOnePiece reader) {content : Text}
    {front marks behind : Marked} (cut : mark content = front ++ (marks ++ behind))
    (single : '\n' ∉ marks.map (·.1)) (depth : Nat) :
    ((statements reader (maskFrom depth marks)).filter fun found => isCodeAt marks found.offset) =
      (statements reader (marks.map shown)).filter fun found => isTopCodeAt depth marks found.offset := by
  obtain ⟨indent, rest, rfl, gaps, start⟩ := exists_indent marks
  have indented : ∀ c ∈ indent.map shown, isGap c = true := List.forall_mem_map.mpr gaps
  have opening : ('{', .code) ∉ indent := fun member => absurd (gaps _ member) (by decide)
  have closing : ('}', .code) ∉ indent := fun member => absurd (gaps _ member) (by decide)
  have place : depthBehind depth ((indent ++ rest).take indent.length) = depth := by
    rw [List.take_left, depthBehind_of_no_brace opening closing]
  have shows : statements reader ((indent ++ rest).map shown) =
      (((reader (rest.map shown)).map (·.1)).map (Found.mk indent.length)).toList := by
    rw [List.map_append, statements_gap indented start (by rwa [← List.map_append, mem_map_shown]),
      List.length_map]
  rw [shows]
  rcases Nat.eq_zero_or_pos depth with rfl | inside
  · have masks : maskFrom 0 (indent ++ rest) = indent.map shown ++ maskFrom 0 rest :=
      maskFrom_zero opening rest
    have inLine : '\n' ∉ indent.map shown ++ maskFrom 0 rest := by rwa [← masks, mem_maskFrom]
    cases rest with
    | nil =>
      have empty : maskFrom 0 [] = [] := rfl
      rw [masks, empty, statements_gap indented rfl (by rwa [empty] at inLine), List.map_nil, reads.blank]
      rfl
    | cons x more =>
      have first : ¬ isGap (shown x) = true :=
        List.dropWhile_eq_self_iff.mp start (Nat.succ_pos (more.map shown).length)
      have solid : skipGap (maskFrom 0 (x :: more)) = maskFrom 0 (x :: more) := by
        rw [maskFrom_cons, maskedAs_zero]
        exact skipGap_cons (by simpa using first) _
      have here : isCodeAt (indent ++ x :: more) indent.length = (x.2 == .code) := by
        simp [isCodeAt]
      rw [masks, statements_gap indented solid inLine, List.length_map]
      by_cases code : x.2 = .code
      · obtain ⟨c, kind⟩ := x
        obtain rfl : kind = .code := code
        rw [List.map_append, List.mem_append, not_or, List.map_cons, List.mem_cons, not_or] at single
        have cut' : mark content = (front ++ indent) ++ (c, .code) :: (more ++ behind) := by
          rw [cut, List.append_assoc, List.append_assoc, List.cons_append]
        rw [reads.read_mask cut' (Ne.symm single.2.1) single.2.2]
        refine List.filter_congr fun found member => ?_
        obtain ⟨value, -, rfl⟩ := Option.map_eq_some_iff.mp (Option.mem_toList.mp member)
        rw [isTopCodeAt, place, beq_self_eq_true, Bool.and_true]
      · rw [filter_eq_nil_of_offset (by simp [here, code]),
          filter_eq_nil_of_offset (by simp [isTopCodeAt, here, code])]
  · have dropped : isTopCodeAt depth (indent ++ rest) indent.length = false := by
      rw [isTopCodeAt, place, beq_false_of_ne (Nat.ne_of_gt inside), Bool.and_false]
    rw [reads.statements_inside inside single, filter_eq_nil_of_offset dropped, List.filter_nil]

theorem isCodeAt_append_left {front : Marked} {index : Nat} (inside : index < front.length)
    (behind : Marked) : isCodeAt (front ++ behind) index = isCodeAt front index := by
  rw [isCodeAt, isCodeAt, List.map_append, List.getElem?_append_left (by rwa [List.length_map])]

theorem isTopCodeAt_append_left {front : Marked} {index : Nat} (inside : index < front.length)
    (depth : Nat) (behind : Marked) :
    isTopCodeAt depth (front ++ behind) index = isTopCodeAt depth front index := by
  rw [isTopCodeAt, isTopCodeAt, isCodeAt_append_left inside,
    List.take_append_of_le_length (Nat.le_of_lt inside)]

theorem isCodeAt_append_right (front behind : Marked) (index : Nat) :
    isCodeAt (front ++ behind) (index + front.length) = isCodeAt behind index := by
  rw [isCodeAt, isCodeAt, List.map_append, List.getElem?_append_right (by simp), List.length_map,
    Nat.add_sub_cancel]

theorem isTopCodeAt_append_right (depth : Nat) (front behind : Marked) (index : Nat) :
    isTopCodeAt depth (front ++ behind) (index + front.length) =
      isTopCodeAt (depthBehind depth front) behind index := by
  rw [isTopCodeAt, isTopCodeAt, isCodeAt_append_right, Nat.add_comm, List.take_length_add_append,
    depthBehind_append]

theorem offset_lt_of_mem_statements (blank : reader [] = none) {content : Text} {found : Found α}
    (member : found ∈ statements reader content) : found.offset < content.length := by
  obtain ⟨c, here, -⟩ := char_of_mem_statements blank member
  exact (List.getElem?_eq_some_iff.mp here).1

/-- Whether a statement is kept matters at the characters of the text only. -/
theorem filter_statements_congr (blank : reader [] = none) {content : Text} {keep other : Nat → Bool}
    (same : ∀ index < content.length, keep index = other index) :
    ((statements reader content).filter fun found => keep found.offset) =
      (statements reader content).filter fun found => other found.offset :=
  List.filter_congr fun found member => same found.offset (offset_lt_of_mem_statements blank member)

theorem filter_statements_break (keep : Nat → Bool) (line behind : Text) :
    ((statements reader (line ++ '\n' :: behind)).filter fun found => keep found.offset) =
      ((statements reader line).filter fun found => keep found.offset) ++
        ((statements reader behind).filter fun found => keep (found.offset + (line.length + 1))).map
          (Found.shift (line.length + 1)) := by
  rw [statements_append_break, List.filter_append, List.filter_map]
  rfl

theorem ReadsOnePiece.filter_statements (reads : ReadsOnePiece reader) {content : Text}
    {front marks : Marked} (cut : mark content = front ++ marks) (depth : Nat) :
    ((statements reader (maskFrom depth marks)).filter fun found => isCodeAt marks found.offset) =
      (statements reader (marks.map shown)).filter fun found => isTopCodeAt depth marks found.offset := by
  induction size : marks.length using Nat.strongRecOn generalizing front marks depth with
  | ind size ih =>
  by_cases broken : '\n' ∈ marks.map (·.1)
  · -- The first line, its line break, and the rest, which starts at the depth behind the line.
    obtain ⟨first, behind, text, single⟩ := List.eq_append_cons_of_mem broken
    obtain ⟨line, tail, rfl, rfl, tails⟩ := List.map_eq_append_iff.mp text
    obtain ⟨x, later, rfl, lineBreak, rfl⟩ := List.map_eq_cons_iff.mp tails
    have masks : maskFrom depth (line ++ x :: later) =
        maskFrom depth line ++ '\n' :: maskFrom (depthBehind depth (line ++ [x])) later := by
      rw [maskFrom_append, maskFrom_cons, maskedAs_eq_break_iff.mpr lineBreak, depthBehind_append]
      rfl
    have shows : (line ++ x :: later).map shown = line.map shown ++ '\n' :: later.map shown := by
      rw [List.map_append, List.map_cons, ← maskedAs_zero x, maskedAs_eq_break_iff.mpr lineBreak]
    have parts : line ++ x :: later = (line ++ [x]) ++ later := by simp
    have below := ih later.length (by rw [List.length_append, List.length_cons] at size; omega)
      (cut.trans (by rw [parts, ← List.append_assoc])) (depthBehind depth (line ++ [x])) rfl
    rw [masks, shows, filter_statements_break (isCodeAt _), filter_statements_break (isTopCodeAt _ _),
      length_maskFrom, List.length_map]
    have length : line.length + 1 = (line ++ [x]).length := by rw [List.length_append, List.length_singleton]
    congr 1
    · have masked : ∀ index < (maskFrom depth line).length,
          isCodeAt (line ++ x :: later) index = isCodeAt line index := fun index inside =>
        isCodeAt_append_left (by rwa [length_maskFrom] at inside) (x :: later)
      have visible : ∀ index < (line.map shown).length,
          isTopCodeAt depth (line ++ x :: later) index = isTopCodeAt depth line index := fun index inside =>
        isTopCodeAt_append_left (by rwa [List.length_map] at inside) depth (x :: later)
      rw [filter_statements_congr reads.blank masked, filter_statements_congr reads.blank visible]
      exact reads.filter_statements_line cut single depth
    · simp only [length, parts, isCodeAt_append_right, isTopCodeAt_append_right, below]
  · have whole : mark content = front ++ (marks ++ []) := by rw [cut, List.append_nil]
    exact reads.filter_statements_line whole broken depth

/-- The statements of the mask that start in the code are those of the script without its comments that start
in the code outside all braces. -/
theorem ReadsOnePiece.statements_mask (reads : ReadsOnePiece reader) (content : Text) :
    ((statements reader (mask content)).filter fun found =>
        (classify content)[found.offset]? == some .code) =
      (statements reader (uncommented content)).filter fun found =>
        (classify content)[found.offset]? == some .code && decide (IsTopLevel content found.offset) := by
  have whole : mark content = [] ++ mark content := rfl
  refine (reads.filter_statements whole 0).trans (List.filter_congr fun found _ => ?_)
  rw [isTopCodeAt, decide_eq_decide.mpr depth_eq_zero_iff.symm]
  rfl

theorem ReadsOnePiece.char_of_mem_statements (reads : ReadsOnePiece reader) {s : Text} {found : Found α}
    (member : found ∈ statements reader s) : ∃ c, s[found.offset]? = some c ∧ isGap c = false ∧
      c ≠ '\n' ∧ Text.isQuote c = false ∧ c ≠ '{' ∧ c ≠ '}' := by
  obtain ⟨c, here, inLine, solid, behind, rest, read⟩ := Script.char_of_mem_statements reads.blank member
  obtain ⟨lead, quote, piece, text, nonempty, plain, -⟩ := reads read
  obtain ⟨d, lead, rfl⟩ := List.exists_cons_of_ne_nil nonempty
  obtain rfl : c = d := (List.cons.inj text).1
  have first := plain c List.mem_cons_self
  obtain ⟨-, opening, closing, -⟩ := isOrdinary_eq_true_iff.mp first
  exact ⟨c, here, solid, inLine, isQuote_of_isOrdinary first, opening, closing⟩

theorem LiteralAt.depthAt_eq {content : Text} {start stop index : Nat} (literal : LiteralAt content start stop)
    (first : start ≤ index) (last : index ≤ stop) : depthAt content index = depthAt content start := by
  induction index, first using Nat.le_induction with
  | base => rfl
  | succ index first ih =>
    obtain ⟨c, here⟩ := literal.getElem?_mark first (by omega)
    rw [depthAt_succ here, ih (by omega)]
    simp

/-- The index lies in a literal that starts on an earlier line. -/
def IsWithinLiteral (content : Text) (index : Nat) : Prop :=
  ∃ start stop, LiteralAt content start stop ∧ start < index ∧ index < stop ∧
    '\n' ∈ (content.take index).drop start

/-- A statement of the mask starts outside all braces. It starts in the code, or in a literal that starts on an
earlier line. -/
theorem ReadsOnePiece.place_of_mem_statements (reads : ReadsOnePiece reader) {content : Text}
    {found : Found α} (member : found ∈ statements reader (mask content)) :
    IsTopLevel content found.offset ∧
      ((classify content)[found.offset]? = some .code ∨ IsWithinLiteral content found.offset) := by
  obtain ⟨c, masked, solid, inLine, unquoted, opening, closing⟩ := reads.char_of_mem_statements member
  obtain ⟨⟨d, kind⟩, here, rfl⟩ := Option.map_eq_some_iff.mp ((getElem?_mask _ _).symm.trans masked)
  obtain ⟨surface, notComment, shown⟩ := maskedAs_of_solid solid inLine opening closing
  refine ⟨depth_eq_zero_iff.mp surface, ?_⟩
  cases kind with
  | code => exact .inl (by rw [classify, List.getElem?_map, here]; rfl)
  | comment => exact absurd rfl notComment
  | literal =>
    obtain ⟨start, stop, literal, first, inside⟩ := exists_literalAt here
    refine .inr ⟨start, stop, literal, ?_⟩
    obtain ⟨quote, quotes, marked, -⟩ := literal.exists_quote
    have opens : (mask content)[start]? = some quote := by
      rw [getElem?_mask, marked, ← literal.depthAt_eq first (Nat.le_of_lt inside), surface, Option.map_some,
        maskedAs_zero]
      rfl
    have ahead : start < found.offset := by
      refine Nat.lt_of_le_of_ne first fun same => ?_
      rw [same] at opens
      rw [← Option.some.inj (opens.symm.trans masked), quotes] at unquoted
      cases unquoted
    -- The quote stands in front of the line, as the line is blank up to the statement.
    obtain ⟨line, reached, starts, indent⟩ := indent_of_mem_statements member
    have earlier : start < line := by
      refine Nat.lt_of_not_le fun onLine => ?_
      obtain ⟨c, here, gap⟩ := indent start onLine ahead
      rw [← Option.some.inj (opens.symm.trans here), isGap_quote quotes] at gap
      cases gap
    obtain rfl | ⟨last, rfl, breaks⟩ := starts
    · cases earlier
    have lineBreak : content[last]? = some '\n' := by
      obtain ⟨x, marked, shows⟩ := Option.map_eq_some_iff.mp ((getElem?_mask _ _).symm.trans breaks)
      rw [← map_fst_mark content, List.getElem?_map, marked, Option.map_some,
        maskedAs_eq_break_iff.mp shows]
    refine ⟨ahead, inside, List.mem_of_getElem? (i := last - start) ?_⟩
    rw [List.getElem?_drop, Nat.add_sub_cancel' (by omega), List.getElem?_take_of_lt (by omega), lineBreak]

end

end GradlePublishing.Script
