import GradlePublishing.Proofs.Script.Enclosed
import GradlePublishing.Proofs.Script.LineReader
import GradlePublishing.Proofs.Script.QuotedReader

/-!
Lines that apply a script. Each dialect has its forms (`ApplyForm`), with any space between their parts; the path
itself may hold braces, comment marks, backslashes or what looks like another apply statement. It is read back as it
is written (`ApplyLine.writtenPaths_text`), whatever lines stand around it (`writtenPaths_append`).
-/

namespace GradlePublishing.Script

inductive ApplyForm : Dialect → Type
  /-- As in `apply from: "…"`. -/
  | statement (gap : Gap) (parted : gap.val ≠ []) : ApplyForm .groovy
  /-- As in `apply(from: "…")` or `apply(from = "…")`. -/
  | call (dialect : Dialect) (name opening : Gap) : ApplyForm dialect

namespace ApplyForm

variable {dialect : Dialect}

def opening : ApplyForm dialect → Text
  | statement gap _ => gap.val
  | call _ name opening => name.val ++ '(' :: opening.val

def ending : ApplyForm dialect → Text
  | statement _ _ => []
  | call _ _ _ => ")"

end ApplyForm

def applySign : Dialect → Char
  | .groovy => ':'
  | .kotlin => '='

/-- A line that applies a script, with the space between its parts. -/
structure ApplyLine (dialect : Dialect) where
  indent : Gap
  form : ApplyForm dialect
  name : Gap
  sign : Gap
  quote : Char
  path : Text
  closing : Gap
  quotes : Text.isQuote quote = true
  nonempty : path ≠ []
  single : '\n' ∉ path
  unquoted : quote ∉ path

namespace ApplyLine

variable {dialect : Dialect} (line : ApplyLine dialect)

def lead : Text :=
  line.form.opening ++ ("from".toList ++ (line.name.val ++ applySign dialect :: line.sign.val))

def quoted : Text := line.quote :: (line.path ++ [line.quote])

def tail : Text := line.closing.val ++ line.form.ending

def text : Text := line.indent.val ++ ("apply".toList ++ (line.lead ++ (line.quoted ++ (line.tail ++ ['\n']))))

theorem lead_subset : line.lead ⊆ "from(:= \t".toList := by
  have gap (gap : Gap) : gap.val ⊆ "from(:= \t".toList := gap.subset (by decide) (by decide)
  have opening : line.form.opening ⊆ "from(:= \t".toList := by
    cases line.form with
    | statement between parted => exact gap between
    | call _ name opening =>
      exact List.append_subset.mpr ⟨gap name, List.cons_subset.mpr ⟨by decide, gap opening⟩⟩
  have sign : applySign dialect ∈ "from(:= \t".toList := by cases dialect <;> decide
  have word : "from".toList ⊆ "from(:= \t".toList := by decide
  exact List.append_subset.mpr ⟨opening, List.append_subset.mpr ⟨word,
    List.append_subset.mpr ⟨gap line.name, List.cons_subset.mpr ⟨sign, gap line.sign⟩⟩⟩⟩

theorem tail_subset : line.tail ⊆ [')', ' ', '\t'] := by
  have ending : line.form.ending ⊆ [')', ' ', '\t'] := by
    cases line.form with
    | statement _ _ => exact List.nil_subset _
    | call _ _ _ => exact List.cons_subset.mpr ⟨List.mem_cons_self, List.nil_subset _⟩
  exact List.append_subset.mpr ⟨line.closing.subset (by decide) (by decide), ending⟩

/-! Reading the path of a line back. -/

theorem quotedValue?_quoted (behind : Text) :
    quotedValue? (line.quoted ++ behind) = some (line.path, behind) := by
  rw [quoted, List.cons_append, List.append_assoc, List.singleton_append]
  exact Script.quotedValue?_quoted line.quotes line.nonempty line.single line.unquoted behind

def argument (behind : Text) : Text :=
  "from".toList ++ (line.name.val ++ applySign dialect :: (line.sign.val ++ (line.quoted ++ behind)))

theorem lead_append (behind : Text) :
    line.lead ++ (line.quoted ++ behind) = line.form.opening ++ line.argument behind := by
  simp [lead, argument]

theorem skipGap_argument (gap : Gap) (behind : Text) :
    skipGap (gap.val ++ line.argument behind) = line.argument behind := by
  rw [skipGap_append]
  exact skipGap_cons rfl _

theorem path_of_argument (behind : Text) :
    ((Text.after? "from" (line.argument behind)).bind fun rest =>
      (Text.after? [applySign dialect] (skipGap rest)).bind fun rest => quotedValue? (skipGap rest)) =
        some (line.path, behind) := by
  have name : Text.after? "from" (line.argument behind) =
      some (line.name.val ++ applySign dialect :: (line.sign.val ++ (line.quoted ++ behind))) :=
    Text.after?_eq_some_iff.mpr rfl
  have sign : Text.after? [applySign dialect] (applySign dialect :: (line.sign.val ++ (line.quoted ++ behind))) =
      some (line.sign.val ++ (line.quoted ++ behind)) := Text.after?_eq_some_iff.mpr rfl
  have solid : isGap (applySign dialect) = false := by cases dialect <;> rfl
  have opens : skipGap (line.sign.val ++ (line.quoted ++ behind)) = line.quoted ++ behind := by
    rw [skipGap_append]
    exact skipGap_cons (isGap_quote line.quotes) _
  rw [name, Option.bind_some, skipGap_append, skipGap_cons solid, sign, Option.bind_some, opens,
    line.quotedValue?_quoted]

/-- In Groovy, what stands between `apply` and its argument is passed over, with or without parentheses. -/
theorem skipCallStart?_opening (line : ApplyLine .groovy) (behind : Text) :
    skipCallStart? (line.form.opening ++ line.argument behind) = some (line.argument behind) := by
  have first : ∃ more, line.argument behind = 'f' :: more := ⟨_, rfl⟩
  unfold skipCallStart?
  cases line.form with
  | statement gap parted =>
    obtain ⟨c, more, same⟩ := List.exists_cons_of_ne_nil parted
    have space : isGap c = true := gap.property c (same ▸ List.mem_cons_self)
    have starts : (gap.val ++ line.argument behind).head?.any isGap = true := by
      rw [same]
      exact space
    obtain ⟨rest, word⟩ := first
    simp only [ApplyForm.opening, line.skipGap_argument gap, starts]
    rw [word]
    rfl
  | call _ name opening =>
    have opened : skipGap (name.val ++ '(' :: opening.val ++ line.argument behind) =
        '(' :: (opening.val ++ line.argument behind) := by
      rw [List.append_assoc, skipGap_append]
      exact skipGap_cons rfl _
    simp only [ApplyForm.opening, opened, line.skipGap_argument opening]

theorem exists_skipGap_opening (line : ApplyLine .kotlin) (behind : Text) : ∃ opening : Gap,
    skipGap (line.form.opening ++ line.argument behind) = '(' :: (opening.val ++ line.argument behind) := by
  cases line.form with
  | call _ name opening =>
    refine ⟨opening, ?_⟩
    rw [ApplyForm.opening, List.append_assoc, skipGap_append]
    exact skipGap_cons rfl _

theorem after?_apply (behind : Text) :
    Text.after? "apply" ("apply".toList ++ (line.lead ++ (line.quoted ++ behind))) =
      some (line.form.opening ++ line.argument behind) := by
  rw [lead_append]
  exact Text.after?_eq_some_iff.mpr rfl

theorem groovyApply?_text (line : ApplyLine .groovy) (behind : Text) :
    groovyApply? ("apply".toList ++ (line.lead ++ (line.quoted ++ behind))) = some (line.path, behind) := by
  rw [groovyApply?, Option.bind_eq_bind, after?_apply, Option.bind_some, skipCallStart?_opening]
  exact line.path_of_argument behind

theorem kotlinApply?_text (line : ApplyLine .kotlin) (behind : Text) :
    kotlinApply? ("apply".toList ++ (line.lead ++ (line.quoted ++ behind))) = some (line.path, behind) := by
  obtain ⟨opening, opened⟩ := line.exists_skipGap_opening behind
  have paren : Text.after? "(" ('(' :: (opening.val ++ line.argument behind)) =
      some (opening.val ++ line.argument behind) := Text.after?_eq_some_iff.mpr rfl
  rw [kotlinApply?, Option.bind_eq_bind, after?_apply, Option.bind_some, opened, paren,
    Option.bind_some, skipGap_argument]
  exact line.path_of_argument behind

theorem appliedPath?_text {before : Option Char} (free : Text.startsWord before = true) (behind : Text) :
    appliedPath? dialect before ("apply".toList ++ (line.lead ++ (line.quoted ++ behind))) =
      some (line.path, behind) := by
  unfold appliedPath?
  rw [if_pos free]
  cases dialect with
  | groovy => exact line.groovyApply?_text behind
  | kotlin => exact line.kotlinApply?_text behind

theorem occurrences_text : occurrences (appliedPath? dialect) line.text =
    [⟨line.indent.val.length, line.path⟩] := by
  have absent : 'a' ∉ line.tail ++ ['\n'] := by
    have other : 'a' ∉ [')', ' ', '\t'] ∧ 'a' ∉ ['\n'] := by decide
    rw [List.mem_append, not_or]
    exact ⟨fun member => other.1 (line.tail_subset member), other.2⟩
  have text : line.text = line.indent.val ++ 'a' ::
      (("pply".toList ++ (line.lead ++ line.quoted)) ++ (line.tail ++ ['\n'])) := by
    simp [ApplyLine.text]
  rw [text]
  apply occurrences_single ((isQuotedReader_appliedPath? dialect).startsWith rfl) rfl line.indent _ absent
  intro before free
  have read := line.appliedPath?_text free (line.tail ++ ['\n'])
  rwa [← List.append_assoc line.lead, ← List.append_assoc] at read

/-! The kinds of the characters in a line. -/

theorem mark_text : ∃ marks, mark line.text =
    asCode line.indent.val ++ (asCode "apply" ++ (marks ++ [('\n', .code)])) := by
  have shape := isQuotedReader_appliedPath? dialect
  have plain : ∀ c ∈ line.indent.val ++ ("apply".toList ++ line.lead), isPlain c = true := by
    intro c member
    rcases List.mem_append.mp member with member | member
    · exact line.indent.isPlain c member
    · exact (isOrdinary_eq_true_iff.mp (shape.ordinary_append line.lead_subset c member)).1
  obtain ⟨literal, rest, marked, -, -⟩ := Script.mark_quoted line.quotes line.nonempty line.single
    line.unquoted line.tail_subset
  have text : line.text = line.indent.val ++ ("apply".toList ++ line.lead) ++
      line.quote :: (line.path ++ line.quote :: (line.tail ++ ['\n'])) := by
    simp [ApplyLine.text, quoted]
  refine ⟨asCode line.lead ++ (literal ++ asCode rest), ?_⟩
  rw [text, mark_plain_append plain, marked]
  simp [asCode]

theorem endsLine_text : EndsLine line.text := by
  obtain ⟨marks, marked⟩ := line.mark_text
  exact .inr ⟨asCode line.indent.val ++ (asCode "apply" ++ marks), by
    rw [marked, List.append_assoc, List.append_assoc]⟩

theorem head?_opening : ∃ c, line.form.opening.head? = some c ∧ isDelimiter c = true := by
  have space {c : Char} (gap : isGap c = true) : isDelimiter c = true := by
    rcases isGap_eq_true_iff.mp gap with rfl | rfl <;> rfl
  cases line.form with
  | statement gap parted =>
    obtain ⟨c, more, same⟩ := List.exists_cons_of_ne_nil parted
    exact ⟨c, by rw [ApplyForm.opening, same, List.head?_cons], space (gap.property c (same ▸ List.mem_cons_self))⟩
  | call _ name opening =>
    obtain ⟨gap, gaps⟩ := name
    cases gap with
    | nil => exact ⟨'(', rfl, rfl⟩
    | cons c gap => exact ⟨c, rfl, space (gaps c List.mem_cons_self)⟩

theorem isKeywordOccurrence_text :
    isKeywordOccurrence line.text line.indent.val.length (line.indent.val.length + "apply".length) = true := by
  obtain ⟨marks, marked⟩ := line.mark_text
  have kinds : ((classify line.text).drop line.indent.val.length).take "apply".length =
      List.replicate "apply".length .code := by
    rw [classify, marked, List.map_append, List.drop_left' (by simp [asCode])]
    rfl
  have before : (line.text.take line.indent.val.length).getLast?.all isDelimiter = true := by
    rw [text, List.take_left]
    cases last : line.indent.val.getLast? with
    | none => rfl
    | some c =>
      have gap := line.indent.property c (List.mem_of_getLast? last)
      rcases isGap_eq_true_iff.mp gap with rfl | rfl <;> rfl
  have behind : (line.text.drop (line.indent.val.length + "apply".length)).head?.all isDelimiter = true := by
    obtain ⟨c, first, delimiter⟩ := line.head?_opening
    have rest : line.text.drop (line.indent.val.length + "apply".length) =
        line.lead ++ (line.quoted ++ (line.tail ++ ['\n'])) := by
      rw [text, List.drop_length_add_append]
      rfl
    obtain ⟨more, opening⟩ := List.head?_eq_some_iff.mp first
    rw [rest, lead_append, opening]
    exact delimiter
  rw [isKeywordOccurrence, Nat.add_sub_cancel_left, kinds, isBounded, before, behind]
  rfl

theorem writtenPaths_text : writtenPaths dialect line.text = [Text.strip line.path] := by
  rw [writtenPaths, line.occurrences_text]
  simp only [List.filter_singleton, line.isKeywordOccurrence_text]
  rfl

end ApplyLine

theorem writtenPaths_append (dialect : Dialect) {front : Text} (ends : EndsLine front) (behind : Text) :
    writtenPaths dialect (front ++ behind) = writtenPaths dialect front ++ writtenPaths dialect behind := by
  have split := (readsByLine_appliedPath? dialect).append ends behind
  simp only [writtenPaths, split, List.map_append, List.map_map]
  rfl

theorem isKeywordOccurrence_concat_break {content : Text} (ends : EndsLine (content ++ ['\n'])) {start stop : Nat}
    (ordered : start ≤ stop) (inside : stop ≤ content.length) :
    isKeywordOccurrence (content ++ ['\n']) start stop = isKeywordOccurrence content start stop := by
  have kinds : classify (content ++ ['\n']) = classify content ++ [.code] := by
    rw [classify, mark_concat_break ends, List.map_append]
    rfl
  have length : (classify content).length = content.length := length_classify content
  have behind : ((content ++ ['\n']).drop stop).head?.all isDelimiter =
      (content.drop stop).head?.all isDelimiter := by
    rw [List.drop_append_of_le_length inside]
    cases content.drop stop <;> rfl
  rw [isKeywordOccurrence, isKeywordOccurrence, isBounded, isBounded, behind, kinds,
    List.drop_append_of_le_length (by omega), List.take_append_of_le_length (by rw [List.length_drop]; omega),
    List.take_append_of_le_length (by omega)]

theorem writtenPaths_concat_break (dialect : Dialect) {content : Text} (ends : EndsLine (content ++ ['\n'])) :
    writtenPaths dialect (content ++ ['\n']) = writtenPaths dialect content := by
  have reads := isLineReader_appliedPath? dialect
  have same : occurrences (appliedPath? dialect) (content ++ ['\n']) = occurrences (appliedPath? dialect) content := by
    rw [occurrences, occurrencesFrom_append_break reads (Nat.zero_le _)]
    exact List.append_nil _
  rw [writtenPaths, writtenPaths, same]
  apply congrArg (List.map _)
  apply List.filter_congr
  intro found member
  obtain ⟨front, more, rfl, place⟩ := eq_append_of_mem_occurrences member
  apply isKeywordOccurrence_concat_break ends (Nat.le_add_right _ _)
  rw [place, List.length_append, List.length_append, String.length_toList]
  omega

end GradlePublishing.Script
