import GradlePublishing.Proofs.Property.Names
import GradlePublishing.Proofs.Property.Parts
import GradlePublishing.Proofs.Script.Quoted
import GradlePublishing.Proofs.Text.Trimmed

/-!
Lines that declare an extra property. There is one form for the lines of an `ext` block and three for those
outside (`Form`), with any space between their parts; the value itself may hold braces, comment marks,
backslashes or what looks like another declaration. Each form is read by its own reader and by no other
(`declarations_text`), and no search for `ext` blocks stops in a line outside the blocks (`splits_text`).
-/

namespace GradlePublishing

/-- A text does not start with `lead` if a character of `lead` is missing up to one that is not in it. -/
theorem Text.after?_eq_none {lead front : Text} {c stop : Char} (marked : c ∈ lead) (unmarked : c ∉ front)
    (stops : stop ∉ lead) (rest : Text) : after? lead (front ++ stop :: rest) = none := by
  cases found : after? lead (front ++ stop :: rest) with
  | none => rfl
  | some behind =>
    rcases List.append_eq_append_iff.mp (after?_eq_some_iff.mp found) with
      ⟨more, longer, next⟩ | ⟨more, longer, -⟩
    · cases more with
      | nil => exact absurd (by rwa [longer, List.append_nil] at marked) unmarked
      | cons d more =>
        obtain ⟨rfl, -⟩ := List.cons.inj next
        exact absurd (longer ▸ List.mem_append_right front List.mem_cons_self) stops
    · exact absurd (longer ▸ List.mem_append_left more marked) unmarked

namespace Property

open Script

/-! Names. -/

theorem IsName.ne_nil {name : Text} (isName : IsName name) : name ≠ [] := by
  obtain ⟨-, -⟩ := isName
  exact List.cons_ne_nil _ _

theorem IsName.continues {name : Text} (isName : IsName name) : ∀ c ∈ name, continuesName c = true := by
  obtain ⟨starts, continues⟩ := isName
  refine List.forall_mem_cons.mpr ⟨?_, continues⟩
  rw [startsName, Bool.or_eq_true] at starts
  rw [continuesName, Char.isAlphanum, Bool.or_eq_true, Bool.or_eq_true]
  exact starts.imp_left Or.inl

theorem IsName.not_mem {name : Text} (isName : IsName name) {c : Char} (other : continuesName c = false) :
    c ∉ name := by
  intro member
  rw [isName.continues c member] at other
  cases other

theorem toNat_of_isAlpha {c : Char} (letter : c.isAlpha = true) : 65 ≤ c.toNat ∧ c.toNat ≤ 122 := by
  have codes : 'A'.val.toNat = 65 ∧ 'Z'.val.toNat = 90 ∧ 'a'.val.toNat = 97 ∧ 'z'.val.toNat = 122 :=
    ⟨rfl, rfl, rfl, rfl⟩
  have code : c.toNat = c.val.toNat := rfl
  rcases (Bool.or_eq_true _ _).mp letter with upper | lower
  · obtain ⟨low, high⟩ : 'A'.val ≤ c.val ∧ c.val ≤ 'Z'.val := of_decide_eq_true upper
    rw [UInt32.le_iff_toNat_le] at low high
    omega
  · obtain ⟨low, high⟩ := (Bool.and_eq_true _ _).mp lower
    have low : 'a'.val ≤ c.val := of_decide_eq_true low
    have high : c.val ≤ 'z'.val := of_decide_eq_true high
    rw [UInt32.le_iff_toNat_le] at low high
    omega

theorem toNat_of_continues {c : Char} (continues : continuesName c = true) :
    48 ≤ c.toNat ∧ c.toNat ≤ 122 := by
  rw [continuesName, Char.isAlphanum, Bool.or_eq_true, Bool.or_eq_true, beq_iff_eq] at continues
  rcases continues with (letter | digit) | rfl
  · have := toNat_of_isAlpha letter
    omega
  · have codes : '0'.toNat = 48 ∧ '9'.toNat = 57 := ⟨rfl, rfl⟩
    have := Char.isDigit_iff_toNat.mp digit
    omega
  · decide

theorem isBlank_of_continues {c : Char} (continues : continuesName c = true) :
    Text.isBlank c = false := by
  obtain ⟨low, high⟩ := toNat_of_continues continues
  simp [Text.isBlank, Text.inRanges]
  omega

theorem strip_of_isName {name : Text} (isName : IsName name) : Text.strip name = name := by
  rw [Text.strip_eq_self_iff]
  constructor
  · exact fun c first => isBlank_of_continues (isName.continues c (List.mem_of_head? first))
  · exact fun c last => isBlank_of_continues (isName.continues c (List.mem_of_getLast? last))

/-- A name is read up to a character that cannot go on with it. -/
theorem propertyName?_append {name : Text} (isName : IsName name) {stop : Char}
    (ends : continuesName stop = false) (undotted : stop ≠ '.') (rest : Text) :
    propertyName? (name ++ stop :: rest) = some (name, stop :: rest) := by
  obtain ⟨starts, continues⟩ := isName
  have kept : ∀ c ∈ _, (c.isAlphanum || c == '_' || c == '.') = true := fun c member => by
    rw [← continuesName, continues c member, Bool.true_or]
  have stops : (stop.isAlphanum || stop == '_' || stop == '.') = false := by
    rw [← continuesName, ends, Bool.false_or, beq_eq_false_iff_ne]
    exact undotted
  simp only [startsName] at starts
  rw [propertyName?, List.cons_append, name?, if_pos starts,
    Text.takeWhile_append_stop (p := fun c => c.isAlphanum || c == '_' || c == '.') stops,
    Text.dropWhile_append_stop (p := fun c => c.isAlphanum || c == '_' || c == '.') stops,
    List.takeWhile_eq_self_iff.mpr kept, List.dropWhile_eq_nil_iff.mpr kept, List.nil_append]

/-! Forms of declarations. -/

abbrev Quote := { c : Char // Text.isQuote c = true }

/-- The ways to declare a property in an `ext` block and outside, where `project.` may stand in front. -/
inductive Form : (inBlock : Bool) → Type
  /-- As in `name = "value"`. -/
  | plain : Form true
  /-- As in `ext.name = "value"`. -/
  | dotted (project : Bool) : Form false
  /-- As in `extra["name"] = "value"`. -/
  | indexed (project : Bool) (quote : Quote) (opening closing : Gap) : Form false
  /-- As in `extra.set("name", "value")`. -/
  | setter (project : Bool) (quote : Quote) (opening closing : Gap) : Form false

def owner (project : Bool) : Text := if project then "project." else []

namespace Form

variable {inBlock : Bool}

def word (name : Text) : Form inBlock → Text
  | plain => name
  | dotted project => owner project ++ ("ext.".toList ++ name)
  | indexed project _ _ _ => owner project ++ "extra[".toList
  | setter project _ _ _ => owner project ++ "extra.set".toList

def argument (name : Text) : Form inBlock → Text
  | plain | dotted _ => []
  | indexed _ quote opening closing =>
    opening.val ++ quote.val :: (name ++ quote.val :: (closing.val ++ [']']))
  | setter _ quote opening _ => '(' :: (opening.val ++ quote.val :: (name ++ [quote.val]))

def sign : Form inBlock → Char
  | plain | dotted _ | indexed .. => '='
  | setter .. => ','

def ending : Form inBlock → Text
  | plain | dotted _ | indexed .. => []
  | setter _ _ _ closing => closing.val ++ [')']

def reader : Form inBlock → Text → Option (Declaration × Text)
  | plain => assignment?
  | dotted _ => dottedAssignment?
  | indexed .. => indexedAssignment?
  | setter .. => setterCall?

def signs : Text := "(])=, \t"

end Form

/-- A line that declares a property, with the space between its parts. -/
structure Line (inBlock : Bool) where
  name : Text
  isName : IsName name
  quote : Quote
  value : Text
  nonempty : value ≠ []
  single : '\n' ∉ value
  unquoted : quote.val ∉ value
  form : Form inBlock
  indent : Gap
  before : Gap
  behind : Gap
  ending : Gap

namespace Line

variable {inBlock : Bool} (line : Line inBlock)

def declaration : Declaration := ⟨line.name, line.value⟩

def middle : Text :=
  line.form.argument line.name ++ (line.before.val ++ line.form.sign :: line.behind.val)

def literal : Text := line.quote.val :: (line.value ++ [line.quote.val])

def tail : Text := line.form.ending ++ line.ending.val

def statement : Text :=
  line.form.word line.name ++ (line.middle ++ (line.literal ++ line.tail))

def text : Text := line.indent.val ++ (line.statement ++ ['\n'])

end Line

/-! The code of a line. -/

/-- Whether a character may stand in the first word of a declaration. -/
def isWordChar (c : Char) : Bool := continuesName c || c == '.' || c == '['

theorem isWordChar_of_continues {c : Char} (continues : continuesName c = true) : isWordChar c = true := by
  rw [isWordChar, continues]
  rfl

theorem isPlain_of_isWordChar {c : Char} (inWord : isWordChar c = true) : isPlain c = true := by
  cases plain : isPlain c with
  | true => rfl
  | false =>
    have other : c = '"' ∨ c = '\'' ∨ c = '/' := by
      simpa [isPlain, Text.isQuote, or_iff_not_imp_left] using plain
    rcases other with rfl | rfl | rfl <;> cases inWord

theorem isDelimiter_of_isWordChar {c : Char} (inWord : isWordChar c = true) : isDelimiter c = false := by
  cases delimits : isDelimiter c with
  | false => rfl
  | true =>
    simp only [isDelimiter, decide_eq_true_eq, List.mem_cons, List.not_mem_nil, or_false] at delimits
    rcases delimits with rfl | rfl | rfl | rfl | rfl | rfl | rfl | rfl | rfl | rfl <;> cases inWord

theorem isGap_of_isWordChar {c : Char} (inWord : isWordChar c = true) : isGap c = false := by
  cases gap : isGap c with
  | false => rfl
  | true => rcases isGap_eq_true_iff.mp gap with rfl | rfl <;> cases inWord

theorem Quote.continuesName (quote : Quote) : continuesName quote.val = false := by
  obtain ⟨c, quotes⟩ := quote
  obtain rfl | rfl : c = '"' ∨ c = '\'' := by simpa [Text.isQuote] using quotes
  · rfl
  · rfl

theorem isWordChar_owner (project : Bool) : ∀ c ∈ owner project, isWordChar c = true := by
  cases project with
  | false => exact List.all_eq_true.mp rfl
  | true => exact List.all_eq_true.mp (by decide)

namespace Form

variable {inBlock : Bool} {name : Text}

theorem isWordChar_word (form : Form inBlock) (isName : IsName name) :
    ∀ c ∈ form.word name, isWordChar c = true := by
  have named : ∀ c ∈ name, isWordChar c = true := fun c member =>
    isWordChar_of_continues (isName.continues c member)
  cases form with
  | plain => exact named
  | dotted project =>
    have fixed : ∀ c ∈ "ext.".toList, isWordChar c = true := List.all_eq_true.mp (by decide)
    exact List.forall_mem_append.mpr
      ⟨isWordChar_owner project, List.forall_mem_append.mpr ⟨fixed, named⟩⟩
  | indexed project =>
    have fixed : ∀ c ∈ "extra[".toList, isWordChar c = true := List.all_eq_true.mp (by decide)
    exact List.forall_mem_append.mpr ⟨isWordChar_owner project, fixed⟩
  | setter project =>
    have fixed : ∀ c ∈ "extra.set".toList, isWordChar c = true := List.all_eq_true.mp (by decide)
    exact List.forall_mem_append.mpr ⟨isWordChar_owner project, fixed⟩

theorem word_ne_nil (form : Form inBlock) (isName : IsName name) : form.word name ≠ [] := by
  cases form with
  | plain => exact isName.ne_nil
  | dotted project => cases project <;> exact List.cons_ne_nil _ _
  | indexed project => cases project <;> exact List.cons_ne_nil _ _
  | setter project => cases project <;> exact List.cons_ne_nil _ _

theorem length_word (form : Form false) : "ext".length < (form.word name).length := by
  cases form with
  | dotted project =>
    simp only [word, List.length_append, String.length_toList]
    have : "ext".length < "ext.".length := by decide
    omega
  | indexed project =>
    simp only [word, List.length_append, String.length_toList]
    have : "ext".length < "extra[".length := by decide
    omega
  | setter project =>
    simp only [word, List.length_append, String.length_toList]
    have : "ext".length < "extra.set".length := by decide
    omega

theorem sign_cases (form : Form inBlock) : form.sign = '=' ∨ form.sign = ',' := by
  cases form with
  | setter => exact .inr rfl
  | _ => exact .inl rfl

theorem ending_subset (form : Form inBlock) : form.ending ⊆ [')', ' ', '\t'] := by
  cases form with
  | setter project quote opening closing =>
    exact List.append_subset.mpr ⟨Gap.subset closing (by decide) (by decide), by decide⟩
  | _ => exact List.nil_subset _

/-- Of a name in quotes, only what stands around the quotes is code. -/
theorem mark_argument (form : Form inBlock) (isName : IsName name) : ∃ marked,
    (∀ behind, mark (form.argument name ++ behind) = marked ++ mark behind) ∧ codeOf marked ⊆ signs := by
  have gap (gap : Gap) : gap.val ⊆ signs := Gap.subset gap (by decide) (by decide)
  have quoted (quote : Quote) (behind : Text) : mark (quote.val :: (name ++ quote.val :: behind)) =
      (⟨.literal, quote.val :: (name ++ [quote.val])⟩ : Token).marks ++ mark behind :=
    mark_quoted_append quote.property isName.ne_nil (isName.not_mem rfl)
      (isName.not_mem quote.continuesName) (isName.not_mem rfl) behind
  cases form with
  | plain => exact ⟨[], fun behind => rfl, List.nil_subset _⟩
  | dotted project => exact ⟨[], fun behind => rfl, List.nil_subset _⟩
  | indexed project quote opening closing =>
    have bracket : ∀ c ∈ [']'], isPlain c = true := List.all_eq_true.mp (by decide)
    refine ⟨asCode opening.val ++ ((⟨.literal, quote.val :: (name ++ [quote.val])⟩ : Token).marks ++
      (asCode closing.val ++ asCode [']'])), fun behind => ?_, ?_⟩
    · have whole : argument name (indexed project quote opening closing) ++ behind =
          opening.val ++ (quote.val :: (name ++ quote.val :: (closing.val ++ ([']'] ++ behind)))) := by
        simp [argument]
      rw [whole, mark_plain_append opening.isPlain, quoted, mark_plain_append closing.isPlain,
        mark_plain_append bracket]
      simp only [List.append_assoc]
    · simp only [codeOf_append, codeOf_asCode, codeOf_marks_literal, List.nil_append]
      exact List.append_subset.mpr ⟨gap opening, List.append_subset.mpr ⟨gap closing, by decide⟩⟩
  | setter project quote opening closing =>
    have paren : ∀ c ∈ ['('], isPlain c = true := List.all_eq_true.mp (by decide)
    refine ⟨asCode ['('] ++ (asCode opening.val ++
      (⟨.literal, quote.val :: (name ++ [quote.val])⟩ : Token).marks), fun behind => ?_, ?_⟩
    · have whole : argument name (setter project quote opening closing) ++ behind =
          ['('] ++ (opening.val ++ (quote.val :: (name ++ quote.val :: behind))) := by
        simp [argument]
      rw [whole, mark_plain_append paren, mark_plain_append opening.isPlain, quoted, List.append_assoc,
        List.append_assoc]
    · simp only [codeOf_append, codeOf_asCode, codeOf_marks_literal, List.append_nil]
      exact List.append_subset.mpr ⟨by decide, gap opening⟩

end Form

namespace Line

variable {inBlock : Bool} (line : Line inBlock)

theorem tail_subset : line.tail ⊆ [')', ' ', '\t'] :=
  List.append_subset.mpr ⟨line.form.ending_subset, Gap.subset line.ending (by decide) (by decide)⟩

theorem mark_text : ∃ others, mark line.text =
    asCode line.indent.val ++ (asCode (line.form.word line.name) ++ (others ++ [('\n', .code)])) ∧
      codeOf others ⊆ Form.signs := by
  have gap (gap : Gap) : gap.val ⊆ Form.signs := Gap.subset gap (by decide) (by decide)
  have word : ∀ c ∈ line.form.word line.name, isPlain c = true := fun c member =>
    isPlain_of_isWordChar (line.form.isWordChar_word line.isName c member)
  have sign : (∀ c ∈ [line.form.sign], isPlain c = true) ∧ [line.form.sign] ⊆ Form.signs := by
    rcases line.form.sign_cases with same | same
    · rw [same]
      exact ⟨List.all_eq_true.mp (by decide), by decide⟩
    · rw [same]
      exact ⟨List.all_eq_true.mp (by decide), by decide⟩
  obtain ⟨argument, marks, signs⟩ := line.form.mark_argument line.isName
  obtain ⟨literal, rest, marked, empty, within⟩ := mark_quoted line.quote.property line.nonempty
    line.single line.unquoted line.tail_subset
  have closing : rest ⊆ Form.signs := fun c member =>
    (by decide : [')', ' ', '\t'] ⊆ Form.signs) (line.tail_subset (within member))
  have whole : line.text = line.indent.val ++ (line.form.word line.name ++
      (line.form.argument line.name ++ (line.before.val ++ ([line.form.sign] ++ (line.behind.val ++
        line.quote.val :: (line.value ++ line.quote.val :: (line.tail ++ ['\n']))))))) := by
    simp [text, statement, middle, Line.literal]
  refine ⟨argument ++ (asCode line.before.val ++ (asCode [line.form.sign] ++ (asCode line.behind.val ++
    (literal ++ asCode rest)))), ?_, ?_⟩
  · rw [whole, mark_plain_append line.indent.isPlain, mark_plain_append word, marks,
      mark_plain_append line.before.isPlain, mark_plain_append sign.1,
      mark_plain_append line.behind.isPlain, marked]
    simp only [List.append_assoc]
  · simp only [codeOf_append, codeOf_asCode, empty, List.nil_append]
    exact List.append_subset.mpr ⟨signs, List.append_subset.mpr ⟨gap _, List.append_subset.mpr
      ⟨sign.2, List.append_subset.mpr ⟨gap _, closing⟩⟩⟩⟩

theorem isWhole_text : IsWhole line.text := by
  obtain ⟨others, marked, signs⟩ := line.mark_text
  have absent {c : Char} (other : c ∉ Form.signs) (outside : isWordChar c = false) (broken : c ≠ '\n') :
      c ∉ codeOf (mark line.text) := by
    have word : c ∉ line.form.word line.name := fun member => by
      rw [line.form.isWordChar_word line.isName c member] at outside
      cases outside
    have indent : c ∉ line.indent.val := fun member =>
      other (Gap.subset line.indent (by decide) (by decide) member)
    have behind : c ∉ codeOf others := fun member => other (signs member)
    simp [marked, word, indent, behind, broken]
  constructor
  · exact .inr ⟨asCode line.indent.val ++ (asCode (line.form.word line.name) ++ others), by
      rw [marked, List.append_assoc, List.append_assoc]⟩
  · exact .of_no_brace (absent (by decide) rfl (by decide)) (absent (by decide) rfl (by decide))

end Line

theorem Line.splits_text (line : Line false) :
    blocks "ext" line.text = [] ∧ Splits "ext" line.text := by
  have keyword : "ext".toList = ['e', 'x', 't'] := by decide
  obtain ⟨others, marked, signs⟩ := line.mark_text
  have indent : 'e' ∉ codeOf (asCode line.indent.val) := by
    rw [codeOf_asCode]
    exact fun member => absurd (line.indent.property _ member) (by decide)
  have behind : 'e' ∉ codeOf others := fun member => absurd (signs member) (by decide)
  have joined : ∀ c ∈ line.form.word line.name, isDelimiter c = false := fun c member =>
    isDelimiter_of_isWordChar (line.form.isWordChar_word line.isName c member)
  have longer : ['e', 'x', 't'].length < (line.form.word line.name).length := line.form.length_word
  have length : (mark line.text).length = line.text.length := length_mark _
  have free : (some '\n').all isDelimiter = true := rfl
  refine splits_of_found free fun rest => ?_
  rw [← length, marked, keyword, List.nil_append]
  exact blocksFrom_append_line indent joined longer behind (by decide) rest

/-! Reading a line back. -/

theorem valueAfter?_append {sign : Char} (solid : isGap sign = false) (before behind : Gap) {quote : Quote}
    {value : Text} (nonempty : value ≠ []) (single : '\n' ∉ value) (unquoted : quote.val ∉ value)
    (rest : Text) :
    valueAfter? [sign] (before.val ++ sign :: (behind.val ++ quote.val :: (value ++ quote.val :: rest))) =
      some (value, rest) := by
  have signed (s : Text) : Text.after? [sign] (sign :: s) = some s := Text.after?_eq_some_iff.mpr rfl
  rw [valueAfter?, skipGap_append, skipGap_cons solid, signed, Option.bind_eq_bind, Option.bind_some,
    skipGap_append, skipGap_cons (isGap_quote quote.property),
    quotedValue?_quoted quote.property nonempty single unquoted]

theorem quotedName?_append {name : Text} (isName : IsName name) (quote : Quote) (rest : Text) :
    quotedName? (quote.val :: (name ++ quote.val :: rest)) = some (name, rest) := by
  have unquoted : (!name.any Text.isQuote) = true := by
    simp only [Bool.not_eq_true', List.any_eq_false, Bool.not_eq_true]
    intro c member
    have plain := isPlain_of_isWordChar (isWordChar_of_continues (isName.continues c member))
    rw [isPlain, Bool.and_eq_true, Bool.not_eq_true'] at plain
    exact plain.1
  rw [quotedName?, quotedValue?_quoted quote.property isName.ne_nil (isName.not_mem rfl)
    (isName.not_mem quote.continuesName)]
  exact Option.filter_eq_some_iff.mpr ⟨rfl, unquoted⟩

theorem Gap.exists_append_eq_cons (gap : Gap) (c : Char) (rest : Text) : ∃ first more,
    gap.val ++ c :: rest = first :: more ∧ (first = c ∨ isGap first = true) := by
  obtain ⟨gap, gaps⟩ := gap
  cases gap with
  | nil => exact ⟨c, rest, rfl, .inl rfl⟩
  | cons first gap => exact ⟨first, gap ++ c :: rest, rfl, .inr (gaps first List.mem_cons_self)⟩

theorem assignment?_append {name : Text} (isName : IsName name) (before behind : Gap) {quote : Quote}
    {value : Text} (nonempty : value ≠ []) (single : '\n' ∉ value) (unquoted : quote.val ∉ value)
    (rest : Text) :
    assignment? (name ++ (before.val ++
      '=' :: (behind.val ++ quote.val :: (value ++ quote.val :: rest)))) =
        some (⟨name, value⟩, rest) := by
  have valued := valueAfter?_append (rfl : isGap '=' = false) before behind nonempty single unquoted rest
  obtain ⟨first, more, start, ends⟩ := Gap.exists_append_eq_cons before '='
    (behind.val ++ quote.val :: (value ++ quote.val :: rest))
  have stops : continuesName first = false ∧ first ≠ '.' := by
    rcases ends with rfl | gap
    · decide
    · rcases isGap_eq_true_iff.mp gap with rfl | rfl <;> decide
  rw [start] at valued ⊢
  rw [assignment?, propertyName?_append isName stops.1 stops.2, Option.bind_eq_bind, Option.bind_some]
  exact congrArg (Option.bind · _) valued

/-! The readers for lines outside the blocks. -/

def outsideReaders : List (Text → Option (Declaration × Text)) :=
  [dottedAssignment?, indexedAssignment?, setterCall?]

theorem dotted_mem_outsideReaders : dottedAssignment? ∈ outsideReaders := .head _

theorem indexed_mem_outsideReaders : indexedAssignment? ∈ outsideReaders := .tail _ (.head _)

theorem setter_mem_outsideReaders : setterCall? ∈ outsideReaders := .tail _ (.tail _ (.head _))

theorem eq_of_mem_outsideReaders {reader : Text → Option (Declaration × Text)}
    (outside : reader ∈ outsideReaders) :
    reader = dottedAssignment? ∨ reader = indexedAssignment? ∨ reader = setterCall? := by
  simpa [outsideReaders] using outside

theorem blank_of_outside {reader : Text → Option (Declaration × Text)} (outside : reader ∈ outsideReaders) :
    reader [] = none := by
  rcases eq_of_mem_outsideReaders outside with rfl | rfl | rfl <;> rfl

/-- They read a form in the same way with `project.` in front of it. -/
theorem reader_owner {reader : Text → Option (Declaration × Text)} (outside : reader ∈ outsideReaders)
    (project : Bool) (rest : Text) : reader (owner project ++ 'e' :: rest) = reader ('e' :: rest) := by
  cases project with
  | false => rfl
  | true => rcases eq_of_mem_outsideReaders outside with rfl | rfl | rfl <;> rfl

theorem indexedAssignment?_append (opening closing : Gap) {name : Text} (isName : IsName name)
    (quote : Quote) (rest : Text) :
    indexedAssignment? ("extra[".toList ++ (opening.val ++
      quote.val :: (name ++ quote.val :: (closing.val ++ ']' :: rest)))) =
        (valueAfter? "=" rest).map fun (value, rest) => (⟨name, value⟩, rest) := by
  have opened (s : Text) :
      Text.after? "extra[" (skipOptional "project." ("extra[".toList ++ s)) = some s := rfl
  have closed : Text.after? "]" (']' :: rest) = some rest := Text.after?_eq_some_iff.mpr rfl
  simp only [indexedAssignment?, opened, Option.bind_eq_bind, Option.bind_some, skipGap_append,
    skipGap_cons (isGap_quote quote.property), quotedName?_append isName,
    skipGap_cons (rfl : isGap ']' = false), closed]
  cases valueAfter? "=" rest <;> rfl

theorem setterCall?_append (opening : Gap) {name : Text} (isName : IsName name) (quote : Quote)
    (rest : Text) :
    setterCall? ("extra.set".toList ++ '(' :: (opening.val ++
      quote.val :: (name ++ quote.val :: rest))) =
        (valueAfter? "," rest).map fun (value, rest) => (⟨name, value⟩, rest) := by
  have opened (s : Text) :
      Text.after? "extra.set(" (skipOptional "project." ("extra.set".toList ++ '(' :: s)) = some s := rfl
  simp only [setterCall?, opened, Option.bind_eq_bind, Option.bind_some, skipGap_append,
    skipGap_cons (isGap_quote quote.property), quotedName?_append isName]
  cases valueAfter? "," rest <;> rfl

namespace Line

theorem statement_eq {inBlock : Bool} (line : Line inBlock) :
    line.statement = line.form.word line.name ++ (line.form.argument line.name ++ (line.before.val ++
      line.form.sign :: (line.behind.val ++
        line.quote.val :: (line.value ++ line.quote.val :: line.tail)))) := by
  simp [statement, middle, literal]

theorem reader_statement {inBlock : Bool} (line : Line inBlock) :
    line.form.reader line.statement = some (line.declaration, line.tail) := by
  have whole := line.statement_eq
  have assigned := assignment?_append line.isName line.before line.behind line.nonempty line.single
    line.unquoted line.tail
  have valued {sign : Char} (solid : isGap sign = false) := valueAfter?_append solid line.before
    line.behind line.nonempty line.single line.unquoted line.tail
  cases form : line.form with
  | plain =>
    rw [form] at whole
    rw [whole]
    exact assigned
  | dotted project =>
    simp only [form, Form.word, Form.argument, List.append_assoc, List.nil_append] at whole
    rw [whole]
    exact (reader_owner dotted_mem_outsideReaders project _).trans assigned
  | indexed project quote opening closing =>
    simp only [form, Form.word, Form.argument, List.append_assoc, List.cons_append, List.nil_append]
      at whole
    have read := indexedAssignment?_append opening closing line.isName quote
    rw [whole]
    exact ((reader_owner indexed_mem_outsideReaders project _).trans (read _)).trans
      (congrArg (Option.map _) (valued rfl))
  | setter project quote opening closing =>
    simp only [form, Form.word, Form.argument, List.append_assoc, List.cons_append, List.nil_append]
      at whole
    have read := setterCall?_append opening line.isName quote
    rw [whole]
    exact ((reader_owner setter_mem_outsideReaders project _).trans (read _)).trans
      (congrArg (Option.map _) (valued rfl))

section Text

variable {inBlock : Bool} (line : Line inBlock)

theorem exists_word_eq_cons : ∃ first more,
    line.form.word line.name = first :: more ∧ isGap first = false := by
  obtain ⟨first, more, start⟩ := List.exists_cons_of_ne_nil (line.form.word_ne_nil line.isName)
  have inWord := line.form.isWordChar_word line.isName first (start ▸ List.mem_cons_self)
  exact ⟨first, more, start, isGap_of_isWordChar inWord⟩

theorem not_mem_statement : '\n' ∉ line.statement := by
  have gap (gap : Gap) : '\n' ∉ gap.val := gap.not_mem rfl
  have word : '\n' ∉ line.form.word line.name := fun member => by
    cases line.form.isWordChar_word line.isName _ member
  have quote (quote : Quote) : '\n' ≠ quote.val := fun same => by
    have quotes := quote.property
    rw [← same] at quotes
    cases quotes
  have name : '\n' ∉ line.name := line.isName.not_mem rfl
  have argument : '\n' ∉ line.form.argument line.name := by
    cases line.form with
    | plain => exact List.not_mem_nil
    | dotted => exact List.not_mem_nil
    | indexed _ nameQuote opening closing => simp [Form.argument, gap, name, quote]
    | setter _ nameQuote opening closing => simp [Form.argument, gap, name, quote]
  have sign : '\n' ≠ line.form.sign := by
    rcases line.form.sign_cases with same | same
    · rw [same]
      decide
    · rw [same]
      decide
  have tail : '\n' ∉ line.tail := fun member => absurd (line.tail_subset member) (by decide)
  simp [statement_eq, word, argument, gap, sign, quote, line.single, tail]

variable {reader : Text → Option (Declaration × Text)}

theorem statements_text_append (rest : Text) : statements reader (line.text ++ rest) =
    ((reader line.statement).map fun (value, _) => ⟨line.indent.val.length, value⟩).toList ++
      (statements reader rest).map (Found.shift line.text.length) := by
  obtain ⟨first, more, start, solid⟩ := line.exists_word_eq_cons
  have begins : line.statement = first :: (more ++ (line.middle ++ (line.literal ++ line.tail))) := by
    rw [statement, start, List.cons_append]
  have whole : line.text ++ rest = line.indent.val ++ (line.statement ++ '\n' :: rest) := by
    simp [text]
  have length : line.text.length = (line.indent.val ++ line.statement).length + 1 := by
    simp only [text, List.length_append, List.length_singleton]
    omega
  rw [whole, statements_line line.indent begins solid line.not_mem_statement, length]

theorem codeStatements_text (blank : reader [] = none) : codeStatements reader line.text =
    ((reader line.statement).map fun (value, _) => ⟨line.indent.val.length, value⟩).toList := by
  have alone : statements reader (line.text ++ []) = _ := line.statements_text_append []
  rw [List.append_nil, statements_nil blank, List.map_nil, List.append_nil] at alone
  have kind : (classify line.text)[line.indent.val.length]? = some .code := by
    obtain ⟨others, marked, -⟩ := line.mark_text
    obtain ⟨first, more, start, -⟩ := line.exists_word_eq_cons
    rw [classify, marked, start]
    simp [asCode]
  rw [codeStatements, alone]
  cases reader line.statement with
  | none => rfl
  | some read => exact List.filter_cons_of_pos (by simp [kind])

end Text

/-- Of the readers for lines outside the blocks, only that of its form reads a line. -/
theorem codeCandidates_text (line : Line false) :
    codeCandidates line.text = [⟨line.indent.val.length, line.declaration⟩] := by
  have read := line.reader_statement
  have whole := line.statement_eq
  rw [codeCandidates, codeBlockDeclarations, line.splits_text.1, List.flatMap_nil, List.nil_append,
    line.codeStatements_text rfl, line.codeStatements_text rfl, line.codeStatements_text rfl]
  cases form : line.form with
  | dotted project =>
    simp only [form, Form.word, List.append_assoc] at whole
    rw [form, Form.reader] at read
    have unindexed : indexedAssignment? line.statement = none := by
      rw [whole]
      exact reader_owner indexed_mem_outsideReaders project _
    have unset : setterCall? line.statement = none := by
      rw [whole]
      exact reader_owner setter_mem_outsideReaders project _
    rw [read, unindexed, unset]
    rfl
  | indexed project quote opening closing =>
    simp only [form, Form.word, List.append_assoc] at whole
    rw [form, Form.reader] at read
    have undotted : dottedAssignment? line.statement = none := by
      rw [whole]
      exact reader_owner dotted_mem_outsideReaders project _
    have unset : setterCall? line.statement = none := by
      rw [whole]
      exact reader_owner setter_mem_outsideReaders project _
    rw [read, undotted, unset]
    rfl
  | setter project quote opening closing =>
    simp only [form, Form.word, List.append_assoc] at whole
    rw [form, Form.reader] at read
    have undotted : dottedAssignment? line.statement = none := by
      rw [whole]
      exact reader_owner dotted_mem_outsideReaders project _
    have unindexed : indexedAssignment? line.statement = none := by
      rw [whole]
      exact reader_owner indexed_mem_outsideReaders project _
    rw [read, undotted, unindexed]
    rfl

theorem declarations_text (line : Line false) : declarations line.text = [line.declaration] := by
  rw [declarations_eq, line.codeCandidates_text, List.mergeSort_singleton]
  rfl

end Line

end Property

end GradlePublishing
