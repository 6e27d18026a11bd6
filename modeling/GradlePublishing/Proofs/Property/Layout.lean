import GradlePublishing.Proofs.Property.Line
import GradlePublishing.Proofs.Table

/-!
Scripts laid out from the extra properties they declare, on lines of their own or in `ext` blocks. Reading
such a script gives every name the value of its last declaration, whatever forms the declarations have and
whatever stands in their values (`extra_layout`).
-/

namespace GradlePublishing.Property

open Script

theorem isBlockName_ext : IsBlockName "ext" := by decide

structure ExtBlock where
  frame : Frame
  lines : List (Line true)

/-- A declaration by itself, or a block of them. -/
inductive Item
  | alone (line : Line false)
  | inBlock (block : ExtBlock)

/-- A script of declarations, with or without a line break at its end. -/
structure Layout where
  items : List Item
  ended : Bool

def ExtBlock.enclosed (block : ExtBlock) : Enclosed :=
  { block.frame with
    keyword := "ext"
    name := isBlockName_ext
    inner := block.lines.flatMap Line.text
    whole := isWhole_flatMap fun line _ => line.isWhole_text }

namespace Item

def text : Item → Text
  | alone line => line.text
  | inBlock block => block.enclosed.text

def declared : Item → List Declaration
  | alone line => [line.declaration]
  | inBlock block => block.lines.map Line.declaration

end Item

namespace Layout

variable (layout : Layout)

def lines : Text := layout.items.flatMap Item.text

def text : Text := if layout.ended then layout.lines else layout.lines.dropLast

def declared : List Declaration := layout.items.flatMap Item.declared

end Layout

/-- The value in the last declaration of a name. -/
def lastValue? (declared : List Declaration) (name : Text) : Option Text :=
  (declared.reverse.find? (·.name = name)).map Declaration.value

/-! The lines of an `ext` block. -/

theorem Line.assignment?_statement (line : Line true) :
    assignment? line.statement = some (line.declaration, line.tail) := by
  have read := line.reader_statement
  cases form : line.form with
  | plain => rwa [form] at read

theorem codeStatements_eq_nil {reader : Text → Option (Declaration × Text)} {content : Text}
    (nothing : statements reader content = []) : codeStatements reader content = [] := by
  rw [codeStatements, nothing, List.filter_nil]

theorem statements_gap {reader : Text → Option (Declaration × Text)} (blank : reader [] = none)
    (gap : Gap) : statements reader gap.val = [] := by
  have skipped : skipGap gap.val = [] := List.dropWhile_eq_nil_iff.mpr gap.property
  have inLine : '\n' ∉ gap.val := gap.not_mem rfl
  rw [statements, Text.lines, List.splitOn_eq_singleton inLine]
  simp [linesFrom, skipped, blank]

theorem map_value_inOrder_lines (lines : List (Line true)) :
    (inOrder (codeStatements assignment? (lines.flatMap Line.text))).map Found.value =
      lines.map Line.declaration := by
  have reads : ReadsByLine (codeStatements assignment?) := readsByLine_codeStatements rfl
  induction lines with
  | nil =>
    rw [List.flatMap_nil, codeStatements_eq_nil (statements_nil rfl), inOrder, List.mergeSort_nil]
    rfl
  | cons line lines ih =>
    have apart := ReadsApart.of_readsByLine reads line.isWhole_text.ends (lines.flatMap Line.text)
    rw [List.flatMap_cons, apart.map_value_inOrder, ih, line.codeStatements_text rfl,
      line.assignment?_statement]
    exact congrArg (· ++ _) (congrArg _ (List.mergeSort_singleton _))

namespace ExtBlock

variable (block : ExtBlock)

theorem map_value_inOrder_body :
    (inOrder (codeStatements assignment? block.enclosed.body)).map Found.value =
      block.lines.map Line.declaration := by
  have reads : ReadsByLine (codeStatements assignment?) := readsByLine_codeStatements rfl
  have lineBreak : EndsLine ['\n'] := .inr ⟨[], by rw [mark_break, mark_nil]; rfl⟩
  have first : codeStatements assignment? ['\n'] = [] := codeStatements_eq_nil (by rfl)
  have last : codeStatements assignment? block.enclosed.closing.val = [] :=
    codeStatements_eq_nil (statements_gap rfl _)
  have empty : (inOrder []).map Found.value = [] := by rw [inOrder, List.mergeSort_nil, List.map_nil]
  have begins := ReadsApart.of_readsByLine reads lineBreak
    (block.enclosed.inner ++ block.enclosed.closing.val)
  have ends := ReadsApart.of_readsByLine reads block.enclosed.whole.ends block.enclosed.closing.val
  calc
    _ = (inOrder (codeStatements assignment?
        (['\n'] ++ (block.enclosed.inner ++ block.enclosed.closing.val)))).map Found.value := rfl
    _ = [] ++ ((inOrder (codeStatements assignment? block.enclosed.inner)).map Found.value ++ []) := by
      rw [begins.map_value_inOrder, ends.map_value_inOrder, first, last, empty]
    _ = block.lines.map Line.declaration := by
      rw [List.nil_append, List.append_nil]
      exact map_value_inOrder_lines block.lines

end ExtBlock

/-! What the readers for lines outside the blocks make of a block. -/

/-- A word without a dot or a bracket starts none of their forms. -/
theorem reader_eq_none {reader : Text → Option (Declaration × Text)} (outside : reader ∈ outsideReaders)
    {word : Text} {stop : Char} (undotted : '.' ∉ word) (unbracketed : '[' ∉ word)
    (stops : stop ∉ "project.extra.set([".toList) (rest : Text) : reader (word ++ stop :: rest) = none := by
  have absent {lead : Text} {c : Char} (marked : c ∈ lead) (unmarked : c ∉ word)
      (letters : lead ⊆ "project.extra.set([".toList) :
      Text.after? lead (word ++ stop :: rest) = none :=
    Text.after?_eq_none marked unmarked (fun member => stops (letters member)) rest
  have skipped : skipOptional "project." (word ++ stop :: rest) = word ++ stop :: rest := by
    rw [skipOptional, absent (by decide) undotted (by decide), Option.getD_none]
  rcases eq_of_mem_outsideReaders outside with rfl | rfl | rfl
  · rw [dottedAssignment?, skipped, absent (by decide) undotted (by decide)]
    rfl
  · rw [indexedAssignment?, skipped, absent (by decide) unbracketed (by decide)]
    rfl
  · rw [setterCall?, skipped, absent (by decide) undotted (by decide)]
    rfl

theorem reader_eq_none_of_gap {reader : Text → Option (Declaration × Text)}
    (outside : reader ∈ outsideReaders) {word : Text} (undotted : '.' ∉ word) (unbracketed : '[' ∉ word)
    (gap : Gap) {stop : Char} (stops : stop ∉ "project.extra.set([".toList) (rest : Text) :
    reader (word ++ (gap.val ++ stop :: rest)) = none := by
  obtain ⟨first, more, start, ends⟩ := Gap.exists_append_eq_cons gap stop rest
  have apart : first ∉ "project.extra.set([".toList := by
    rcases ends with rfl | blank
    · exact stops
    · rcases isGap_eq_true_iff.mp blank with rfl | rfl <;> decide
  rw [start]
  exact reader_eq_none outside undotted unbracketed apart more

theorem statements_lines {reader : Text → Option (Declaration × Text)} (outside : reader ∈ outsideReaders)
    (lines : List (Line true)) {rest : Text} (nothing : statements reader rest = []) :
    statements reader (lines.flatMap Line.text ++ rest) = [] := by
  induction lines with
  | nil => exact nothing
  | cons line lines ih =>
    have unread : reader line.statement = none := by
      have whole := line.statement_eq
      cases form : line.form with
      | plain =>
        simp only [form, Form.word, Form.argument, Form.sign, List.nil_append] at whole
        rw [whole]
        exact reader_eq_none_of_gap outside (line.isName.not_mem rfl) (line.isName.not_mem rfl)
          line.before (by decide) _
    rw [List.flatMap_cons, List.append_assoc, line.statements_text_append, unread, ih]
    rfl

namespace ExtBlock

variable (block : ExtBlock)

theorem statements_text {reader : Text → Option (Declaration × Text)} (outside : reader ∈ outsideReaders) :
    statements reader block.enclosed.text = [] := by
  have opening : reader ("ext".toList ++ (block.frame.gap.val ++ ['{'])) = none :=
    reader_eq_none_of_gap outside (by decide) (by decide) block.frame.gap (by decide) []
  have closing : reader ['}'] = none :=
    reader_eq_none outside List.not_mem_nil List.not_mem_nil (by decide) []
  have single : '\n' ∉ "ext".toList ++ (block.frame.gap.val ++ ['{']) := by
    have gap : '\n' ∉ block.frame.gap.val := block.frame.gap.not_mem rfl
    simp [gap]
  have whole : block.enclosed.text = block.frame.indent.val ++
      (("ext".toList ++ (block.frame.gap.val ++ ['{'])) ++ '\n' :: (block.lines.flatMap Line.text ++
        (block.frame.closing.val ++ (['}'] ++ '\n' :: [])))) := by
    simp [enclosed, Enclosed.text, Enclosed.body]
  have last : statements reader (block.frame.closing.val ++ (['}'] ++ '\n' :: [])) = [] := by
    rw [statements_line block.frame.closing rfl (by decide) (by decide), closing,
      statements_nil (blank_of_outside outside)]
    rfl
  have begins : "ext".toList ++ (block.frame.gap.val ++ ['{']) =
      'e' :: (['x', 't'] ++ (block.frame.gap.val ++ ['{'])) :=
    congrArg (· ++ _) (by decide : "ext".toList = ['e', 'x', 't'])
  rw [whole, statements_line block.frame.indent begins rfl single, opening,
    statements_lines outside block.lines last]
  rfl

theorem splits_text : blocks "ext" block.enclosed.text = [block.enclosed.located] ∧
    Splits "ext" block.enclosed.text :=
  block.enclosed.splits_text

theorem declarations_text : declarations block.enclosed.text = block.lines.map Line.declaration := by
  have unread {reader : Text → Option (Declaration × Text)} (outside : reader ∈ outsideReaders) :
      codeStatements reader block.enclosed.text = [] :=
    codeStatements_eq_nil (block.statements_text outside)
  rw [declarations_eq, codeCandidates, unread dotted_mem_outsideReaders,
    unread indexed_mem_outsideReaders, unread setter_mem_outsideReaders, codeBlockDeclarations,
    block.splits_text.1, List.flatMap_singleton, List.append_nil, List.append_nil, List.append_nil]
  exact (map_value_inOrder_shift _ _).trans block.map_value_inOrder_body

end ExtBlock

namespace Item

theorem ends_text (item : Item) : EndsLine item.text := by
  cases item with
  | alone line => exact line.isWhole_text.ends
  | inBlock block => exact block.enclosed.isWhole_text.ends

theorem splits_text (item : Item) : Splits "ext" item.text := by
  cases item with
  | alone line => exact line.splits_text.2
  | inBlock block => exact block.splits_text.2

theorem declarations_text (item : Item) : declarations item.text = item.declared := by
  cases item with
  | alone line => exact line.declarations_text
  | inBlock block => exact block.declarations_text

end Item

theorem declarations_nil : declarations [] = [] := by
  have statements {reader : Text → Option (Declaration × Text)} (blank : reader [] = none) :
      codeStatements reader [] = [] :=
    codeStatements_eq_nil (statements_nil blank)
  have inBlocks : blocks "ext" [] = [] := by rw [blocks, mark_nil, blocksFrom]
  rw [declarations_eq, codeCandidates, codeBlockDeclarations, inBlocks, statements rfl, statements rfl,
    statements rfl]
  exact congrArg _ List.mergeSort_nil

namespace Layout

variable (layout : Layout)

theorem ends_lines : EndsLine layout.lines := by
  rw [lines]
  induction layout.items with
  | nil => exact .inl rfl
  | cons item items ih =>
    rw [List.flatMap_cons]
    exact item.ends_text.append ih

theorem declarations_lines : declarations layout.lines = layout.declared := by
  rw [lines, declared]
  induction layout.items with
  | nil => exact declarations_nil
  | cons item items ih =>
    rw [List.flatMap_cons, declarations_append item.ends_text item.splits_text, item.declarations_text, ih,
      List.flatMap_cons]

theorem declarations_text : declarations layout.text = layout.declared := by
  rw [← declarations_lines, text]
  split
  · rfl
  · have ends := layout.ends_lines
    rcases ends.eq_append with empty | ⟨before, whole⟩
    · rw [empty]
      rfl
    · rw [whole] at ends ⊢
      rw [List.dropLast_concat, declarations_concat_break ends]

theorem isName_of_mem_declared {declaration : Declaration} (member : declaration ∈ layout.declared) :
    IsName declaration.name := by
  obtain ⟨item, -, inside⟩ := List.mem_flatMap.mp member
  cases item with
  | alone line =>
    rw [List.mem_singleton.mp inside]
    exact line.isName
  | inBlock block =>
    obtain ⟨line, -, rfl⟩ := List.mem_map.mp inside
    exact line.isName

end Layout

theorem get?_ofList_declared (declared : List Declaration) (name : Text) :
    (Table.ofList (declared.map fun d => (d.name, d.value))).get? name = lastValue? declared name := by
  induction declared using List.reverseRecOn with
  | nil => rfl
  | append_singleton declared last ih =>
    have set : Table.ofList ((declared ++ [last]).map fun d => (d.name, d.value)) =
        (Table.ofList (declared.map fun d => (d.name, d.value))).set last.name last.value := by
      rw [Table.ofList, List.map_append, List.foldl_append]
      rfl
    have first : lastValue? (declared ++ [last]) name =
        if name = last.name then some last.value else lastValue? declared name := by
      rw [lastValue?, List.reverse_concat, List.find?_cons]
      by_cases same : name = last.name
      · simp [same]
      · simp [same, Ne.symm same, lastValue?]
    rw [set, Table.get?_set, ih, first]

/-- Reading a script that is laid out from its declarations gives the table that results from setting them
one after the other, in which every name has the value of its last declaration. -/
theorem extra_layout (layout : Layout) :
    extra layout.text = .ofList (layout.declared.map fun d => (d.name, d.value)) ∧
      ∀ name, (extra layout.text).get? name = lastValue? layout.declared name := by
  have table : extra layout.text = .ofList (layout.declared.map fun d => (d.name, d.value)) := by
    rw [extra, layout.declarations_text]
    congr 1
    apply List.map_congr_left
    intro declaration member
    rw [strip_of_isName (layout.isName_of_mem_declared member)]
  refine ⟨table, fun name => ?_⟩
  rw [table, get?_ofList_declared]

/-! A property that an `ext` block declares, and declared once more behind it. The first value holds braces, a
comment mark and a backslash that hides its closing quote; the second looks like a declaration. -/

def noSpace : Gap := ⟨"".toList, List.all_eq_true.mp rfl⟩

def oneSpace : Gap := ⟨" ".toList, List.all_eq_true.mp rfl⟩

def indentation : Gap := ⟨"\t".toList, List.all_eq_true.mp rfl⟩

def blockLine : Line true where
  name := ['a']
  isName := .intro rfl (List.forall_mem_nil _)
  quote := ⟨'"', rfl⟩
  value := r#"} /* { \"#
  nonempty := by decide
  single := by decide
  unquoted := by decide
  form := .plain
  indent := indentation
  before := oneSpace
  behind := oneSpace
  ending := noSpace

def setterLine : Line false where
  name := ['a']
  isName := .intro rfl (List.forall_mem_nil _)
  quote := ⟨'\'', rfl⟩
  value := "ext.a = \"1\""
  nonempty := by decide
  single := by decide
  unquoted := by decide
  form := .setter true ⟨'"', rfl⟩ noSpace noSpace
  indent := oneSpace
  before := noSpace
  behind := oneSpace
  ending := noSpace

def twiceLayout : Layout where
  items := [.inBlock ⟨⟨noSpace, oneSpace, noSpace⟩, [blockLine]⟩, .alone setterLine]
  ended := false

example : twiceLayout.text = r#"ext {
	a = "} /* { \"
}
 project.extra.set("a", 'ext.a = "1"')"#.toList ∧
    lastValue? twiceLayout.declared ['a'] = some "ext.a = \"1\"".toList := by
  decide +kernel

end GradlePublishing.Property
