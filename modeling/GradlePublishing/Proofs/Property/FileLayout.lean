import GradlePublishing.Proofs.Script.WholeLine
import GradlePublishing.Proofs.Text.Split
import GradlePublishing.Proofs.Text.Utf8
import GradlePublishing.Property.Source

/-!
Properties files laid out from blank lines, comments and entries, with line ends of any kind. Reading such a file
gives the table in which the values of the entries are set one after the other (`load_layout`), whatever the
comments and the values hold.
-/

namespace GradlePublishing.Property

open Script

def isBreak (c : Char) : Bool := c == '\n' || c == '\r'

abbrev LineText := { s : Text // ∀ c ∈ s, isBreak c = false }

/-- An entry of a properties file, with the space between its parts. -/
structure FileEntry where
  indent : Gap
  name : Text
  gap : Gap
  separator : Char
  value : LineText
  nonempty : name ≠ []
  named : ∀ c ∈ name, endsName c = false
  separates : separator = '=' ∨ separator = ':'

inductive FileLine
  | blank (text : LineText) (blank : ∀ c ∈ text.val, Text.isBlank c = true)
  | comment (indent : Gap) (mark : Char) (marks : mark = '#' ∨ mark = '!') (text : LineText)
  | setting (entry : FileEntry)

inductive LineEnd
  | feed
  | carriage
  | both
  deriving DecidableEq, Repr

/-- A properties file: lines with their ends, and perhaps a last one that is not ended. -/
structure FileLayout where
  lines : List (FileLine × LineEnd)
  last : Option FileLine

def FileEntry.text (entry : FileEntry) : Text :=
  entry.indent.val ++ (entry.name ++ (entry.gap.val ++ entry.separator :: entry.value.val))

namespace FileLine

def text : FileLine → Text
  | blank text _ => text.val
  | comment indent mark _ text => indent.val ++ mark :: text.val
  | setting entry => entry.text

def setting? : FileLine → Option (Text × Text)
  | blank _ _ => none
  | comment _ _ _ _ => none
  | setting entry => some (entry.name, Text.unquote (Text.strip entry.value.val))

end FileLine

def LineEnd.text : LineEnd → Text
  | feed => ['\n']
  | carriage => ['\r']
  | both => ['\r', '\n']

namespace FileLayout

variable (layout : FileLayout)

def text : Text :=
  (layout.lines.flatMap fun line => line.1.text ++ line.2.text) ++ (layout.last.map FileLine.text).getD []

def settings : List (Text × Text) :=
  (layout.lines.map Prod.fst ++ layout.last.toList).filterMap FileLine.setting?

/-- Every entry gives its name its value, unless that is empty. -/
def table : Table :=
  layout.settings.foldl
    (fun table setting => if setting.2 = [] then table else table.set setting.1 setting.2) ∅

end FileLayout

/-! Reading one line. -/

theorem endsName_of_isBlank {c : Char} (blank : Text.isBlank c = true) : endsName c = true := by
  rw [endsName, blank, Bool.or_true]

theorem endsName_of_isGap {c : Char} (gap : isGap c = true) : endsName c = true := by
  rcases isGap_eq_true_iff.mp gap with rfl | rfl <;> decide

theorem not_entry_of_nameless {line : Text} (stops : ∀ c, (skipGap line).head? = some c → endsName c = true) :
    entry? line = none := by
  have nameless : (skipGap line).takeWhile (fun c => !endsName c) = [] := by
    cases rest : skipGap line with
    | nil => rfl
    | cons c more =>
      have ends := stops c (by rw [rest, List.head?_cons])
      exact List.takeWhile_cons_of_neg (by simp [ends])
  unfold entry?
  simp only [nameless]
  split <;> rfl

theorem not_entry_of_blank {s : Text} (blank : ∀ c ∈ s, Text.isBlank c = true) : entry? s = none := by
  apply not_entry_of_nameless
  intro c first
  have member : c ∈ s := (List.dropWhile_suffix isGap).subset (List.mem_of_mem_head? first)
  exact endsName_of_isBlank (blank c member)

theorem skipGap_indent (indent : Gap) {c : Char} (solid : isGap c = false) (s : Text) :
    skipGap (indent.val ++ c :: s) = c :: s := by
  rw [skipGap, List.dropWhile_append_of_pos indent.property]
  exact List.dropWhile_cons_of_neg (by simp [solid])

theorem not_entry_of_comment (indent : Gap) {mark : Char} (marks : mark = '#' ∨ mark = '!') (s : Text) :
    entry? (indent.val ++ mark :: s) = none := by
  have known : isGap mark = false ∧ endsName mark = true := by
    rcases marks with rfl | rfl <;> decide
  apply not_entry_of_nameless
  rw [skipGap_indent indent known.1]
  intro c first
  cases first
  exact known.2

theorem FileEntry.entry_text (entry : FileEntry) :
    entry? entry.text = some (entry.name, Text.unquote (Text.strip entry.value.val)) := by
  have separator : isGap entry.separator = false ∧ endsName entry.separator = true ∧
      (entry.separator == '=' || entry.separator == ':') = true := by
    rcases entry.separates with same | same
    all_goals
      rw [same]
      decide
  have stops : ∀ c, (entry.gap.val ++ entry.separator :: entry.value.val).head? = some c →
      (!endsName c) = false := by
    obtain ⟨gap, gaps⟩ := entry.gap
    intro c first
    cases gap with
    | nil =>
      cases first
      rw [separator.2.1, Bool.not_true]
    | cons d gap =>
      cases first
      rw [endsName_of_isGap (gaps c List.mem_cons_self), Bool.not_true]
  have letters : ∀ c ∈ entry.name, (!endsName c) = true := by
    intro c member
    rw [entry.named c member, Bool.not_false]
  have start : skipGap entry.text = entry.name ++ (entry.gap.val ++ entry.separator :: entry.value.val) := by
    obtain ⟨c, more, same⟩ := List.exists_cons_of_ne_nil entry.nonempty
    have solid : isGap c = false := by
      cases gap : isGap c with
      | false => rfl
      | true =>
        have other := entry.named c (same ▸ List.mem_cons_self)
        rw [endsName_of_isGap gap] at other
        cases other
    rw [FileEntry.text, same, List.cons_append, skipGap_indent entry.indent solid]
  have name := Text.takeWhile_append_of_head? stops entry.name
  have rest := Text.dropWhile_append_of_head? stops entry.name
  rw [List.takeWhile_eq_self_iff.mpr letters] at name
  rw [List.dropWhile_eq_nil_iff.mpr letters, List.nil_append] at rest
  have filled : entry.name.isEmpty = false := by simpa using entry.nonempty
  unfold entry?
  simp only [start, name, rest, skipGap_indent entry.gap separator.1, filled, separator.2.2]
  rfl

theorem FileLine.entry_text (line : FileLine) : entry? line.text = line.setting? := by
  cases line with
  | blank text blank => exact not_entry_of_blank blank
  | comment indent mark marks text => exact not_entry_of_comment indent marks text.val
  | setting entry => exact entry.entry_text

/-! Reading line by line. -/

theorem unifyLineEnds_cons {c : Char} (other : c ≠ '\r') (s : Text) :
    Text.unifyLineEnds (c :: s) = c :: Text.unifyLineEnds s := by
  rw [Text.unifyLineEnds]
  · exact fun _ same _ => other same
  · exact other

theorem unifyLineEnds_append {s : Text} (single : '\r' ∉ s) (rest : Text) :
    Text.unifyLineEnds (s ++ rest) = s ++ Text.unifyLineEnds rest := by
  induction s with
  | nil => rfl
  | cons c s ih =>
    rw [List.mem_cons, not_or] at single
    rw [List.cons_append, unifyLineEnds_cons (Ne.symm single.1), ih single.2, List.cons_append]

theorem FileLine.unbroken (line : FileLine) : ∀ c ∈ line.text, isBreak c = false := by
  have ofGap (gap : Gap) : ∀ c ∈ gap.val, isBreak c = false := by
    intro c member
    rcases isGap_eq_true_iff.mp (gap.property c member) with rfl | rfl <;> rfl
  cases line with
  | blank text blank => exact text.property
  | comment indent mark marks text =>
    have sign : isBreak mark = false := by rcases marks with rfl | rfl <;> rfl
    exact List.forall_mem_append.mpr ⟨ofGap indent, List.forall_mem_cons.mpr ⟨sign, text.property⟩⟩
  | setting entry =>
    have name : ∀ c ∈ entry.name, isBreak c = false := by
      intro c member
      cases breaks : isBreak c with
      | false => rfl
      | true =>
        have named := entry.named c member
        obtain rfl | rfl : c = '\n' ∨ c = '\r' := by simpa [isBreak] using breaks
        all_goals cases named
    have sign : isBreak entry.separator = false := by
      rcases entry.separates with same | same
      all_goals
        rw [same]
        rfl
    exact List.forall_mem_append.mpr ⟨ofGap entry.indent, List.forall_mem_append.mpr ⟨name,
      List.forall_mem_append.mpr ⟨ofGap entry.gap, List.forall_mem_cons.mpr ⟨sign, entry.value.property⟩⟩⟩⟩

theorem FileLine.not_mem (line : FileLine) {c : Char} (breaks : isBreak c = true) : c ∉ line.text := by
  intro member
  rw [line.unbroken c member] at breaks
  cases breaks

/-- What is read from the lines of a text, before empty values are left out. -/
def entriesOf (content : Text) : List (Text × Text) := (Text.lines (Text.unifyLineEnds content)).filterMap entry?

theorem entriesOf_single (line : FileLine) : entriesOf line.text = line.setting?.toList := by
  have same := unifyLineEnds_append (line.not_mem rfl) []
  rw [List.append_nil] at same
  rw [entriesOf, same, Text.unifyLineEnds, List.append_nil, Text.lines, List.splitOn_eq_singleton (line.not_mem rfl),
    List.filterMap_cons, List.filterMap_nil, line.entry_text]
  cases line.setting? <;> rfl

/-- A line that is ended, by whatever is read as a line feed. -/
theorem entriesOf_break (line : FileLine) {content rest : Text}
    (broken : Text.unifyLineEnds content = '\n' :: Text.unifyLineEnds rest) :
    entriesOf (line.text ++ content) = line.setting?.toList ++ entriesOf rest := by
  have lines : Text.lines (line.text ++ '\n' :: Text.unifyLineEnds rest) =
      line.text :: Text.lines (Text.unifyLineEnds rest) := by
    rw [Text.lines, List.splitOn_append_cons_of_beq _ _ (by simp), List.splitOn_eq_singleton (line.not_mem rfl)]
    rfl
  rw [entriesOf, unifyLineEnds_append (line.not_mem rfl), broken, lines, List.filterMap_cons, line.entry_text, entriesOf]
  cases line.setting? <;> rfl

theorem entriesOf_feed (rest : Text) : entriesOf ('\n' :: rest) = entriesOf rest := by
  have broken : Text.unifyLineEnds ('\n' :: rest) = '\n' :: Text.unifyLineEnds rest :=
    unifyLineEnds_cons (by decide) rest
  exact entriesOf_break (.blank ⟨[], List.forall_mem_nil _⟩ nofun) broken

/-- It does not matter how a line is ended, not even where a carriage return comes before an empty line. -/
theorem entriesOf_append (line : FileLine) (ending : LineEnd) (rest : Text) :
    entriesOf (line.text ++ (ending.text ++ rest)) = line.setting?.toList ++ entriesOf rest := by
  cases ending with
  | feed => exact entriesOf_break line (unifyLineEnds_cons (by decide) rest)
  | both => exact entriesOf_break line rfl
  | carriage =>
    by_cases feed : ∃ more, rest = '\n' :: more
    · obtain ⟨more, rfl⟩ := feed
      rw [entriesOf_feed]
      exact entriesOf_break line rfl
    · apply entriesOf_break line
      change Text.unifyLineEnds ('\r' :: rest) = _
      rw [Text.unifyLineEnds]
      exact fun more same => feed ⟨more, same⟩

theorem entriesOf_flatMap (lines : List (FileLine × LineEnd)) (rest : Text) :
    entriesOf ((lines.flatMap fun line => line.1.text ++ line.2.text) ++ rest) =
      (lines.map Prod.fst).filterMap FileLine.setting? ++ entriesOf rest := by
  induction lines with
  | nil => rfl
  | cons line lines ih =>
    rw [List.flatMap_cons, List.append_assoc, List.append_assoc, entriesOf_append, ih, List.map_cons,
      List.filterMap_cons]
    cases line.1.setting? <;> rfl

namespace FileLayout

variable (layout : FileLayout)

theorem entriesOf_text : entriesOf layout.text = layout.settings := by
  rw [text, entriesOf_flatMap, settings, List.filterMap_append]
  congr 1
  cases layout.last with
  | none => rfl
  | some line =>
    rw [Option.map_some, Option.getD_some, entriesOf_single, Option.toList_some, List.filterMap_cons,
      List.filterMap_nil]
    cases line.setting? <;> rfl

theorem ofFile_text : ofFile (Text.unifyLineEnds layout.text) = layout.table := by
  have same : ofFile (Text.unifyLineEnds layout.text) =
      .ofList (layout.settings.filter fun setting => !setting.2.isEmpty) := by
    rw [← entriesOf_text]
    rfl
  rw [same, Table.ofList, List.foldl_filter, table]
  congr 1
  funext table setting
  cases setting.2 <;> rfl

end FileLayout

/-- Reading a properties file gives the table in which its entries set their values one after the other, where
empty values are left out. -/
theorem load_layout (layout : FileLayout) {tree : FileTree} {path : Text} (plain : FileTree.nullChar ∉ path)
    (held : tree.bytes? path = some (Text.toBytes layout.text)) : load tree path = .ok layout.table := by
  have read : tree.readText path = .ok (some (Text.unifyLineEnds layout.text)) := by
    rw [FileTree.readText, if_neg (by simpa using plain), held, Option.bind_some, Text.ofBytes?_toBytes]
  rw [load, read]
  exact congrArg Except.ok layout.ofFile_text

/-! A file with line ends of all kinds. An entry in a comment and an empty value set nothing, and the carriage return
in front of the empty line is read together with its line feed. -/

def noIndent : Gap := ⟨[], isGap_none⟩

def someIndent : Gap := ⟨[' ', '\t'], List.all_eq_true.mp rfl⟩

theorem eq_false_of_any {s : Text} {p : Char → Bool} (none : s.any p = false) : ∀ c ∈ s, p c = false := by
  simpa using none

def mixedLayout : FileLayout where
  lines := [
    (.comment someIndent '!' (.inr rfl) ⟨" a=0".toList, eq_false_of_any rfl⟩, .carriage),
    (.setting ⟨someIndent, "a".toList, someIndent, ':', ⟨" \"#=\\\" ".toList, eq_false_of_any rfl⟩,
      by decide, eq_false_of_any rfl, .inr rfl⟩, .both),
    (.setting ⟨noIndent, "a".toList, noIndent, '=', ⟨"''".toList, eq_false_of_any rfl⟩,
      by decide, eq_false_of_any rfl, .inl rfl⟩, .carriage),
    (.blank ⟨[], List.forall_mem_nil _⟩ (List.forall_mem_nil _), .feed)]
  last := some (.setting ⟨noIndent, "é.b".toList, noIndent, '=', ⟨":1!".toList, eq_false_of_any rfl⟩,
    by decide, eq_false_of_any rfl, .inl rfl⟩)

def mixedTree : FileTree :=
  ⟨⟨false, []⟩, [(["gradle.properties"], .file (Text.toBytes mixedLayout.text))]⟩

theorem load_mixedLayout :
    mixedLayout.text = " \t! a=0\r \ta \t: \"#=\\\" \r\na=''\r\né.b=:1!".toList ∧
    FileTree.nullChar ∉ "/gradle.properties".toList ∧
    mixedTree.bytes? "/gradle.properties" = some (Text.toBytes mixedLayout.text) ∧
    load mixedTree "/gradle.properties" = .ok ⟨[("a", "#=\\"), ("é.b", ":1!")]⟩ := by
  have plain : FileTree.nullChar ∉ "/gradle.properties".toList := by decide
  have held : mixedTree.bytes? "/gradle.properties" = some (Text.toBytes mixedLayout.text) := by
    rfl
  have table : mixedLayout.table = ⟨[("a", "#=\\"), ("é.b", ":1!")]⟩ := by decide +kernel
  exact ⟨by decide +kernel, plain, held, table ▸ load_layout mixedLayout plain held⟩

end GradlePublishing.Property
