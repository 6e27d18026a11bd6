import GradlePublishing.Proofs.Command.Faults
import GradlePublishing.Proofs.Command.Spelling
import GradlePublishing.Proofs.Property.Argument

/-!
Commands that are written part by part. A part takes up one argument or two, and what it takes up may look
like anything, an option or a task; still each part is read back as it was written, whatever follows it
(`readPart_item`). So a command gives back its tasks in order and the table of its properties
(`ofArguments_items`).
-/

namespace GradlePublishing

namespace Property

/-- The short name of a property option introduces the text of a property, which may be empty. -/
theorem ofArgument?_shortName {option : Command.ValueOption}
    (sets : option ∈ Command.propertyOptions) (text : Text) :
    ofArgument? (option.short.getD [] ++ text) = pair? text := by
  obtain ⟨letter, named, solid, introduces⟩ : ∃ letter, option.short = some ['-', letter] ∧
      Text.isBlank letter = false ∧ ∀ behind, argumentStarts.findSome?
        (propertyText? ('-' :: letter :: behind)) = if behind = [] then none else some behind := by
    have cases := List.mem_cons.mp sets
    rw [List.mem_singleton] at cases
    rcases cases with rfl | rfl
    · refine ⟨'P', rfl, by decide, fun behind => ?_⟩
      cases behind <;> simp [argumentStarts, propertyText?, Text.after?, Option.filter]
    · refine ⟨'D', rfl, by decide, fun behind => ?_⟩
      cases behind <;> simp [argumentStarts, propertyText?, Text.after?, Option.filter]
  have stripped : Text.strip ('-' :: letter :: text) = '-' :: letter :: Text.stripEnd text := by
    have started : Text.stripStart ('-' :: letter :: text) = '-' :: letter :: text :=
      Text.stripStart_eq_self_iff.mpr fun c first => by cases first; decide
    have kept : Text.stripEnd ['-', letter] = ['-', letter] :=
      Text.stripEnd_eq_self_iff.mpr fun c last => by cases last; exact solid
    rw [Text.strip, started]
    exact Text.stripEnd_append_of_kept text kept
  rw [named, Option.getD_some, List.cons_append, List.singleton_append, ofArgument?, stripped, introduces,
    ← pair?_stripEnd text]
  split
  · rename_i empty
    rw [empty]
    rfl
  · rfl

end Property

namespace Command

/-- An argument that is taken for an option without a value. -/
structure IsFlag (argument : Text) : Prop where
  dash : argument.head? = some '-'
  unnamed : ∀ option ∈ knownOptions, option.short ≠ some argument ∧ option.long ≠ argument
  unattached : ∀ option ∈ knownOptions, ∀ short, option.short = some short → short <+: argument →
    ['-', '-'] <+: argument
  unassigned : ∀ option ∈ knownOptions, ¬ option.long ++ ['='] <+: argument

theorem IsFlag.not_standsAt {argument : Text} (flag : IsFlag argument) {option : ValueOption}
    (known : option ∈ knownOptions) : ¬ option.StandsAt argument := by
  rintro (short | long)
  · have start : argument.take 2 <+: argument := List.take_prefix 2 argument
    exact (isPlain_of_known known).not_dashes short start (flag.unattached option known _ short start)
  · rcases ValueOption.eq_or_assigns long with whole | ⟨value, whole⟩
    · exact (flag.unnamed option known).2 whole.symm
    · exact flag.unassigned option known ⟨value, by rw [List.append_assoc, List.singleton_append, whole]⟩

inductive Item
  | task (name : Text) (plain : name.head? ≠ some '-')
  | property (option : ValueOption) (sets : option ∈ propertyOptions) (text : Text)
    (spelling : option.Spelling text)
  | valued (option : ValueOption) (takes : option ∈ valueOptions) (value : Text)
    (spelling : option.Spelling value)
  | flag (argument : Text) (single : IsFlag argument)

namespace Item

def first : Item → Text
  | task name _ => name
  | property _ _ _ spelling | valued _ _ _ spelling => spelling.first
  | flag argument _ => argument

def more : Item → List Text
  | task _ _ | flag _ _ => []
  | property _ _ _ spelling | valued _ _ _ spelling => spelling.more

def arguments (item : Item) : List Text := item.first :: item.more

def part : Item → Part
  | task name _ => .task name
  | property option _ text _ => .property option text
  | valued option _ value _ => .valued option value
  | flag argument _ => .flag argument

def task? : Item → Option Text
  | task name _ => some name
  | _ => none

def propertyText? : Item → Option Text
  | property _ _ text _ => some text
  | _ => none

end Item

section FirstMatch

variable {options : List ValueOption} (known : options ⊆ knownOptions)

include known

theorem firstMatch?_eq_some {option : ValueOption} (member : option ∈ options) {argument : Text}
    {next : Option Text} {found : OptionMatch} (read : option.read? argument next = some found) :
    firstMatch? options argument next = some (option, found) := by
  have stands : option.StandsAt argument :=
    (ValueOption.isSome_read?_iff (isPlain_of_known (known member)) argument next).mp (by rw [read]; rfl)
  cases first : firstMatch? options argument next with
  | none =>
    have absent := List.findSome?_eq_none_iff.mp first option member
    rw [read] at absent
    cases absent
  | some result =>
    obtain ⟨other, member', read'⟩ := List.exists_of_findSome?_eq_some first
    obtain ⟨found', here, rfl⟩ := Option.map_eq_some_iff.mp read'
    have stands' : other.StandsAt argument :=
      (ValueOption.isSome_read?_iff (isPlain_of_known (known member')) argument next).mp
        (by rw [here]; rfl)
    obtain rfl := eq_of_standsAt (known member) (known member') stands stands'
    rw [read] at here
    cases here
    rfl

theorem firstMatch?_eq_none {argument : Text} (next : Option Text)
    (absent : ∀ option ∈ options, ¬ option.StandsAt argument) :
    firstMatch? options argument next = none := by
  apply List.findSome?_eq_none_iff.mpr
  intro option member
  rw [Option.map_eq_none_iff, ← Option.not_isSome_iff_eq_none,
    ValueOption.isSome_read?_iff (isPlain_of_known (known member))]
  exact absent option member

end FirstMatch

theorem propertyOptions_subset : propertyOptions ⊆ knownOptions := List.subset_append_left _ _

theorem valueOptions_subset : valueOptions ⊆ knownOptions := List.subset_append_right _ _

theorem notMem_propertyOptions {option : ValueOption} (takes : option ∈ valueOptions) :
    option ∉ propertyOptions := by
  have all : ∀ option ∈ valueOptions, option ∉ propertyOptions := by decide
  exact all option takes

theorem not_standsAt_of_head {argument : Text} (plain : argument.head? ≠ some '-') {option : ValueOption}
    (known : option ∈ knownOptions) : ¬ option.StandsAt argument := by
  have starts {front : Text} (start : front <+: argument) (dash : front.head? = some '-') : False := by
    obtain ⟨behind, rfl⟩ := start
    exact plain (by rw [List.head?_append, dash]; rfl)
  rintro (short | long)
  · obtain ⟨letter, -, pair⟩ := (isPlain_of_known known).exists_letter short
    exact starts (List.take_prefix 2 argument) (by rw [pair]; rfl)
  · obtain ⟨word, dashes⟩ := (isPlain_of_known known).exists_word
    exact starts (List.takeWhile_prefix _) (by rw [← long, dashes]; rfl)

theorem readPart_of_absent {argument : Text} (next : Option Text)
    (absent : ∀ option ∈ knownOptions, ¬ option.StandsAt argument) :
    readPart argument next =
      if argument.head? == some '-' then (.flag argument, 0) else (.task argument, 0) := by
  rw [readPart, firstMatch?_eq_none propertyOptions_subset next
      fun option member => absent option (propertyOptions_subset member),
    firstMatch?_eq_none valueOptions_subset next
      fun option member => absent option (valueOptions_subset member)]

theorem readPart_property {option : ValueOption} (sets : option ∈ propertyOptions) {argument : Text}
    {next : Option Text} {found : OptionMatch} (read : option.read? argument next = some found) :
    readPart argument next = (.property option found.value, found.count - 1) := by
  rw [readPart, firstMatch?_eq_some propertyOptions_subset sets read]

theorem readPart_valued {option : ValueOption} (takes : option ∈ valueOptions) {argument : Text}
    {next : Option Text} {found : OptionMatch} (read : option.read? argument next = some found) :
    readPart argument next = (.valued option found.value, found.count - 1) := by
  have known := valueOptions_subset takes
  have stands : option.StandsAt argument :=
    (ValueOption.isSome_read?_iff (isPlain_of_known known) argument next).mp (by rw [read]; rfl)
  have absent : ∀ other ∈ propertyOptions, ¬ other.StandsAt argument := by
    intro other sets stands'
    obtain rfl := eq_of_standsAt known (propertyOptions_subset sets) stands stands'
    exact notMem_propertyOptions takes sets
  rw [readPart, firstMatch?_eq_none propertyOptions_subset next absent,
    firstMatch?_eq_some valueOptions_subset takes read]

theorem readPart_item (item : Item) (rest : List Text) :
    readPart item.first (item.more ++ rest).head? = (item.part, item.more.length) := by
  cases item with
  | task name plain =>
    have other : (name.head? == some '-') = false := by simpa using plain
    simp only [Item.first, readPart_of_absent _ fun option known => not_standsAt_of_head plain known, other]
    rfl
  | property option sets text spelling =>
    have plain := isPlain_of_known (propertyOptions_subset sets)
    exact readPart_property sets (ValueOption.read?_spelled plain spelling rest)
  | valued option takes value spelling =>
    have plain := isPlain_of_known (valueOptions_subset takes)
    exact readPart_valued takes (ValueOption.read?_spelled plain spelling rest)
  | flag argument single =>
    have dash : (argument.head? == some '-') = true := by simpa using single.dash
    simp only [Item.first, readPart_of_absent _ fun option known => single.not_standsAt known, dash]
    rfl

/-- A command is taken apart into the parts that it was written from. -/
theorem parts_items (items : List Item) :
    parts (items.flatMap Item.arguments) = items.map Item.part := by
  induction items with
  | nil => rw [List.flatMap_nil, parts, List.map_nil]
  | cons item items ih =>
    rw [List.flatMap_cons, Item.arguments, List.cons_append, parts, readPart_item]
    dsimp only
    rw [List.drop_left, ih, List.map_cons]

/-- A command that is written part by part gives back its tasks in order, and of its properties the table
in which later ones win. It is refused only if the settings do not say what a build script is called. -/
theorem ofArguments_items (settings : Settings) (items : List Item) :
    Invocation.ofArguments settings (items.flatMap Item.arguments) =
        (buildFile settings (items.flatMap Item.arguments)).map (fun file => {
          tasks := items.filterMap Item.task?
          buildFile := file
          properties := .ofList ((items.filterMap Item.propertyText?).filterMap Property.pair?) }) ∧
      FailsOnly settings.Uncomposed
        (Invocation.ofArguments settings (items.flatMap Item.arguments)) := by
  have tasks : (items.map Item.part).filterMap Part.task? = items.filterMap Item.task? := by
    rw [List.filterMap_map]
    apply List.filterMap_congr
    intro item _
    cases item <;> rfl
  have properties : Property.ofArguments ((items.map Item.part).filterMap Part.propertyArgument?) =
      .ofList ((items.filterMap Item.propertyText?).filterMap Property.pair?) := by
    rw [Property.ofArguments, List.filterMap_map, List.filterMap_filterMap, List.filterMap_filterMap]
    congr 1
    apply List.filterMap_congr
    intro item _
    cases item with
    | property option sets text spelling => exact Property.ofArgument?_shortName sets text
    | task | valued | flag => rfl
  refine ⟨?_, failsOnly_ofArguments (fun failure uncomposed => uncomposed) _⟩
  rw [Invocation.ofArguments, parts_items, tasks, properties]
  rfl

end Command

end GradlePublishing
