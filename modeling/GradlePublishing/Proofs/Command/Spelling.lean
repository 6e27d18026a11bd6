import GradlePublishing.Command.Invocation

/-!
The option that stands at an argument. A short name shows in the first two characters of an argument and a
long name in what stands before an equals sign (`isSome_read?_iff`), so no two of the known options stand
at the same argument (`eq_of_standsAt`). In whatever way an option is written with its value, it is read
back with that value (`read?_spelled`).
-/

namespace GradlePublishing.Command

namespace ValueOption

/-- The short name is a dash and another character, the long name starts with two dashes, and it holds no
equals sign. -/
def IsPlain (option : ValueOption) : Prop :=
  (∀ short ∈ option.short, short.head? = some '-' ∧ short.length = 2 ∧ short.getLast? ≠ some '-') ∧
    option.long.take 2 = ['-', '-'] ∧ '=' ∉ option.long

/-- The argument starts with a name of the option. -/
def StandsAt (option : ValueOption) (argument : Text) : Prop :=
  option.short = some (argument.take 2) ∨ option.long = argument.takeWhile (· != '=')

inductive Spelling (option : ValueOption) (value : Text)
  | shortApart (short : Text) (named : option.short = some short)
  | longApart
  | shortAttached (short : Text) (named : option.short = some short) (filled : value ≠ [])
  | longAttached

namespace Spelling

variable {option : ValueOption} {value : Text}

def first : Spelling option value → Text
  | shortApart short _ => short
  | longApart => option.long
  | shortAttached short _ _ => short ++ value
  | longAttached => option.long ++ '=' :: value

/-- The argument behind it, if the value stands apart. -/
def more : Spelling option value → List Text
  | shortApart _ _ | longApart => [value]
  | shortAttached _ _ _ | longAttached => []

end Spelling

section Plain

variable {option : ValueOption} (plain : option.IsPlain)

include plain

theorem IsPlain.exists_letter {short : Text} (named : option.short = some short) :
    ∃ letter, letter ≠ '-' ∧ short = ['-', letter] := by
  obtain ⟨dash, pair, other⟩ := plain.1 short named
  match short, dash, pair, other with
  | [first, letter], dash, _, other =>
    obtain rfl : first = '-' := by simpa using dash
    exact ⟨letter, by simpa using other, rfl⟩

theorem IsPlain.not_dashes {short argument : Text} (named : option.short = some short)
    (start : short <+: argument) : ¬ ['-', '-'] <+: argument := by
  intro dashes
  obtain ⟨letter, other, rfl⟩ := plain.exists_letter named
  have same := List.prefix_of_prefix_length_le start dashes (Nat.le_refl 2)
  exact other (by simpa using same)

theorem IsPlain.dashes_long : ['-', '-'] <+: option.long := plain.2.1 ▸ List.take_prefix 2 option.long

theorem IsPlain.exists_word : ∃ word, option.long = '-' :: '-' :: word :=
  ⟨option.long.drop 2, by rw [← List.take_append_drop 2 option.long, plain.2.1]; rfl⟩

theorem IsPlain.takeWhile_long_append {behind : Text} (stops : behind.takeWhile (· != '=') = []) :
    (option.long ++ behind).takeWhile (· != '=') = option.long := by
  have passes : ∀ c ∈ option.long, (c != '=') = true := fun c member =>
    bne_iff_ne.mpr fun same => plain.2.2 (same ▸ member)
  rw [List.takeWhile_append_of_pos passes, stops, List.append_nil]

theorem IsPlain.attached?_of_short {short : Text} (named : option.short = some short) (value : Text) :
    option.attached? (short ++ value) = some value := by
  obtain ⟨letter, other, rfl⟩ := plain.exists_letter named
  obtain ⟨word, long⟩ := plain.exists_word
  simp [attached?, long, named, Text.after?, Ne.symm other]

omit plain in
/-- A long name in front of the first equals sign is the whole argument, or a value follows. -/
theorem eq_or_assigns {argument : Text} (long : option.long = argument.takeWhile (· != '=')) :
    argument = option.long ∨ ∃ value, argument = option.long ++ '=' :: value := by
  have whole := List.takeWhile_append_dropWhile (p := (· != '=')) (l := argument)
  rw [← long] at whole
  cases rest : argument.dropWhile (· != '=') with
  | nil =>
    rw [rest, List.append_nil] at whole
    exact .inl whole.symm
  | cons c value =>
    have stop := List.head?_dropWhile_not (· != '=') argument
    rw [rest] at stop whole
    obtain rfl : c = '=' := by simpa using stop
    exact .inr ⟨value, whole.symm⟩

omit plain in
theorem attached?_of_long (value : Text) :
    option.attached? (option.long ++ '=' :: value) = some value := by
  have found : Text.after? (option.long ++ ['=']) (option.long ++ '=' :: value) = some value :=
    Text.after?_eq_some_iff.mpr (by rw [List.append_assoc, List.singleton_append])
  rw [attached?, found]

theorem IsPlain.standsAt_of_attached? {argument value : Text}
    (found : option.attached? argument = some value) : option.StandsAt argument := by
  unfold attached? at found
  split at found
  · rename_i behind cut
    right
    rw [Text.after?_eq_some_iff.mp cut, List.append_assoc, plain.takeWhile_long_append (by simp)]
  · split at found
    · rename_i c short named
      left
      split at found
      · cases found
      · obtain ⟨letter, -, pair⟩ := plain.exists_letter named
        rw [pair] at found named
        rw [Text.after?_eq_some_iff.mp found, named]
        rfl
    · cases found

theorem isSome_read?_iff (argument : Text) (next : Option Text) :
    (option.read? argument next).isSome = true ↔ option.StandsAt argument := by
  constructor
  · intro read
    by_cases named : option.isNamed argument = true
    · simp only [isNamed, Bool.or_eq_true, beq_iff_eq] at named
      rcases named with short | long
      · obtain ⟨letter, -, rfl⟩ := plain.exists_letter short
        exact .inl short
      · have nothing : ([] : Text).takeWhile (· != '=') = [] := rfl
        have whole := plain.takeWhile_long_append nothing
        rw [List.append_nil] at whole
        exact .inr (by rw [← long, whole])
    · unfold read? at read
      rw [if_neg named, Option.isSome_map] at read
      obtain ⟨value, found⟩ := Option.isSome_iff_exists.mp read
      exact plain.standsAt_of_attached? found
  · intro stands
    have attached : ∃ value, option.isNamed argument = true ∨ option.attached? argument = some value := by
      rcases stands with short | long
      · refine ⟨argument.drop 2, .inr ?_⟩
        have found := plain.attached?_of_short short (argument.drop 2)
        rwa [List.take_append_drop] at found
      · rcases eq_or_assigns long with rfl | ⟨value, rfl⟩
        · exact ⟨[], .inl (by simp [isNamed])⟩
        · exact ⟨value, .inr (attached?_of_long value)⟩
    obtain ⟨value, named | found⟩ := attached
    · unfold read?
      rw [if_pos named]
      cases next <;> rfl
    · unfold read?
      split
      · cases next <;> rfl
      · rw [found]
        rfl

theorem read?_spelled {value : Text} (spelling : Spelling option value) (rest : List Text) :
    option.read? spelling.first (spelling.more ++ rest).head? =
      some ⟨value, spelling.more.length + 1⟩ := by
  cases spelling with
  | shortApart short named => simp [Spelling.first, Spelling.more, read?, isNamed, named]
  | longApart => simp [Spelling.first, Spelling.more, read?, isNamed]
  | shortAttached short named filled =>
    have unnamed : option.isNamed (short ++ value) = false := by
      obtain ⟨letter, other, rfl⟩ := plain.exists_letter named
      obtain ⟨word, long⟩ := plain.exists_word
      simp [isNamed, named, long, filled, Ne.symm other]
    simp [Spelling.first, Spelling.more, read?, unnamed, plain.attached?_of_short named]
  | longAttached =>
    have unnamed : option.isNamed (option.long ++ '=' :: value) = false := by
      have longer : option.short ≠ some (option.long ++ '=' :: value) := fun named =>
        plain.not_dashes named (List.prefix_refl _) (plain.dashes_long.trans (List.prefix_append _ _))
      simp [isNamed, longer]
    simp [Spelling.first, Spelling.more, read?, unnamed, attached?_of_long]

end Plain

end ValueOption

def knownOptions : List ValueOption := propertyOptions ++ valueOptions

theorem isPlain_of_known {option : ValueOption} (known : option ∈ knownOptions) : option.IsPlain := by
  have all : ∀ option ∈ knownOptions,
      (∀ short ∈ option.short, short.head? = some '-' ∧ short.length = 2 ∧ short.getLast? ≠ some '-') ∧
        option.long.take 2 = ['-', '-'] ∧ '=' ∉ option.long := by decide
  exact all option known

theorem eq_of_name {option other : ValueOption} (known : option ∈ knownOptions)
    (known' : other ∈ knownOptions)
    (name : option.long = other.long ∨ option.short ≠ none ∧ option.short = other.short) :
    option = other := by
  have all : ∀ option ∈ knownOptions, ∀ other ∈ knownOptions,
      option.long = other.long ∨ option.short ≠ none ∧ option.short = other.short → option = other := by
    decide
  exact all option known other known' name

theorem eq_of_standsAt {option other : ValueOption} (known : option ∈ knownOptions)
    (known' : other ∈ knownOptions) {argument : Text} (stands : option.StandsAt argument)
    (stands' : other.StandsAt argument) : option = other := by
  -- The second character tells a short name from a long one.
  have apart {option other : ValueOption} (plain : option.IsPlain) (plain' : other.IsPlain)
      (short : option.short = some (argument.take 2)) :
      other.long ≠ argument.takeWhile (· != '=') := by
    intro long
    have start : other.long <+: argument := long ▸ List.takeWhile_prefix _
    exact plain.not_dashes short (List.take_prefix 2 argument) (plain'.dashes_long.trans start)
  have plain := isPlain_of_known known
  have plain' := isPlain_of_known known'
  rcases stands with short | long <;> rcases stands' with short' | long'
  · exact eq_of_name known known' (.inr ⟨by rw [short]; exact Option.some_ne_none _, by rw [short, short']⟩)
  · exact absurd long' (apart plain plain' short)
  · exact absurd long (apart plain' plain short')
  · exact eq_of_name known known' (.inl (long.trans long'.symm))

end GradlePublishing.Command
