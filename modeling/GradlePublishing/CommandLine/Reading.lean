import GradlePublishing.CommandLine.Word

/-!
Reading a command line from left to right. Options take effect in order, and some end the reading at
once. The positional words are a single piece that runs to the end of the line.
-/

namespace GradlePublishing.CommandLine

structure Given where
  topic : Topic
  value : Option Text := Option.none
  deriving DecidableEq, Repr

inductive Positionals
  | none
  | rest
  | atLeastOne
  deriving DecidableEq, Repr

/-- A command line that was read: the options in order, the positional words if there were any, and
whether words were left over. -/
structure Line where
  options : List Given := []
  positionals : Option (List Text) := Option.none
  hasExtras : Bool := false
  deriving DecidableEq, Repr

def stopOf? : Topic → Option Stop
  | .help => some .help
  | .version => some .version
  | _ => Option.none

/-- The options in a word whose option takes no value but has a text attached: further letters are
options of their own, of which the last may take a value. What the last one still needs is told by
its lack of a value. -/
def cluster (options : List OptionSpec) : List Given → OptionSpec → Text → Except Stop
    (List Given × Option OptionSpec)
  | given, option, [] => .ok (given, some option)
  | given, option, c :: more =>
    if option.takesValue then .ok (given ++ [⟨option.topic, some (c :: more)⟩], Option.none)
    else
      match (spellingsOf options).lookup ['-', c] with
      | some next => cluster options (given ++ [⟨option.topic, Option.none⟩]) next more
      | Option.none => .error .usage

/-- Opens the word of an option: the options that are settled, and the one that has no value yet. -/
def openWord (options : List OptionSpec) (spelled : Spelled) :
    Except Stop (List Given × Option OptionSpec) :=
  match spelled.attached with
  | Option.none => .ok ([], some spelled.option)
  | some attached =>
    if spelled.option.takesValue then
      .ok ([⟨spelled.option.topic, some attached⟩], Option.none)
    else if attached.isEmpty || (Text.after? "--" spelled.spelling).isSome then .error .usage
    else cluster options [] spelled.option attached

/-- Settles the option that has no value yet with the next word, if it takes one. Gives the options
of the word and what follows. -/
def settle (given : List Given) (open? : Option OptionSpec) (more : List (Text × Role)) :
    Except Stop (List Given × List (Text × Role)) :=
  match open? with
  | Option.none => .ok (given, more)
  | some option =>
    if option.takesValue then
      match more with
      | (value, .positional) :: rest => .ok (given ++ [⟨option.topic, some value⟩], rest)
      | _ => .error .usage
    else .ok (given ++ [⟨option.topic, Option.none⟩], more)

theorem length_settle {given settled : List Given} {open? : Option OptionSpec}
    {more rest : List (Text × Role)} (done : settle given open? more = .ok (settled, rest)) :
    rest.length ≤ more.length := by
  unfold settle at done
  split at done
  · cases done
    exact Nat.le_refl _
  · split at done
    · split at done
      · cases done
        simp
      · cases done
    · cases done
      exact Nat.le_refl _

def firstStop? (given : List Given) : Option Stop :=
  given.findSome? fun option => stopOf? option.topic

def readWords (options : List OptionSpec) (positionals : Positionals) (line : Line)
    (words : List (Text × Role)) : Except Stop Line :=
  match words with
  | [] =>
    match positionals with
    | .rest => .ok { line with positionals := some [] }
    | _ => .ok line
  | (_, .unknownOption) :: more =>
    readWords options positionals { line with hasExtras := true } more
  | (_, .option spelled) :: more =>
    match openWord options spelled with
    | .error stop => .error stop
    | .ok (given, open?) =>
      match _ : settle given open? more with
      | .error stop => .error stop
      | .ok (settled, rest) =>
        match firstStop? settled with
        | some stop => .error stop
        | Option.none =>
          readWords options positionals { line with options := line.options ++ settled } rest
  | (word, role) :: more =>
    match positionals with
    | .none => readWords options positionals { line with hasExtras := true } more
    | .rest => .ok { line with positionals := some (word :: more.map (·.1)) }
    | .atLeastOne =>
      if role = .separator && more.isEmpty then .ok { line with hasExtras := true }
      else .ok { line with positionals := some (word :: more.map (·.1)) }
termination_by words.length
decreasing_by
  · simp
  · have := length_settle ‹_›
    simp only [List.length_cons]
    omega
  · simp

def Line.read (options : List OptionSpec) (positionals : Positionals) (words : List Text) :
    Except Stop Line := do
  readWords options positionals {} (← roles options words)

namespace Line

def has (line : Line) (topic : Topic) : Bool := line.options.any (·.topic == topic)

def value? (line : Line) (topic : Topic) : Option Text :=
  (line.options.reverse.find? (·.topic == topic)).bind (·.value)

end Line

end GradlePublishing.CommandLine
