import GradlePublishing.Proofs.Command.Written

/-!
The build file of a command. It is looked for at every argument, while the tasks and the properties are
found part by part. The two agree unless an argument that is taken up as the value of an option reads like
an option for the build file itself (`buildFile_of_command`).
-/

namespace GradlePublishing.Command

/-- A part of a command where it stands: the arguments that it takes up behind its first one, and those
behind them. -/
structure Segment where
  part : Part
  taken : List Text
  behind : List Text
  deriving DecidableEq, Repr

def segments : List Text → List Segment
  | [] => []
  | argument :: rest =>
    let (part, more) := readPart argument rest.head?
    ⟨part, rest.take more, rest.drop more⟩ :: segments (rest.drop more)
termination_by arguments => arguments.length
decreasing_by
  simp only [List.length_cons, List.length_drop]
  omega

def scriptIn (settings : Settings) (directory : Text) : Except Failure Text :=
  if directory.isEmpty then .ok []
  else do
    let script ← settings.text .buildScript
    return Path.join directory (script ++ (← settings.text .groovyExtension))

def Part.file? (settings : Settings) : Part → Option (Except Failure Text)
  | valued option value =>
    if option = buildFileOption then some (.ok value)
    else if option = projectDirOption then some (scriptIn settings value)
    else none
  | _ => none

/-- The build file that the first part with an option for it asks for. -/
def statedFile (settings : Settings) (parts : List Part) : Except Failure Text :=
  (parts.findSome? (Part.file? settings)).getD (.ok [])

/-- The build file that a value would ask for if it were a part of its own. -/
def Segment.strayFile? (settings : Settings) (segment : Segment) : Option (Except Failure Text) :=
  segment.taken.head?.bind fun argument => (readPart argument segment.behind.head?).1.file? settings

/-- The build file that the first such value asks for, of those before the first option for it. -/
def strayFile? (settings : Settings) (arguments : List Text) : Option (Except Failure Text) :=
  ((segments arguments).takeWhile fun segment => (segment.part.file? settings).isNone).findSome?
    (Segment.strayFile? settings)

theorem map_part_segments (arguments : List Text) :
    (segments arguments).map Segment.part = parts arguments := by
  fun_induction segments arguments with
  | case1 => rw [List.map_nil, parts]
  | case2 argument rest part more read ih => rw [List.map_cons, ih, parts, read]

theorem exists_of_firstMatch? {options : List ValueOption} {argument : Text} {next : Option Text}
    {option : ValueOption} {found : OptionMatch}
    (first : firstMatch? options argument next = some (option, found)) :
    option ∈ options ∧ option.read? argument next = some found := by
  obtain ⟨other, member, read⟩ := List.exists_of_findSome?_eq_some first
  obtain ⟨found', here, same⟩ := Option.map_eq_some_iff.mp read
  cases same
  exact ⟨member, here⟩

theorem ValueOption.count_read? {option : ValueOption} {argument : Text} {next : Option Text}
    {found : OptionMatch} (read : option.read? argument next = some found) : found.count ≤ 2 := by
  unfold ValueOption.read? at read
  split at read
  · cases next <;> cases read
    · exact Nat.le_succ 1
    · exact Nat.le_refl 2
  · obtain ⟨value, -, rfl⟩ := Option.map_eq_some_iff.mp read
    exact Nat.le_succ 1

theorem readPart_le_one (argument : Text) (next : Option Text) : (readPart argument next).2 ≤ 1 := by
  unfold readPart
  split
  · have := (exists_of_firstMatch? ‹_›).2
    exact Nat.sub_le_of_le_add (ValueOption.count_read? this)
  · split
    · have := (exists_of_firstMatch? ‹_›).2
      exact Nat.sub_le_of_le_add (ValueOption.count_read? this)
    · split <;> exact Nat.zero_le 1

theorem exists_read?_of_valued {argument : Text} {next : Option Text} {option : ValueOption}
    {value : Text} (part : (readPart argument next).1 = .valued option value) :
    ∃ found, option.read? argument next = some found := by
  unfold readPart at part
  split at part
  · cases part
  · split at part
    · rename_i found first
      cases part
      exact ⟨found, (exists_of_firstMatch? first).2⟩
    · split at part <;> cases part

/-- An option for the build file makes a part of its own at every argument. -/
theorem buildFile_cons (settings : Settings) (argument : Text) (rest : List Text) :
    buildFile settings (argument :: rest) =
      ((readPart argument rest.head?).1.file? settings).getD (buildFile settings rest) := by
  have reads {option : ValueOption} (takes : option ∈ valueOptions) {found : OptionMatch}
      (read : option.read? argument rest.head? = some found) :
      (readPart argument rest.head?).1 = .valued option found.value := by
    rw [readPart_valued takes read]
  have other : projectDirOption ≠ buildFileOption := by decide
  cases file : buildFileOption.read? argument rest.head? with
  | some found => simp [buildFile, file, reads (by decide) file, Part.file?]
  | none =>
    cases directory : projectDirOption.read? argument rest.head? with
    | some found => simp [buildFile, file, directory, reads (by decide) directory, Part.file?, other, scriptIn]
    | none =>
      -- Any other part asks for no file.
      have absent : (readPart argument rest.head?).1.file? settings = none := by
        cases part : (readPart argument rest.head?).1 with
        | property | flag | task => rfl
        | valued option value =>
          obtain ⟨found, read⟩ := exists_read?_of_valued part
          have notFile : option ≠ buildFileOption := by
            rintro rfl
            rw [file] at read
            cases read
          have notDirectory : option ≠ projectDirOption := by
            rintro rfl
            rw [directory] at read
            cases read
          rw [Part.file?, if_neg notFile, if_neg notDirectory]
      simp [buildFile, file, directory, absent]

/-- The search passes over a part and the value that it takes up. -/
theorem buildFile_segments (settings : Settings) (arguments : List Text) :
    buildFile settings arguments =
      ((segments arguments).findSome? fun segment =>
        (segment.part.file? settings).or (segment.strayFile? settings)).getD (.ok []) := by
  fun_induction segments arguments with
  | case1 => rfl
  | case2 argument rest part more read ih =>
    have single : more ≤ 1 := by
      have bound := readPart_le_one argument rest.head?
      rwa [read] at bound
    rw [buildFile_cons, read, List.findSome?_cons]
    cases asked : part.file? settings with
    | some file => rfl
    | none =>
      rw [Option.getD_none, Option.none_or]
      match more, rest with
      | 0, rest => exact ih
      | 1, [] => exact ih
      | 1, value :: behind =>
        rw [buildFile_cons]
        have stray : Segment.strayFile? settings ⟨part, [value], behind⟩ =
            (readPart value behind.head?).1.file? settings := rfl
        rw [List.take_one, List.head?_cons, Option.toList_some, List.drop_one, List.tail_cons, stray]
        cases (readPart value behind.head?).1.file? settings with
        | some file => rfl
        | none => exact ih

/-- A first answer of two kinds, where the second kind only counts ahead of the first. -/
theorem findSome?_or_getD {α β : Type} (first second : α → Option β) (default : β) (xs : List α) :
    (xs.findSome? fun x => (first x).or (second x)).getD default =
      ((xs.takeWhile fun x => (first x).isNone).findSome? second).getD
        ((xs.findSome? first).getD default) := by
  induction xs with
  | nil => rfl
  | cons x xs ih =>
    rw [List.findSome?_cons, List.takeWhile_cons, List.findSome?_cons]
    cases here : first x with
    | some answer => rfl
    | none =>
      simp only [Option.none_or, Option.isNone_none, ↓reduceIte, List.findSome?_cons]
      cases second x with
      | some answer => rfl
      | none => exact ih

/-- The build file of a command is the one that its first option for it asks for, unless an argument that
is taken up as a value before that reads like such an option: then it is what that one asks for. -/
theorem buildFile_of_command (settings : Settings) (arguments : List Text) :
    (Invocation.ofArguments settings arguments).map Invocation.buildFile =
        (strayFile? settings arguments).getD (statedFile settings (parts arguments)) ∧
      ((Invocation.ofArguments settings arguments).map Invocation.buildFile =
          statedFile settings (parts arguments) ↔
        ∀ file ∈ strayFile? settings arguments, file = statedFile settings (parts arguments)) := by
  have read : (Invocation.ofArguments settings arguments).map Invocation.buildFile =
      buildFile settings arguments := by
    unfold Invocation.ofArguments
    cases buildFile settings arguments <;> rfl
  have stated : statedFile settings (parts arguments) =
      ((segments arguments).findSome? fun segment => segment.part.file? settings).getD (.ok []) := by
    rw [statedFile, ← map_part_segments, List.findSome?_map]
    rfl
  have whole : (Invocation.ofArguments settings arguments).map Invocation.buildFile =
      (strayFile? settings arguments).getD (statedFile settings (parts arguments)) := by
    rw [read, buildFile_segments, findSome?_or_getD, strayFile?, stated]
  refine ⟨whole, ?_⟩
  rw [whole]
  cases strayFile? settings arguments with
  | none => simp
  | some file => simp

/-! A user home whose name reads like an option. -/

def dashedHome : List Text := ["-g", "-build", "publish"]

theorem not_forall_buildFile_stated :
    ¬ ∀ (settings : Settings) (arguments : List Text),
      (Invocation.ofArguments settings arguments).map Invocation.buildFile =
        statedFile settings (parts arguments) := by
  intro stated
  have same := stated Settings.empty dashedHome
  have read : (Invocation.ofArguments Settings.empty dashedHome).map Invocation.buildFile =
      .ok "uild".toList := by
    with_unfolding_all decide
  have none : statedFile Settings.empty (parts dashedHome) = .ok [] := by
    with_unfolding_all decide
  rw [read, none] at same
  cases same

end GradlePublishing.Command
