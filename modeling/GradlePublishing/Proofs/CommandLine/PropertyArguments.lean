import GradlePublishing.CommandLine.Program
import GradlePublishing.Proofs.Failure
import GradlePublishing.Proofs.Property.Argument
import Mathlib.Data.List.Basic

/-!
Properties that are written out as arguments and read once more. Names survive this. A value loses
blanks at its ends and a pair of quotes for a second time, so that the properties of a Gradle command
are passed on as they are exactly if no value has any left after the first reading
(`properties_passedOn_iff`).
-/

namespace GradlePublishing

namespace CommandLine.Surroundings

open Property

theorem strip_propertyArgument (name value : Text) :
    Text.strip ("-P".toList ++ name ++ "=".toList ++ value) =
      "-P".toList ++ (name ++ '=' :: Text.stripEnd value) := by
  have kept : Text.stripEnd ("-P".toList ++ name ++ "=".toList) = "-P".toList ++ name ++ "=".toList := by
    apply Text.stripEnd_eq_self_iff.mpr
    intro c last
    have ends : ("-P".toList ++ name ++ ['=']).getLast? = some '=' := List.getLast?_concat
    obtain rfl : '=' = c := Option.some.inj (ends.symm.trans last)
    decide
  have started : Text.stripStart ("-P".toList ++ name ++ "=".toList ++ value) =
      "-P".toList ++ name ++ "=".toList ++ value := by
    apply Text.stripStart_eq_self_iff.mpr
    intro c first
    obtain rfl : '-' = c := by simpa using first
    decide
  calc
    _ = Text.stripEnd ("-P".toList ++ name ++ "=".toList ++ value) := by rw [Text.strip, started]
    _ = "-P".toList ++ name ++ "=".toList ++ Text.stripEnd value :=
      Text.stripEnd_append_of_kept value kept
    _ = "-P".toList ++ (name ++ '=' :: Text.stripEnd value) := by simp

theorem ofArgument?_propertyArgument {entry : Text × Text} (given : IsGiven entry) :
    ofArgument? ("-P".toList ++ entry.1 ++ "=".toList ++ entry.2) = reread? entry := by
  obtain ⟨name, value⟩ := entry
  have introduced : argumentStarts.findSome?
      (propertyText? ("-P".toList ++ (name ++ '=' :: Text.stripEnd value))) =
        some (name ++ '=' :: Text.stripEnd value) := by
    simp [argumentStarts, propertyText?, Text.after?, Option.filter]
  have nameKept : Text.strip name = name := Text.strip_eq_self_iff.mpr given.trimmed
  have named : name.isEmpty = false := List.isEmpty_eq_false_iff.mpr given.named
  rw [ofArgument?, strip_propertyArgument, introduced, Option.bind_some, pair?,
    Text.cut?_append given.plain, reread?]
  simp only [nameKept, named, Text.strip_stripEnd, Bool.false_or]

/-- Properties that are written out as arguments are read again with cleaned values. -/
theorem ofArguments_propertyArguments {table : Table} (distinct : table.HasDistinctNames)
    (given : ∀ entry ∈ table.entries, IsGiven entry) :
    ofArguments (propertyArguments table) = ⟨table.entries.filterMap reread?⟩ := by
  have each : (propertyArguments table).filterMap ofArgument? = table.entries.filterMap reread? := by
    rw [propertyArguments, List.filterMap_map]
    apply List.filterMap_congr
    intro entry member
    exact ofArgument?_propertyArgument (given entry member)
  have names : ((table.entries.filterMap reread?).map (·.1)).Sublist (table.entries.map (·.1)) := by
    induction table.entries with
    | nil => exact List.Sublist.refl _
    | cons entry entries ih =>
      rw [List.filterMap_cons, List.map_cons]
      cases reread : reread? entry with
      | none => exact ih.cons _
      | some other =>
        have same : other.1 = entry.1 := by
          unfold reread? at reread
          dsimp only at reread
          split at reread
          · cases reread
          · cases reread
            rfl
        rw [List.map_cons, same]
        exact ih.cons_cons _
  rw [ofArguments, each]
  exact Table.ofList_of_distinct (names.nodup distinct)

/-- The properties of a Gradle command are passed on with cleaned values. They stay as they are exactly
if every value is free of blanks at its ends and of quotes around it. -/
theorem properties_passedOn_iff {surroundings : Surroundings} {directory : AbsolutePath}
    {version : Text} {arguments : List Text} {invocation : Command.Invocation}
    {request : Repository.Request}
    (read : Command.Invocation.ofArguments surroundings.settings arguments = .ok invocation)
    (asked : surroundings.request directory version invocation = .ok request) :
    ofArguments request.arguments = ⟨invocation.properties.entries.filterMap reread?⟩ ∧
      (ofArguments request.arguments = invocation.properties ↔
        ∀ entry ∈ invocation.properties.entries, entry.2.IsTrimmed ∧ ¬ entry.2.IsEnclosed) := by
  obtain ⟨buildFile, -, read⟩ := bind_eq_ok_iff.mp read
  obtain ⟨home, -, asked⟩ := bind_eq_ok_iff.mp asked
  cases asked
  have given : ∀ entry ∈ invocation.properties.entries, IsGiven entry := by
    cases read
    exact fun entry member => isGiven_of_mem_ofArguments member
  have distinct : invocation.properties.HasDistinctNames := by
    cases read
    exact .ofList _
  have again := ofArguments_propertyArguments distinct given
  refine ⟨again, ?_⟩
  calc
    _ ↔ invocation.properties.entries.filterMap reread? = invocation.properties.entries.map id := by
      rw [again, List.map_id, Table.mk.injEq]
    _ ↔ ∀ entry ∈ invocation.properties.entries, reread? entry = some (id entry) :=
      List.filterMap_eq_map_iff_forall_eq_some
    _ ↔ _ := by
      refine forall₂_congr fun entry member => ?_
      exact reread?_eq_self_iff (given entry member).filled

/-! A command with quotes inside of quotes, and with blanks inside of quotes. -/

def quotedArguments : List Text :=
  ["publish", "-PdeployRepo=\"'libs'\"", "-P", "space=' '", "-Dhost=h"]

def quotedInvocation : Command.Invocation :=
  ⟨["publish"], [], ⟨[("deployRepo", "'libs'"), ("space", " "), ("host", "h")]⟩⟩

def quotedSurroundings : Surroundings where
  settings := Settings.empty
  tree := ⟨⟨false, []⟩, []⟩
  environment := ∅
  accountHome := some "/"
  time := []
  remarks := fun _ => []
  writePackageUrl := fun found => .ok ("pkg:maven/" ++ found.group ++ "/" ++ found.artifact)
  draw := fun _ => .ok ()

def quotedRequest : Repository.Request :=
  { directory := "/", version := "1",
    arguments := ["-PdeployRepo='libs'", "-Pspace= ", "-Phost=h"],
    userHome := some "/.gradle", buildFile := some [] }

theorem read_quotedArguments :
    Command.Invocation.ofArguments quotedSurroundings.settings quotedArguments =
      .ok quotedInvocation := by
  with_unfolding_all decide

theorem request_quotedInvocation :
    quotedSurroundings.request ⟨false, []⟩ "1" quotedInvocation = .ok quotedRequest := by
  rfl

/-- One pair of quotes is lost, and the value of blanks. -/
theorem properties_passedOn_iff_quoted :
    Command.Invocation.ofArguments quotedSurroundings.settings quotedArguments =
        .ok quotedInvocation ∧
      quotedSurroundings.request ⟨false, []⟩ "1" quotedInvocation = .ok quotedRequest ∧
      ofArguments quotedRequest.arguments = ⟨[("deployRepo", "libs"), ("host", "h")]⟩ := by
  refine ⟨read_quotedArguments, request_quotedInvocation, ?_⟩
  rw [(properties_passedOn_iff read_quotedArguments request_quotedInvocation).1]
  decide

theorem not_forall_properties_kept :
    ¬ ∀ (surroundings : Surroundings) (directory : AbsolutePath) (version : Text)
      (arguments : List Text) (invocation : Command.Invocation) (request : Repository.Request),
      Command.Invocation.ofArguments surroundings.settings arguments = .ok invocation →
      surroundings.request directory version invocation = .ok request →
      ofArguments request.arguments = invocation.properties := by
  intro kept
  have same := kept _ _ _ _ _ _ read_quotedArguments request_quotedInvocation
  have lost : ofArguments quotedRequest.arguments ≠ quotedInvocation.properties := by decide
  exact lost same

end CommandLine.Surroundings

end GradlePublishing
