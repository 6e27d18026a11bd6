import GradlePublishing.Proofs.Coordinates.Decided
import GradlePublishing.Proofs.Script.LineReader
import GradlePublishing.Proofs.Script.TopLevel

/-!
The coordinates that a script assigns at its top level. What counts is the last assignment of a coordinate
that stands outside all braces and starts in the code. The mask shows no other assignments but for those on
the lines of a literal that starts on an earlier line (`get?_ofScript`).
-/

namespace GradlePublishing.Coordinates

open Script

def lead? (s : Text) : Option (Field × Text) :=
  fieldName? (((Text.after? "rootProject." s).or (Text.after? "project." s)).getD s)

theorem assignment?_eq (s : Text) : assignment? s =
    (lead? s).bind fun (field, rest) =>
      (quotedPiece? rest).bind fun (value, rest) => some ((field, value), rest) := rfl

/-- One name of a coordinate, and what follows it up to the value. -/
def named? (entry : Text × Field) (s : Text) : Option (Field × Text) :=
  (Text.after? entry.1 s).bind fun rest =>
    (Text.after? "=" (skipGap rest)).bind fun rest => some (entry.2, skipGap rest)

theorem fieldName?_eq (s : Text) : fieldName? s = fieldNames.findSome? (named? · s) := rfl

theorem ordinary_of_mem_fieldNames :
    ∀ entry ∈ fieldNames, entry.1 ≠ [] ∧ entry.1.all isOrdinary = true := by decide

theorem findSome?_congr {α β : Type} {f g : α → Option β} {xs : List α} (same : ∀ x ∈ xs, f x = g x) :
    xs.findSome? f = xs.findSome? g := by
  induction xs with
  | nil => rfl
  | cons x xs ih =>
    rw [List.findSome?_cons, List.findSome?_cons, same x List.mem_cons_self,
      ih fun y member => same y (List.mem_cons_of_mem x member)]

section

variable {quote : Char} (quotes : Text.isQuote quote = true)

include quotes

theorem after?_append_quote {lead : Text} (ordinary : lead.all isOrdinary = true) (front behind : Text) :
    Text.after? lead (front ++ quote :: behind) = (Text.after? lead front).map (· ++ quote :: behind) := by
  refine Text.after?_append_stop (fun member => ?_) front behind
  rw [isQuote_of_isOrdinary (List.all_eq_true.mp ordinary quote member)] at quotes
  cases quotes

theorem skipGap_append_quote (front behind : Text) :
    skipGap (front ++ quote :: behind) = skipGap front ++ quote :: behind :=
  Text.dropWhile_append_stop (isGap_quote quotes) front behind

theorem named?_append_quote {entry : Text × Field} (ordinary : entry.1.all isOrdinary = true)
    (front behind : Text) : named? entry (front ++ quote :: behind) =
      (named? entry front).map fun (field, rest) => (field, rest ++ quote :: behind) := by
  have sign : "=".toList.all isOrdinary = true := by decide
  unfold named?
  rw [after?_append_quote quotes ordinary]
  cases Text.after? entry.1 front with
  | none => rfl
  | some rest =>
    rw [Option.map_some, Option.bind_some, Option.bind_some, skipGap_append_quote quotes,
      after?_append_quote quotes sign]
    cases Text.after? "=" (skipGap rest) with
    | none => rfl
    | some rest =>
      rw [Option.map_some, Option.bind_some, Option.bind_some, skipGap_append_quote quotes]
      rfl

theorem fieldName?_append_quote (front behind : Text) :
    fieldName? (front ++ quote :: behind) =
      (fieldName? front).map fun (field, rest) => (field, rest ++ quote :: behind) := by
  rw [fieldName?_eq, fieldName?_eq, List.map_findSome?]
  refine findSome?_congr fun entry member => ?_
  exact named?_append_quote quotes (ordinary_of_mem_fieldNames entry member).2 front behind

theorem lead?_append_quote (front behind : Text) : lead? (front ++ quote :: behind) =
    (lead? front).map fun (field, rest) => (field, rest ++ quote :: behind) := by
  have root : "rootProject.".toList.all isOrdinary = true := by decide
  have project : "project.".toList.all isOrdinary = true := by decide
  rw [lead?, lead?, after?_append_quote quotes root, after?_append_quote quotes project,
    ← fieldName?_append_quote quotes]
  cases Text.after? "rootProject." front <;> cases Text.after? "project." front <;> rfl

end

theorem exists_of_lead? {s rest : Text} {field : Field} (read : lead? s = some (field, rest)) :
    ∃ front, s = front ++ rest ∧ front ≠ [] ∧ ∀ c ∈ front, isOrdinary c = true := by
  obtain ⟨unqualified, ⟨qualifier, ordinary, rfl⟩, found⟩ : ∃ unqualified, GoesOnWith s unqualified ∧
      fieldName? unqualified = some (field, rest) := by
    unfold lead? at read
    cases root : Text.after? "rootProject." s with
    | some unqualified =>
      rw [root] at read
      exact ⟨unqualified, PassesOver.of_after? (by decide) root, read⟩
    | none =>
      cases project : Text.after? "project." s with
      | some unqualified =>
        rw [root, project] at read
        exact ⟨unqualified, PassesOver.of_after? (by decide) project, read⟩
      | none =>
        rw [root, project] at read
        exact ⟨s, PassesOver.refl s, read⟩
  obtain ⟨entry, member, found⟩ := List.exists_of_findSome?_eq_some (fieldName?_eq unqualified ▸ found)
  obtain ⟨tail, name, found⟩ := Option.bind_eq_some_iff.mp found
  obtain ⟨last, sign, same⟩ := Option.bind_eq_some_iff.mp found
  obtain ⟨-, rfl⟩ := Prod.mk.inj (Option.some.inj same)
  obtain ⟨nonempty, letters⟩ := ordinary_of_mem_fieldNames entry member
  obtain ⟨lead, signs, parts⟩ : GoesOnWith tail (skipGap last) :=
    (PassesOver.skipGap rfl rfl tail).trans (.trans (.of_after? (by decide) sign) (.skipGap rfl rfl last))
  refine ⟨qualifier ++ (entry.1 ++ lead), ?_, by simp [nonempty], ?_⟩
  · rw [Text.after?_eq_some_iff.mp name, parts, List.append_assoc, List.append_assoc]
  · exact List.forall_mem_append.mpr ⟨ordinary, List.forall_mem_append.mpr ⟨List.all_eq_true.mp letters, signs⟩⟩

theorem readsOnePiece_assignment? : ReadsOnePiece assignment? := by
  intro s value rest read
  obtain ⟨⟨field, tail⟩, lead, read⟩ := Option.bind_eq_some_iff.mp (assignment?_eq s ▸ read)
  obtain ⟨⟨piece, behind⟩, quoted, same⟩ := Option.bind_eq_some_iff.mp read
  obtain ⟨rfl, rfl⟩ := Prod.mk.inj (Option.some.inj same)
  obtain ⟨front, rfl, nonempty, plain⟩ := exists_of_lead? lead
  obtain ⟨quote, quotes, unquoted, single, rfl⟩ := eq_of_quotedPiece? quoted
  refine ⟨front, quote, piece, rfl, nonempty, plain, quotes, unquoted, fun other => ?_⟩
  rw [lead?_append_quote quotes] at lead
  obtain ⟨⟨field, tail⟩, ahead, same⟩ := Option.map_eq_some_iff.mp lead
  obtain ⟨rfl, rest⟩ := Prod.mk.inj same
  obtain rfl : tail = [] := List.append_left_eq_self.mp rest
  have again := quotedPiece?_quoted quotes single unquoted other
  simp only [assignment?_eq, lead?_append_quote quotes, ahead, Option.map_some, Option.bind_some,
    List.nil_append, again]

/-- Whether a statement gives a coordinate a value that is not blank. -/
def assigns (field : Field) (found : Found (Field × Text)) : Bool :=
  found.value.1 == field && !(Text.strip found.value.2).isEmpty

/-- The last of some statements that gives a coordinate a value that is not blank. -/
def last? (field : Field) (statements : List (Found (Field × Text))) : Option (Found (Field × Text)) :=
  (statements.filter (assigns field)).getLast?

def valueOf (found : Found (Field × Text)) : Text := Text.strip found.value.2

/-- The assignments of a script that start in the code, outside all braces. -/
def topLevel (content : Text) : List (Found (Field × Text)) :=
  (statements assignment? (uncommented content)).filter fun found =>
    (classify content)[found.offset]? == some .code && decide (IsTopLevel content found.offset)

theorem get?_ofScript_eq (content : Text) (field : Field) : (ofScript content).get? field =
    (last? field (statements assignment? (mask content))).map valueOf := by
  unfold ofScript
  generalize statements assignment? (mask content) = found
  induction found using List.reverseRecOn with
  | nil => cases field <;> rfl
  | append_singleton earlier found ih =>
    rw [List.foldl_append, List.foldl_cons, List.foldl_nil, last?, List.filter_append]
    dsimp only
    by_cases blank : (Text.strip found.value.2).isEmpty = true
    · have dropped : assigns field found = false := by simp [assigns, blank]
      rw [if_pos blank, ih, List.filter_cons_of_neg (by simp [dropped]), List.filter_nil, List.append_nil,
        last?]
    · rw [if_neg blank, Assigned.get?_set]
      by_cases same : field = found.value.1
      · have kept : assigns field found = true := by simp [assigns, blank, same]
        rw [if_pos same, List.filter_cons_of_pos kept, List.filter_nil, List.getLast?_concat]
        rfl
      · have dropped : assigns field found = false := by simp [assigns, Ne.symm same]
        rw [if_neg same, ih, List.filter_cons_of_neg (by simp [dropped]), List.filter_nil, List.append_nil,
          last?]

/-- The last statement is also the last of those that are kept, if it is kept itself. -/
theorem last?_filter {field : Field} {statements : List (Found (Field × Text))}
    {keep : Found (Field × Text) → Bool} {found : Found (Field × Text)}
    (last : last? field statements = some found) (kept : keep found = true) :
    last? field (statements.filter keep) = some found := by
  obtain ⟨earlier, parts⟩ := List.getLast?_eq_some_iff.mp last
  rw [last?, List.filter_comm, parts, List.filter_append, List.filter_cons_of_pos kept, List.filter_nil,
    List.getLast?_concat]

theorem topLevel_eq (content : Text) : topLevel content =
    (statements assignment? (mask content)).filter fun found =>
      (classify content)[found.offset]? == some .code :=
  (readsOnePiece_assignment?.statements_mask content).symm

/-- Every coordinate comes from an assignment outside all braces that starts in the code, or on a line of a
literal that starts on an earlier line. Its value is that of the last assignment that starts in the code,
exactly if no line of a literal decides otherwise. -/
theorem get?_ofScript (content : Text) (field : Field) :
    (∀ value, (ofScript content).get? field = some value → ∃ found : Found (Field × Text),
      found.value.1 = field ∧ valueOf found = value ∧ (found ∈ topLevel content ∨
        found ∈ statements assignment? (mask content) ∧ IsTopLevel content found.offset ∧
          IsWithinLiteral content found.offset)) ∧
    ((ofScript content).get? field = (last? field (topLevel content)).map valueOf ↔
      ∀ found, last? field (statements assignment? (mask content)) = some found →
        IsWithinLiteral content found.offset →
          (last? field (topLevel content)).map valueOf = some (valueOf found)) := by
  have reads := readsOnePiece_assignment?
  rw [get?_ofScript_eq]
  constructor
  · intro value assigned
    obtain ⟨found, last, same⟩ := Option.map_eq_some_iff.mp assigned
    obtain ⟨member, assigns⟩ := List.mem_filter.mp (List.mem_of_getLast? last)
    obtain ⟨surface, code | within⟩ := reads.place_of_mem_statements member
    · refine ⟨found, beq_iff_eq.mp (Bool.and_eq_true_iff.mp assigns).1, same, .inl ?_⟩
      rw [topLevel_eq]
      exact List.mem_filter.mpr ⟨member, by rw [code]; rfl⟩
    · exact ⟨found, beq_iff_eq.mp (Bool.and_eq_true_iff.mp assigns).1, same, .inr ⟨member, surface, within⟩⟩
  · cases last : last? field (statements assignment? (mask content)) with
    | none =>
      have none : last? field (topLevel content) = none := by
        rw [last?, List.getLast?_eq_none_iff] at last ⊢
        rw [topLevel_eq, List.filter_comm, last, List.filter_nil]
      rw [none]
      constructor
      · rintro - found ⟨⟩
      · exact fun _ => rfl
    | some found =>
      constructor
      · rintro same _ ⟨⟩ -
        exact same.symm
      intro decides
      obtain ⟨member, -⟩ := List.mem_filter.mp (List.mem_of_getLast? last)
      obtain ⟨-, code | within⟩ := reads.place_of_mem_statements member
      · rw [topLevel_eq, last?_filter last (by rw [code]; rfl)]
      · exact (decides found rfl within).symm

/-- A line of a tripled literal that reads like an assignment decides the group. -/
theorem not_forall_get?_ofScript : ¬ ∀ content field,
    (ofScript content).get? field = (last? field (topLevel content)).map valueOf := by
  intro all
  have group := all "description = \"\"\"\ngroup = \"evil\"\n\"\"\"\n" .group
  exact absurd group (by decide +kernel)

end GradlePublishing.Coordinates
