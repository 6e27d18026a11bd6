import GradlePublishing.Proofs.Repository.UrlLine

/-!
What comments and literals hide of a script. The searches for URLs and for apply statements go over the text as it
is, and sort out afterwards what does not start in the code. A match that is sorted out has taken its text with it:
a statement that starts in this text is not found (`IsSwallowed`), and every other one is (`statements_found`).
-/

namespace GradlePublishing

open Script Repository

/-- A match that starts in a comment or in a literal goes on past the index. -/
def IsSwallowed (reader : Option Char → Text → Option (Text × Text)) (content : Text) (index : Nat) : Prop :=
  ∃ ignored ∈ occurrences reader content, (classify content)[ignored.offset]? ≠ some .code ∧
    Covers reader content ignored.offset index

instance (reader : Option Char → Text → Option (Text × Text)) (content : Text) (index : Nat) :
    Decidable (IsSwallowed reader content index) :=
  inferInstanceAs (Decidable (∃ ignored ∈ occurrences reader content, _))

/-- The statements among all readings of a script, without those that are swallowed. -/
def remaining (reader : Option Char → Text → Option (Text × Text)) (content : Text)
    (statements : List (Found Text)) : List (Found Text) :=
  statements.filter fun found => ¬ IsSwallowed reader content found.offset

/-- The URLs that are read in a body wherever the code has a character. -/
def urlStatements (dialect : Dialect) (body : Text) : List (Found Text) :=
  (readings (assignedUrl? dialect) body).filter fun found => (classify body)[found.offset]? == some .code

/-- The paths that are read in a script wherever `apply` stands alone in the code. -/
def applyStatements (dialect : Dialect) (content : Text) : List (Found Text) :=
  (readings (appliedPath? dialect) content).filter fun found =>
    isKeywordOccurrence content found.offset (found.offset + "apply".length)

def strippedValues (statements : List (Found Text)) : List Text := statements.map fun found => Text.strip found.value

/-- Of the readings that start in the code, the search finds all but those that are swallowed. -/
theorem filter_occurrences {keyword letters : Text} {reader : Option Char → Text → Option (Text × Text)}
    (shape : IsQuotedReader keyword letters reader) {content : Text} {keep : Found Text → Bool}
    (code : ∀ found ∈ readings reader content, keep found = true → (classify content)[found.offset]? = some .code) :
    (occurrences reader content).filter keep = remaining reader content ((readings reader content).filter keep) := by
  rw [occurrences_eq_filter, remaining, List.filter_filter, List.filter_filter]
  apply List.filter_congr
  intro found member
  cases kept : keep found with
  | false => rw [Bool.false_and, Bool.and_false]
  | true =>
    rw [Bool.true_and, Bool.and_true]
    apply decide_eq_decide.mpr
    constructor
    · rintro free ⟨ignored, taken, -, covers⟩
      exact free ⟨ignored, taken, covers⟩
    · rintro free ⟨earlier, taken, covers⟩
      by_cases ignored : (classify content)[earlier.offset]? = some .code
      · obtain ⟨-, rest, read⟩ := mem_readings_iff.mp member
        exact shape.not_covers ignored (code found member kept) read covers
      · exact free ⟨earlier, taken, ignored, covers⟩

theorem code_of_isKeywordOccurrence {content : Text} {start stop : Nat} (longer : start < stop)
    (inside : start < content.length) (alone : isKeywordOccurrence content start stop = true) :
    (classify content)[start]? = some .code := by
  rw [isKeywordOccurrence, Bool.and_eq_true, List.all_eq_true] at alone
  have within : start < (classify content).length := by rwa [length_classify]
  have first : (classify content)[start] ∈ ((classify content).drop start).take (stop - start) := by
    rw [List.drop_eq_getElem_cons within, List.take_cons (by omega)]
    exact List.mem_cons_self
  rw [List.getElem?_eq_getElem within, beq_iff_eq.mp (alone.1 _ first)]

theorem map_filter_eq_iff {α β : Type} (l : List α) (keep : α → Bool) (image : α → β) :
    (l.filter keep).map image = l.map image ↔ ∀ x ∈ l, keep x = true := by
  constructor
  · intro same
    have lengths := congrArg List.length same
    rw [List.length_map, List.length_map] at lengths
    exact List.length_filter_eq_length_iff.mp lengths
  · intro all
    rw [List.filter_eq_self.mpr all]

theorem codeAssignments_eq (dialect : Dialect) (body : Text) :
    codeAssignments dialect body = remaining (assignedUrl? dialect) body (urlStatements dialect body) := by
  apply filter_occurrences (isQuotedReader_assignedUrl? dialect)
  intro found member kept
  exact beq_iff_eq.mp kept

theorem writtenPaths_eq (dialect : Dialect) (content : Text) : writtenPaths dialect content =
    strippedValues (remaining (appliedPath? dialect) content (applyStatements dialect content)) := by
  apply congrArg strippedValues
  apply filter_occurrences (isQuotedReader_appliedPath? dialect)
  intro found member kept
  exact code_of_isKeywordOccurrence (Nat.lt_add_of_pos_right (by decide)) (mem_readings_iff.mp member).1 kept

/-- A body gives the URLs of its statements, and a script the paths of its apply statements, except for those
that are swallowed. So they are given completely if and only if no statement is swallowed. -/
theorem statements_found (dialect : Dialect) (content : Text) :
    (urlsInBlock dialect content =
        (strippedValues (remaining (assignedUrl? dialect) content (urlStatements dialect content))).filter
          (!·.isEmpty) ∧
      (urlsInBlock dialect content = (strippedValues (urlStatements dialect content)).filter (!·.isEmpty) ↔
        ∀ found ∈ urlStatements dialect content, Text.strip found.value ≠ [] →
          ¬ IsSwallowed (assignedUrl? dialect) content found.offset)) ∧
    (writtenPaths dialect content =
        strippedValues (remaining (appliedPath? dialect) content (applyStatements dialect content)) ∧
      (writtenPaths dialect content = strippedValues (applyStatements dialect content) ↔
        ∀ found ∈ applyStatements dialect content,
          ¬ IsSwallowed (appliedPath? dialect) content found.offset)) := by
  have urls : urlsInBlock dialect content =
      (strippedValues (remaining (assignedUrl? dialect) content (urlStatements dialect content))).filter
        (!·.isEmpty) := by
    rw [urlsInBlock_eq, codeAssignments_eq, List.map_map]
    rfl
  refine ⟨⟨urls, ?_⟩, writtenPaths_eq dialect content, ?_⟩
  · -- The URLs that are not blank are the values of part of the statements.
    rw [urls, strippedValues, strippedValues, List.filter_map, List.filter_map, remaining, List.filter_comm,
      map_filter_eq_iff]
    simp
  · rw [writtenPaths_eq, strippedValues, strippedValues, remaining, map_filter_eq_iff]
    simp only [decide_eq_true_eq]

/-- The quote in a comment goes up to the next quote, which is the one that opens a value in the code. -/
theorem not_forall_statements_found :
    (¬ ∀ dialect body, urlsInBlock dialect body =
      (strippedValues (urlStatements dialect body)).filter (!·.isEmpty)) ∧
    ¬ ∀ dialect content, writtenPaths dialect content = strippedValues (applyStatements dialect content) := by
  constructor
  · intro all
    have missing : urlsInBlock .groovy "/* url '*/ url 'http://h/a'" ≠
        (strippedValues (urlStatements .groovy "/* url '*/ url 'http://h/a'")).filter (!·.isEmpty) := by
      decide +kernel
    exact missing (all _ _)
  · intro all
    have missing : writtenPaths .groovy "/* apply from: '*/ apply from: 'a.gradle'" ≠
        strippedValues (applyStatements .groovy "/* apply from: '*/ apply from: 'a.gradle'") := by
      decide +kernel
    exact missing (all _ _)

end GradlePublishing
