import GradlePublishing.Proofs.Property.Interior
import GradlePublishing.Proofs.Repository.UrlLine
import GradlePublishing.Proofs.Table

/-!
The values of a script as literals. URLs are read off a line by quotes alone, as the values of extra
properties are. Such a value is the whole interior of a literal unless a backslash hides the quote that
closes it, or the one that closes its quoted name (`values_interior`).
-/

namespace GradlePublishing.Repository

open Script

theorem startsValue_of_mem_codeAssignments {dialect : Dialect} {content : Text} {found : Found Text}
    (member : found ∈ codeAssignments dialect content) :
    (Script.classify content)[found.offset]? = some .code ∧
      ∃ rest, StartsValue (content.drop found.offset) [] found.value rest := by
  obtain ⟨listed, code⟩ := List.mem_filter.mp member
  obtain ⟨front, behind, last, rest, rfl, place, read⟩ := of_mem_occurrencesFrom listed
  refine ⟨beq_iff_eq.mp code, rest, ?_⟩
  rw [place, Nat.zero_add, List.drop_left]
  exact (isQuotedReader_assignedUrl? dialect).startsValue read

/-- A value that starts in the code behind its name is the whole interior of a literal, unless the name or
the value hides the quote that closes it. -/
theorem exists_interiorAt_iff {content name value : Text} {index : Nat}
    (code : (Script.classify content)[index]? = some .code)
    (starts : ∃ rest, StartsValue (content.drop index) name value rest) :
    ∃ lead tail rest, content.drop index = lead ++ tail ∧ Introduces name lead ∧ StartsQuoted tail value rest ∧
      (InteriorAt content value (index + lead.length) ↔
        ¬ EndsEscaped name ∧ (EndsEscaped value → rest.head?.all (· == '\n') = true)) := by
  obtain ⟨c, here⟩ := getElem?_mark_of_classify code
  obtain ⟨rest, lead, tail, introduces, text, quoted⟩ := starts
  exact ⟨lead, tail, rest, text, introduces, quoted, interiorAt_iff_of_introduces here introduces text quoted⟩

/-- Every extra property and every URL comes from a quoted value that starts in the code behind its name. The
value is the whole interior of a literal exactly if neither the name nor the value ends in a backslash that
hides the closing quote, where the value may if the line ends behind it. -/
theorem values_interior (dialect : Dialect) (content : Text) :
    ((∀ entry ∈ (Property.extra content).entries,
        ∃ found ∈ Property.codeCandidates content, found.value.value = entry.2) ∧
      ∀ found ∈ Property.codeCandidates content, ∃ lead tail rest,
        content.drop found.offset = lead ++ tail ∧ Introduces found.value.name lead ∧
          StartsQuoted tail found.value.value rest ∧
          (InteriorAt content found.value.value (found.offset + lead.length) ↔
            ¬ EndsEscaped found.value.name ∧
              (EndsEscaped found.value.value → rest.head?.all (· == '\n') = true))) ∧
    (urlsInBlock dialect content =
        (((codeAssignments dialect content).map Found.value).map Text.strip).filter (!·.isEmpty) ∧
      ∀ found ∈ codeAssignments dialect content, ∃ lead tail rest,
        content.drop found.offset = lead ++ tail ∧ Introduces [] lead ∧ StartsQuoted tail found.value rest ∧
          (InteriorAt content found.value (found.offset + lead.length) ↔
            (EndsEscaped found.value → rest.head?.all (· == '\n') = true))) := by
  refine ⟨⟨fun entry member => ?_, fun found member => ?_⟩, urlsInBlock_eq dialect content, fun found member => ?_⟩
  · obtain ⟨declared, listed, rfl⟩ := List.mem_map.mp (Table.mem_of_mem_ofList member)
    rw [Property.declarations_eq] at listed
    obtain ⟨found, sorted, rfl⟩ := List.mem_map.mp listed
    exact ⟨found, List.mem_mergeSort.mp sorted, rfl⟩
  · obtain ⟨code, starts⟩ := Property.startsValue_of_mem_codeCandidates member
    exact exists_interiorAt_iff code starts
  · obtain ⟨code, starts⟩ := startsValue_of_mem_codeAssignments member
    have visible : ¬ EndsEscaped [] := by decide
    simpa only [visible, not_false_eq_true, true_and] using exists_interiorAt_iff code starts

/-- A quote behind a backslash ends the value, but not the literal. -/
theorem not_forall_interiorAt : ¬ ∀ content, ∀ entry ∈ (Property.extra content).entries,
    ∃ start, InteriorAt content entry.2 start := by
  intro all
  have declared : ("x".toList, "a\\".toList) ∈ (Property.extra "ext.x = \"a\\\"b\"").entries := by
    with_unfolding_all decide
  obtain ⟨start, interior⟩ := all _ _ declared
  obtain ⟨token, member, literal, text⟩ := interior.exists_token
  have others : ∀ token ∈ Script.tokens "ext.x = \"a\\\"b\"", token.kind = .literal →
      token.text.dropLast.tail ≠ "a\\" := by
    decide +kernel
  exact others token member literal text

end GradlePublishing.Repository
