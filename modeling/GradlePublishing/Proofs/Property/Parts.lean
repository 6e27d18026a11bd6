import GradlePublishing.Proofs.Property.Commented
import GradlePublishing.Proofs.Script.Passed

/-!
The extra properties of a script in parts. Declarations are gathered form by form and put in order by their
offsets. Where the search for `ext` blocks splits, all offsets of the first part come before those of the
second, so the declarations of the script are those of the first part and then those of the second
(`declarations_append`).
-/

namespace GradlePublishing

theorem filter_append_filter_of_sorted {α : Type} {le : α → α → Bool} {p : α → Bool} {xs : List α}
    (sorted : xs.Pairwise fun a b => le a b) (upward : ∀ a b, le a b → p a → p b) :
    xs.filter (!p ·) ++ xs.filter p = xs := by
  induction xs with
  | nil => rfl
  | cons a xs ih =>
    obtain ⟨first, rest⟩ := List.pairwise_cons.mp sorted
    by_cases reached : p a
    · have above : ∀ b ∈ a :: xs, p b :=
        List.forall_mem_cons.mpr ⟨reached, fun b member => upward a b (first b member) reached⟩
      have none : ∀ b ∈ a :: xs, ¬ (!p b) = true := fun b member => by simpa using above b member
      rw [List.filter_eq_nil_iff.mpr none, List.filter_eq_self.mpr above, List.nil_append]
    · have kept : (!p a) = true := by simpa using reached
      have first : (a :: xs).filter (!p ·) = a :: xs.filter (!p ·) := List.filter_cons_of_pos kept
      rw [first, List.filter_cons_of_neg reached, List.cons_append, ih rest]

namespace Property

open Script

abbrev inOrder (found : List (Found Declaration)) : List (Found Declaration) :=
  found.mergeSort fun a b => a.offset ≤ b.offset

theorem pairwise_inOrder (found : List (Found Declaration)) :
    (inOrder found).Pairwise fun a b => decide (a.offset ≤ b.offset) = true :=
  List.pairwise_mergeSort offset_le_trans offset_le_total found

theorem filter_inOrder (p : Found Declaration → Bool) (found : List (Found Declaration)) :
    (inOrder found).filter p = inOrder (found.filter p) :=
  filter_mergeSort offset_le_trans offset_le_total p found

theorem map_value_inOrder_shift (count : Nat) (found : List (Found Declaration)) :
    (inOrder (found.map (Found.shift count))).map Found.value = (inOrder found).map Found.value := by
  rw [inOrder, ← List.map_mergeSort, List.map_map]
  · rfl
  · intro a _ b _
    simp only [Found.offset_shift, Nat.add_le_add_iff_right]

/-- A reading that finds in two parts of a script what it finds in each of them. -/
structure ReadsApart (read : Text → List (Found Declaration)) (front behind : Text) : Prop where
  ahead : (read (front ++ behind)).filter (fun found => !decide (front.length ≤ found.offset)) = read front
  later : (read (front ++ behind)).filter (fun found => decide (front.length ≤ found.offset)) =
    (read behind).map (Found.shift front.length)

namespace ReadsApart

variable {read more : Text → List (Found Declaration)} {front behind : Text}

theorem of_append
    (append : read (front ++ behind) = read front ++ (read behind).map (Found.shift front.length))
    (inside : ∀ found ∈ read front, found.offset < front.length) : ReadsApart read front behind := by
  have parts : (read (front ++ behind)).filter (fun found => !decide (front.length ≤ found.offset)) =
        read front ∧
      (read (front ++ behind)).filter (fun found => decide (front.length ≤ found.offset)) =
        (read behind).map (Found.shift front.length) := by
    rw [append]
    apply filter_append_of_forall
    · intro found member
      simpa using inside found member
    · intro found member
      obtain ⟨later, -, rfl⟩ := List.mem_map.mp member
      simp
  exact ⟨parts.1, parts.2⟩

theorem of_readsByLine (reads : ReadsByLine read) (ends : EndsLine front) (behind : Text) :
    ReadsApart read front behind :=
  of_append (reads.append ends behind) fun _ member => reads.offset_lt member

theorem append (first : ReadsApart read front behind) (second : ReadsApart more front behind) :
    ReadsApart (fun content => read content ++ more content) front behind where
  ahead := by rw [List.filter_append, first.ahead, second.ahead]
  later := by rw [List.filter_append, first.later, second.later, List.map_append]

/-- What is read in two parts of a script is put in order in each part by itself. -/
theorem map_value_inOrder (apart : ReadsApart read front behind) :
    (inOrder (read (front ++ behind))).map Found.value =
      (inOrder (read front)).map Found.value ++ (inOrder (read behind)).map Found.value := by
  have parts := filter_append_filter_of_sorted (p := fun found => decide (front.length ≤ found.offset))
    (pairwise_inOrder (read (front ++ behind))) (by
      intro a b first reached
      simp only [decide_eq_true_eq] at first reached ⊢
      exact Nat.le_trans reached first)
  rw [filter_inOrder, filter_inOrder, apart.ahead, apart.later] at parts
  rw [← parts, List.map_append, map_value_inOrder_shift]

end ReadsApart

theorem offset_lt_of_mem_codeBlockDeclarations {content : Text} {found : Found Declaration}
    (member : found ∈ codeBlockDeclarations content) : found.offset < content.length := by
  have reads : ReadsByLine (codeStatements assignment?) := readsByLine_codeStatements rfl
  obtain ⟨block, located, inside⟩ := List.mem_flatMap.mp member
  obtain ⟨read, here, rfl⟩ := List.mem_map.mp inside
  have braced := isBraced_of_mem_blocks located
  have bound := reads.offset_lt here
  have ends := braced.bodyEnd_lt
  rw [braced.text, List.length_drop, List.length_take] at bound
  rw [Found.offset_shift]
  omega

theorem codeBlockDeclarations_apart {front : Text} (ends : EndsLine front) (splits : Splits "ext" front)
    (behind : Text) : ReadsApart codeBlockDeclarations front behind := by
  refine .of_append ?_ fun found => offset_lt_of_mem_codeBlockDeclarations
  rw [codeBlockDeclarations, splits.blocks_append ends, List.flatMap_append, codeBlockDeclarations,
    codeBlockDeclarations, List.flatMap_map, List.map_flatMap]
  congr 1
  apply List.flatMap_congr
  intro block _
  rw [List.map_map]
  apply List.map_congr_left
  intro found _
  rw [Function.comp_apply, Found.shift_shift]
  rfl

/-- The declarations of a script are those of its parts, one after the other. -/
theorem declarations_append {front : Text} (ends : EndsLine front) (splits : Splits "ext" front)
    (behind : Text) :
    declarations (front ++ behind) = declarations front ++ declarations behind := by
  have statements {reader : Text → Option (Declaration × Text)} (blank : reader [] = none) :
      ReadsApart (codeStatements reader) front behind :=
    .of_readsByLine (readsByLine_codeStatements blank) ends behind
  have apart : ReadsApart codeCandidates front behind :=
    (((codeBlockDeclarations_apart ends splits behind).append (statements rfl)).append
      (statements rfl)).append (statements rfl)
  rw [declarations_eq, apart.map_value_inOrder, ← declarations_eq, ← declarations_eq]

/-! A line break at the end of a script adds nothing. -/

theorem codeStatements_concat_break {reader : Text → Option (Declaration × Text)} (blank : reader [] = none)
    {content : Text} (ends : EndsLine (content ++ ['\n'])) :
    codeStatements reader (content ++ ['\n']) = codeStatements reader content := by
  have kinds : classify (content ++ ['\n']) = classify content ++ [.code] := by
    rw [classify, mark_concat_break ends, List.map_append]
    rfl
  have read : statements reader (content ++ ['\n']) = statements reader content := by
    rw [statements_append_break, statements_nil blank, List.map_nil, List.append_nil]
  rw [codeStatements, read, codeStatements, kinds]
  apply List.filter_congr
  intro found member
  obtain ⟨c, here, -⟩ := char_of_mem_statements blank member
  have inside := (List.getElem?_eq_some_iff.mp here).1
  rw [List.getElem?_append_left (by rwa [length_classify])]

theorem declarations_concat_break {content : Text} (ends : EndsLine (content ++ ['\n'])) :
    declarations (content ++ ['\n']) = declarations content := by
  have inBlocks : codeBlockDeclarations (content ++ ['\n']) = codeBlockDeclarations content := by
    rw [codeBlockDeclarations, blocks_concat_break (by decide) ends, codeBlockDeclarations]
  have statements {reader : Text → Option (Declaration × Text)} (blank : reader [] = none) :
      codeStatements reader (content ++ ['\n']) = codeStatements reader content :=
    codeStatements_concat_break blank ends
  rw [declarations_eq, declarations_eq, codeCandidates, codeCandidates, inBlocks, statements rfl,
    statements rfl, statements rfl]

end Property

end GradlePublishing
