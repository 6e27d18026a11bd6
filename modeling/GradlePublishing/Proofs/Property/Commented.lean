import GradlePublishing.Property.Declaration
import GradlePublishing.Proofs.Script.ByLine
import GradlePublishing.Proofs.Script.Commented

/-!
Extra properties of a script into which a comment line is put. The declarations that count are those that
start in the code, put in the order of their offsets. A comment line adds none to them, and those behind
it all move by its length, so their order stays (`declarations_commented`).
-/

namespace GradlePublishing

section Sorting

variable {α : Type} {le : α → α → Bool}

/-- Two parts of a list can be told apart by what the elements of the second have. -/
theorem filter_append_of_forall {p : α → Bool} {front back : List α} (below : ∀ b ∈ front, !p b)
    (above : ∀ b ∈ back, p b) :
    (front ++ back).filter (!p ·) = front ∧ (front ++ back).filter p = back := by
  have first : front.filter p = [] := List.filter_eq_nil_iff.mpr (by simpa using below)
  have later : back.filter (!p ·) = [] := List.filter_eq_nil_iff.mpr (by simpa using above)
  rw [List.filter_append, List.filter_append, first, later, List.filter_eq_self.mpr below,
    List.filter_eq_self.mpr above, List.append_nil, List.nil_append]
  exact ⟨rfl, rfl⟩

theorem filter_mergeSort (trans : ∀ a b c, le a b → le b c → le a c)
    (total : ∀ a b, le a b || le b a) (p : α → Bool) (xs : List α) :
    (xs.mergeSort le).filter p = (xs.filter p).mergeSort le := by
  induction xs with
  | nil => simp
  | cons a xs ih =>
    obtain ⟨front, back, sorted, rest, below⟩ := List.mergeSort_cons trans total a xs
    rw [rest, List.filter_append] at ih
    rw [sorted, List.filter_append]
    by_cases kept : p a
    · obtain ⟨front', back', sorted', rest', below'⟩ :=
        List.mergeSort_cons trans total a (xs.filter p)
      have above {ys front back : List α} (sorted : (a :: ys).mergeSort le = front ++ a :: back) :
          ∀ b ∈ back, le a b := by
        have ordered := List.pairwise_mergeSort trans total (a :: ys)
        rw [sorted, List.pairwise_append] at ordered
        exact (List.pairwise_cons.mp ordered.2.1).1
      have parts : (front.filter p ++ back.filter p).filter (!le a ·) = front.filter p ∧
          (front.filter p ++ back.filter p).filter (le a) = back.filter p :=
        filter_append_of_forall (fun b member => below b (List.mem_filter.mp member).1)
          (fun b member => above sorted b (List.mem_filter.mp member).1)
      have parts' := filter_append_of_forall below' (above sorted')
      rw [ih, rest'] at parts
      rw [List.filter_cons_of_pos kept, List.filter_cons_of_pos kept, sorted',
        ← parts.1, ← parts.2, parts'.1, parts'.2]
    · simp [kept, ih]

end Sorting

namespace Script

/-- The characters of a body have the kinds that they have in the script. -/
theorem Block.IsBraced.getElem?_classify_body {content : Text} {block : Block}
    (braced : block.IsBraced content) {index : Nat} (inside : index < block.body.length) :
    (classify block.body)[index]? = (classify content)[block.bodyStart + index]? := by
  have length : block.body.length = block.bodyEnd - block.bodyStart := by
    have bound := braced.bodyEnd_lt
    rw [braced.text, List.length_drop, List.length_take]
    omega
  have kinds : classify block.body = ((classify content).take block.bodyEnd).drop block.bodyStart := by
    rw [classify, braced.mark_body, marksBetween, List.map_drop, List.map_take, classify]
  rw [kinds, List.getElem?_drop, List.getElem?_take_of_lt (by omega)]

/-- What is read in the body of a block moves with it, or with the end of the body. -/
theorem ReadsByLine.body {α : Type} {read : Text → List (Found α)} (reads : ReadsByLine read)
    {front comment : Text} (line : CommentLine comment) {block commented : Block}
    (related : block.Commented front comment commented) :
    (read commented.body).map (Found.shift commented.bodyStart) =
      ((read block.body).map (Found.shift block.bodyStart)).map
        (Found.move front.length comment.length) := by
  rw [List.map_map]
  cases related with
  | ahead start body fits =>
    rw [start, body]
    refine List.map_congr_left fun found member => ?_
    have inside := reads.offset_lt member
    rw [Function.comp_apply, Found.move_of_lt (by rw [Found.offset_shift]; omega)]
  | behind start body fits =>
    rw [start, body]
    refine List.map_congr_left fun found _ => ?_
    rw [Function.comp_apply, Found.move_of_le (by rw [Found.offset_shift]; omega), Found.shift_shift]
  | around ends start body longer place =>
    rw [start, body, longer, reads.insert ends line, List.map_map]
    refine List.map_congr_left fun found _ => ?_
    rw [Function.comp_apply, Function.comp_apply, Found.shift_move, Nat.add_comm, place]

end Script

namespace Property

open Script

/-- The declarations in the `ext` blocks of a script that start in the code. -/
def codeBlockDeclarations (content : Text) : List (Found Declaration) :=
  (blocks "ext" content).flatMap fun block =>
    (codeStatements assignment? block.body).map (Found.shift block.bodyStart)

theorem filter_blockDeclarations (content : Text) :
    (blockDeclarations content).filter (fun found =>
      (classify content)[found.offset]? == some .code) = codeBlockDeclarations content := by
  rw [blockDeclarations, List.filter_flatMap, codeBlockDeclarations]
  refine List.flatMap_congr fun block member => ?_
  have braced := isBraced_of_mem_blocks member
  rw [List.filter_map, codeStatements]
  refine (List.map_congr_left fun found _ => ?_).trans (congrArg _ (List.filter_congr fun found here => ?_))
  · rw [Found.shift, Nat.add_comm]
  · obtain ⟨c, char, -⟩ := char_of_mem_statements rfl here
    have inside := (List.getElem?_eq_some_iff.mp char).1
    rw [Function.comp_apply, braced.getElem?_classify_body inside]

theorem codeBlockDeclarations_insert {front comment : Text} (ends : EndsLine front)
    (line : CommentLine comment) (behind : Text) :
    codeBlockDeclarations (front ++ comment ++ behind) =
      (codeBlockDeclarations (front ++ behind)).map (Found.move front.length comment.length) := by
  have reads : ReadsByLine (codeStatements assignment?) := readsByLine_codeStatements rfl
  have related : List.Forall₂ (Block.Commented front comment) (blocks "ext" (front ++ behind))
      (blocks "ext" (front ++ comment ++ behind)) :=
    commented_blocks (by decide) (by decide) line ends behind
  rw [codeBlockDeclarations, codeBlockDeclarations, List.map_flatMap]
  exact (flatMap_eq_of_forall₂ related fun _ _ related => (reads.body line related).symm).symm

def codeCandidates (content : Text) : List (Found Declaration) :=
  codeBlockDeclarations content ++ codeStatements dottedAssignment? content ++
    codeStatements indexedAssignment? content ++ codeStatements setterCall? content

theorem offset_le_trans {α : Type} (a b c : Found α) (first : decide (a.offset ≤ b.offset) = true)
    (later : decide (b.offset ≤ c.offset) = true) : decide (a.offset ≤ c.offset) = true := by
  rw [decide_eq_true_eq] at first later ⊢
  exact Nat.le_trans first later

theorem offset_le_total {α : Type} (a b : Found α) :
    (decide (a.offset ≤ b.offset) || decide (b.offset ≤ a.offset)) = true := by
  simpa using Nat.le_total a.offset b.offset

theorem declarations_eq (content : Text) : declarations content =
    ((codeCandidates content).mergeSort fun a b => a.offset ≤ b.offset).map Found.value := by
  rw [declarations, candidates, filter_mergeSort offset_le_trans offset_le_total, List.filter_append,
    List.filter_append, List.filter_append, filter_blockDeclarations]
  rfl

theorem codeCandidates_insert {front comment : Text} (ends : EndsLine front)
    (line : CommentLine comment) (behind : Text) :
    codeCandidates (front ++ comment ++ behind) =
      (codeCandidates (front ++ behind)).map (Found.move front.length comment.length) := by
  have dotted : ReadsByLine (codeStatements dottedAssignment?) := readsByLine_codeStatements rfl
  have indexed : ReadsByLine (codeStatements indexedAssignment?) := readsByLine_codeStatements rfl
  have setter : ReadsByLine (codeStatements setterCall?) := readsByLine_codeStatements rfl
  simp only [codeCandidates, codeBlockDeclarations_insert ends line, dotted.insert ends line,
    indexed.insert ends line, setter.insert ends line, List.map_append]

theorem declarations_insert {front comment : Text} (ends : EndsLine front)
    (line : CommentLine comment) (behind : Text) :
    declarations (front ++ comment ++ behind) = declarations (front ++ behind) := by
  rw [declarations_eq, declarations_eq, codeCandidates_insert ends line, ← List.map_mergeSort,
    List.map_map]
  · exact List.map_congr_left fun found _ => found.value_move _ _
  · intro found _ other _
    simp only [Found.move_le_move_iff]

end Property

end GradlePublishing
