import GradlePublishing.Proofs.Property.Commented
import GradlePublishing.Proofs.Script.Interior

/-!
The values of extra properties as literals. A declaration is read off its line by quotes alone; where it
starts in the code, its value stands behind a lead of ordinary characters and the name
(`startsValue_of_mem_codeCandidates`).
-/

namespace GradlePublishing.Property

open Script

section Readers

variable {s rest : Text} {declared : Declaration}

theorem exists_of_valueAfter? {mark value : Text} (ordinary : mark.all isOrdinary = true)
    (read : valueAfter? mark s = some (value, rest)) :
    ∃ tail, GoesOnWith s tail ∧ StartsQuoted tail value rest := by
  obtain ⟨behind, found, quoted⟩ := Option.bind_eq_some_iff.mp read
  refine ⟨_, ?_, startsQuoted_of_quotedValue? quoted⟩
  exact (PassesOver.skipGap rfl rfl s).trans (.trans (.of_after? ordinary found) (.skipGap rfl rfl behind))

theorem isOrdinary_of_isAlphanum {c : Char} (inName : (c.isAlphanum || c == '_' || c == '.') = true) :
    isOrdinary c = true := by
  cases ordinary : isOrdinary c with
  | true => rfl
  | false =>
    have other : c ∈ ['"', '\'', '/', '{', '}', '\\', '\n'] := by
      simp only [List.mem_cons]
      grind [isOrdinary, isPlain, Text.isQuote]
    simp only [List.mem_cons, List.not_mem_nil, or_false] at other
    rcases other with rfl | rfl | rfl | rfl | rfl | rfl | rfl <;> cases inName

theorem eq_append_of_propertyName? {name : Text} (read : propertyName? s = some (name, rest)) :
    s = name ++ rest ∧ ∀ c ∈ name, isOrdinary c = true := by
  cases s with
  | nil => cases read
  | cons c s =>
    rw [propertyName?, name?] at read
    split at read
    · next starts =>
      cases read
      refine ⟨by rw [List.cons_append, List.takeWhile_append_dropWhile], ?_⟩
      refine List.forall_mem_cons.mpr ⟨isOrdinary_of_isAlphanum ?_, fun d member => ?_⟩
      · rw [Char.isAlphanum]
        grind
      · have inName := List.mem_takeWhile_imp member
        exact isOrdinary_of_isAlphanum inName
    · cases read

theorem startsValue_of_assignment? (read : assignment? s = some (declared, rest)) :
    StartsValue s declared.name declared.value rest := by
  obtain ⟨⟨name, behind⟩, named, read⟩ := Option.bind_eq_some_iff.mp read
  obtain ⟨⟨value, last⟩, valued, same⟩ := Option.bind_eq_some_iff.mp read
  cases same
  obtain ⟨tail, ⟨between, ordinary, rfl⟩, quoted⟩ := exists_of_valueAfter? (by decide) valued
  obtain ⟨rfl, letters⟩ := eq_append_of_propertyName? named
  have all : ∀ c ∈ name ++ between, isOrdinary c = true := List.forall_mem_append.mpr ⟨letters, ordinary⟩
  exact ⟨name ++ between, tail, .bare [] between all, (List.append_assoc _ _ _).symm, quoted⟩

theorem startsValue_of_quotedName? {name middle value : Text}
    (named : quotedName? s = some (name, middle)) {tail : Text} (between : GoesOnWith middle tail)
    (quoted : StartsQuoted tail value rest) : StartsValue s name value rest := by
  obtain ⟨found, -⟩ := Option.filter_eq_some_iff.mp named
  obtain ⟨quote, quotes, nonempty, unquoted, single, rfl⟩ := startsQuoted_of_quotedValue? found
  obtain ⟨behind, ordinary, rfl⟩ := between
  exact ⟨quote :: (name ++ quote :: behind), tail,
    .quoted [] behind quotes nonempty unquoted single ordinary, by simp, quoted⟩

theorem startsValue_of_dottedAssignment? (read : dottedAssignment? s = some (declared, rest)) :
    StartsValue s declared.name declared.value rest := by
  obtain ⟨behind, found, read⟩ := Option.bind_eq_some_iff.mp read
  exact .of_goesOnWith ((PassesOver.skipOptional (by decide) s).trans (.of_after? (by decide) found))
    (startsValue_of_assignment? read)

theorem startsValue_of_indexedAssignment? (read : indexedAssignment? s = some (declared, rest)) :
    StartsValue s declared.name declared.value rest := by
  obtain ⟨inside, found, read⟩ := Option.bind_eq_some_iff.mp read
  obtain ⟨⟨name, closing⟩, named, read⟩ := Option.bind_eq_some_iff.mp read
  obtain ⟨behind, closed, read⟩ := Option.bind_eq_some_iff.mp read
  obtain ⟨⟨value, last⟩, valued, same⟩ := Option.bind_eq_some_iff.mp read
  cases same
  obtain ⟨tail, sign, quoted⟩ := exists_of_valueAfter? (by decide) valued
  have ahead : GoesOnWith s (skipGap inside) :=
    (PassesOver.skipOptional (by decide) s).trans (.trans (.of_after? (by decide) found) (.skipGap rfl rfl inside))
  have between : GoesOnWith closing tail :=
    (PassesOver.skipGap rfl rfl closing).trans (.trans (.of_after? (by decide) closed) sign)
  exact .of_goesOnWith ahead (startsValue_of_quotedName? named between quoted)

theorem startsValue_of_setterCall? (read : setterCall? s = some (declared, rest)) :
    StartsValue s declared.name declared.value rest := by
  obtain ⟨inside, found, read⟩ := Option.bind_eq_some_iff.mp read
  obtain ⟨⟨name, behind⟩, named, read⟩ := Option.bind_eq_some_iff.mp read
  obtain ⟨⟨value, last⟩, valued, same⟩ := Option.bind_eq_some_iff.mp read
  cases same
  obtain ⟨tail, sign, quoted⟩ := exists_of_valueAfter? (by decide) valued
  have ahead : GoesOnWith s (skipGap inside) :=
    (PassesOver.skipOptional (by decide) s).trans (.trans (.of_after? (by decide) found) (.skipGap rfl rfl inside))
  exact .of_goesOnWith ahead (startsValue_of_quotedName? named sign quoted)

end Readers

/-- Where a statement starts in the code, the script goes on with what its reader reads. -/
theorem startsValue_of_mem_codeStatements {reader : Text → Option (Declaration × Text)}
    (values : ∀ {s rest declared}, reader s = some (declared, rest) →
      StartsValue s declared.name declared.value rest) {content : Text} {found : Found Declaration}
    (member : found ∈ codeStatements reader content) : (classify content)[found.offset]? = some .code ∧
      ∃ rest, StartsValue (content.drop found.offset) found.value.name found.value.value rest := by
  obtain ⟨listed, code⟩ := List.mem_filter.mp member
  obtain ⟨front, line, behind, more, rfl, place, read, -⟩ := of_mem_statements listed
  refine ⟨beq_iff_eq.mp code, more ++ behind, ?_⟩
  have indented : line ++ behind = line.takeWhile isGap ++ (skipGap line ++ behind) := by
    rw [← List.append_assoc, skipGap, List.takeWhile_append_dropWhile]
  rw [place, ← List.drop_drop, List.drop_left, indented, List.drop_left]
  exact (values read).append behind

theorem startsValue_of_mem_codeCandidates {content : Text} {found : Found Declaration}
    (member : found ∈ codeCandidates content) : (classify content)[found.offset]? = some .code ∧
      ∃ rest, StartsValue (content.drop found.offset) found.value.name found.value.value rest := by
  simp only [codeCandidates, List.mem_append] at member
  rcases member with ((member | member) | member) | member
  · obtain ⟨block, listed, member⟩ := List.mem_flatMap.mp member
    obtain ⟨inBody, read, rfl⟩ := List.mem_map.mp member
    have braced := isBraced_of_mem_blocks listed
    obtain ⟨code, rest, starts⟩ := startsValue_of_mem_codeStatements startsValue_of_assignment? read
    have inside : inBody.offset < block.body.length := by
      have bound := (List.getElem?_eq_some_iff.mp code).1
      rwa [length_classify] at bound
    rw [braced.getElem?_classify_body inside] at code
    have text : content.drop block.bodyStart = block.body ++ content.drop block.bodyEnd := by
      have ends := braced.bodyEnd_lt
      have ordered := braced.ordered
      rw [braced.text, ← List.drop_append_of_le_length (by rw [List.length_take]; omega),
        List.take_append_drop]
    refine ⟨by rw [Found.offset_shift, Nat.add_comm, code], rest ++ content.drop block.bodyEnd, ?_⟩
    rw [Found.offset_shift, Nat.add_comm, ← List.drop_drop, text,
      List.drop_append_of_le_length (Nat.le_of_lt inside)]
    exact starts.append _
  · exact startsValue_of_mem_codeStatements startsValue_of_dottedAssignment? member
  · exact startsValue_of_mem_codeStatements startsValue_of_indexedAssignment? member
  · exact startsValue_of_mem_codeStatements startsValue_of_setterCall? member

end GradlePublishing.Property
