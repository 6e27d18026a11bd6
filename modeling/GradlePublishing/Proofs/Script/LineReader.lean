import GradlePublishing.Proofs.Script.ByLine
import GradlePublishing.Proofs.Text.Split
import GradlePublishing.Repository.Declared
import GradlePublishing.Script.Applied

/-!
Readers that look no further than to the end of a line. Those for assigned URLs and for apply statements
are put together from pieces that all keep to the line, so their readings of a script go line by line.
-/

namespace GradlePublishing

/-- A search for a piece does not look past a character that the piece has not. -/
theorem Text.after?_append_stop {lead : Text} {stop : Char} (absent : stop ∉ lead) (front behind : Text) :
    after? lead (front ++ stop :: behind) = (after? lead front).map (· ++ stop :: behind) := by
  induction lead generalizing front with
  | nil => rfl
  | cons l lead ih =>
    rw [List.mem_cons, not_or] at absent
    cases front with
    | nil => simp [after?, Ne.symm absent.1]
    | cons c front => by_cases same : l = c <;> simp [after?, same, ih absent.2]

theorem Text.after?_append_break {lead : Text} (inLine : '\n' ∉ lead) (front behind : Text) :
    after? lead (front ++ '\n' :: behind) = (after? lead front).map (· ++ '\n' :: behind) :=
  after?_append_stop inLine front behind

namespace Script

theorem skipGap_append_break (front behind : Text) :
    skipGap (front ++ '\n' :: behind) = skipGap front ++ '\n' :: behind :=
  Text.dropWhile_append_stop rfl front behind

theorem quotedPiece?_append_break (front behind : Text) :
    quotedPiece? (front ++ '\n' :: behind) =
      (quotedPiece? front).map fun (value, rest) => (value, rest ++ '\n' :: behind) := by
  cases front with
  | nil => rfl
  | cons quote front =>
    simp only [List.cons_append, quotedPiece?, Text.dropWhile_append_stop, Text.takeWhile_append_stop,
      bne_self_eq_false, Bool.and_false]
    cases isQuote : Text.isQuote quote with
    | false => rfl
    | true =>
      cases front.dropWhile fun c => c != quote && c != '\n' with
      | nil =>
        have notBreak : '\n' ≠ quote := by
          rintro rfl
          cases isQuote
        simp [notBreak]
      | cons close rest => by_cases closed : close = quote <;> simp [closed]

theorem quotedValue?_append_break (front behind : Text) :
    quotedValue? (front ++ '\n' :: behind) =
      (quotedValue? front).map fun (value, rest) => (value, rest ++ '\n' :: behind) := by
  rw [quotedValue?, quotedValue?, quotedPiece?_append_break]
  match quotedPiece? front with
  | none => rfl
  | some ([], rest) => rfl
  | some (c :: value, rest) => rfl

theorem skipOptional_append_break {piece : Text} (inLine : '\n' ∉ piece) (front behind : Text) :
    skipOptional piece (front ++ '\n' :: behind) = skipOptional piece front ++ '\n' :: behind := by
  rw [skipOptional, skipOptional, Text.after?_append_break inLine]
  cases Text.after? piece front <;> rfl

theorem skipCallStart?_append_break (front behind : Text) :
    skipCallStart? (front ++ '\n' :: behind) =
      (skipCallStart? front).map (· ++ '\n' :: behind) := by
  have first : (front ++ '\n' :: behind).head?.any isGap = front.head?.any isGap := by
    cases front with
    | nil => rfl
    | cons c front => rfl
  rw [skipCallStart?, skipCallStart?, skipGap_append_break, first]
  cases skipGap front with
  | nil => cases front.head?.any isGap <;> rfl
  | cons c rest =>
    by_cases opens : c = '('
    · subst opens
      simp only [List.cons_append, skipGap_append_break, Option.map_some]
    · simp only [List.cons_append]
      cases front.head?.any isGap <;> simp [opens]

theorem skipUriCall_append_break (front behind : Text) :
    Repository.skipUriCall (front ++ '\n' :: behind) =
      Repository.skipUriCall front ++ '\n' :: behind := by
  have opened : ((Text.after? "uri" (front ++ '\n' :: behind)).bind fun rest =>
      Text.after? "(" (skipGap rest)) =
        ((Text.after? "uri" front).bind fun rest => Text.after? "(" (skipGap rest)).map
          (· ++ '\n' :: behind) := by
    simp (disch := decide) only [Text.after?_append_break, Option.bind_map, Option.map_bind,
      Function.comp_def, skipGap_append_break]
  rw [Repository.skipUriCall, Repository.skipUriCall, opened]
  cases (Text.after? "uri" front).bind fun rest => Text.after? "(" (skipGap rest) with
  | none => rfl
  | some rest => exact skipGap_append_break rest behind

theorem skipAssign_append_break (front behind : Text) :
    Repository.skipAssign (front ++ '\n' :: behind) =
      Repository.skipAssign front ++ '\n' :: behind := by
  cases front with
  | nil => rfl
  | cons c front =>
    rw [List.cons_append, Repository.skipAssign, Repository.skipAssign, skipGap_append_break]
    split <;> rfl

theorem groovyApply?_append_break (front behind : Text) :
    groovyApply? (front ++ '\n' :: behind) =
      (groovyApply? front).map fun (value, rest) => (value, rest ++ '\n' :: behind) := by
  simp (disch := decide) only [groovyApply?, Option.bind_eq_bind, Option.bind_map, Option.map_bind,
    Function.comp_def, Text.after?_append_break, skipCallStart?_append_break, skipGap_append_break,
    quotedValue?_append_break]

theorem kotlinApply?_append_break (front behind : Text) :
    kotlinApply? (front ++ '\n' :: behind) =
      (kotlinApply? front).map fun (value, rest) => (value, rest ++ '\n' :: behind) := by
  simp (disch := decide) only [kotlinApply?, Option.bind_eq_bind, Option.bind_map, Option.map_bind,
    Function.comp_def, Text.after?_append_break, skipGap_append_break, quotedValue?_append_break]

theorem groovyUrl?_append_break (front behind : Text) :
    Repository.groovyUrl? (front ++ '\n' :: behind) =
      (Repository.groovyUrl? front).map fun (value, rest) => (value, rest ++ '\n' :: behind) := by
  simp (disch := decide) only [Repository.groovyUrl?, Option.bind_eq_bind, Option.bind_map,
    Option.map_bind, Function.comp_def, Text.after?_append_break, skipGap_append_break,
    skipAssign_append_break, skipUriCall_append_break, quotedValue?_append_break]

theorem kotlinUrl?_append_break (front behind : Text) :
    Repository.kotlinUrl? (front ++ '\n' :: behind) =
      (Repository.kotlinUrl? front).map fun (value, rest) => (value, rest ++ '\n' :: behind) := by
  simp (disch := decide) only [Repository.kotlinUrl?, Option.bind_eq_bind, Option.bind_map,
    Option.map_bind, Function.comp_def, Text.after?_append_break, skipOptional_append_break,
    skipGap_append_break]
  congr 1
  funext rest
  cases skipGap (skipOptional ".set" rest) with
  | nil => rfl
  | cons c rest =>
    simp only [List.cons_append, skipGap_append_break, skipUriCall_append_break, quotedValue?_append_break]
    split <;> rfl

/-- A reader that asks only whether a word may start where it reads. -/
theorem isLineReader_of_startsWord {α : Type} {read : Text → Option (α × Text)}
    (append : ∀ front behind, read (front ++ '\n' :: behind) =
      (read front).map fun (value, rest) => (value, rest ++ '\n' :: behind))
    (blank : read [] = none) :
    IsLineReader fun before s => if Text.startsWord before then read s else none where
  append := by
    intro before front behind
    cases Text.startsWord before with
    | false => rfl
    | true => exact append front behind
  blank := by
    intro before
    rw [blank, ite_self]
  first := by
    intro s
    rfl

theorem isLineReader_assignedUrl? (dialect : Dialect) :
    IsLineReader (Repository.assignedUrl? dialect) := by
  cases dialect with
  | groovy => exact isLineReader_of_startsWord groovyUrl?_append_break rfl
  | kotlin => exact isLineReader_of_startsWord kotlinUrl?_append_break rfl

theorem isLineReader_appliedPath? (dialect : Dialect) : IsLineReader (appliedPath? dialect) := by
  cases dialect with
  | groovy => exact isLineReader_of_startsWord groovyApply?_append_break rfl
  | kotlin => exact isLineReader_of_startsWord kotlinApply?_append_break rfl

/-! The URLs in a repository block, and the apply statements of a script. -/

theorem readsByLine_assignedUrl? (dialect : Dialect) :
    ReadsByLine fun body => (occurrences (Repository.assignedUrl? dialect) body).filter fun found =>
      (classify body)[found.offset]? == some .code :=
  .filter_code (occurrences_append (isLineReader_assignedUrl? dialect))
    (char_of_mem_occurrences (isLineReader_assignedUrl? dialect))

theorem isKeywordOccurrence_append_left {front behind : Text} {start stop : Nat}
    (ends : EndsLine front) (ordered : start ≤ stop) (inside : stop < front.length) :
    isKeywordOccurrence (front ++ behind) start stop = isKeywordOccurrence front start stop := by
  have kinds : (classify front).length = front.length := length_classify front
  rw [isKeywordOccurrence, isKeywordOccurrence, classify_append ends,
    List.drop_append_of_le_length (by omega),
    List.take_append_of_le_length (by rw [List.length_drop]; omega),
    List.take_append_of_le_length (by omega), List.head?_drop, List.head?_drop,
    List.getElem?_append_left inside]

theorem isKeywordOccurrence_append_right {front behind : Text} {start stop : Nat}
    (ends : EndsLine front) :
    isKeywordOccurrence (front ++ behind) (start + front.length) (stop + front.length) =
      isKeywordOccurrence behind start stop := by
  have before : ((front ++ behind).take (start + front.length)).getLast?.all isDelimiter =
      (behind.take start).getLast?.all isDelimiter := by
    have last : front.getLast?.all isDelimiter = true := by
      rcases ends.eq_append with rfl | ⟨line, rfl⟩
      · rfl
      · rw [List.getLast?_concat]
        rfl
    rw [Nat.add_comm, List.take_length_add_append, List.getLast?_append]
    cases (behind.take start).getLast? with
    | none => exact last
    | some c => rfl
  have kinds : (classify (front ++ behind)).drop (start + front.length) =
      (classify behind).drop start := by
    rw [classify_append ends, Nat.add_comm, ← length_classify front, List.drop_length_add_append]
  rw [isKeywordOccurrence, isKeywordOccurrence, isBounded, isBounded, before, kinds,
    Nat.add_sub_add_right, Nat.add_comm stop, List.drop_length_add_append]

theorem eq_append_of_appliedPath? {dialect : Dialect} {before : Option Char} {s : Text}
    {result : Text × Text} (read : appliedPath? dialect before s = some result) :
    ∃ more, s = "apply".toList ++ more := by
  unfold appliedPath? at read
  split at read
  · cases dialect with
    | groovy =>
      obtain ⟨more, found, -⟩ := Option.bind_eq_some_iff.mp read
      exact ⟨more, Text.after?_eq_some_iff.mp found⟩
    | kotlin =>
      obtain ⟨more, found, -⟩ := Option.bind_eq_some_iff.mp read
      exact ⟨more, Text.after?_eq_some_iff.mp found⟩
  · cases read

theorem eq_append_of_mem_occurrences {dialect : Dialect} {content : Text} {found : Found Text}
    (member : found ∈ occurrences (appliedPath? dialect) content) :
    ∃ front more, content = front ++ ("apply".toList ++ more) ∧ found.offset = front.length := by
  obtain ⟨front, rest, last, behind, rfl, place, read⟩ := of_mem_occurrencesFrom member
  obtain ⟨more, rfl⟩ := eq_append_of_appliedPath? read
  exact ⟨front, more, rfl, by rw [place, Nat.zero_add]⟩

theorem readsByLine_appliedPath? (dialect : Dialect) :
    ReadsByLine fun content => (occurrences (appliedPath? dialect) content).filter fun found =>
      isKeywordOccurrence content found.offset (found.offset + "apply".length) := by
  have reads := isLineReader_appliedPath? dialect
  apply ReadsByLine.filter (occurrences_append reads)
  · intro front behind found ends member
    obtain ⟨before, more, rfl, place⟩ := eq_append_of_mem_occurrences member
    refine isKeywordOccurrence_append_left ends (Nat.le_add_right _ _) ?_
    -- The line break at the end stands behind the keyword.
    have notLast : more ≠ [] := by
      rintro rfl
      obtain empty | ⟨line, broken⟩ := ends.eq_append
      · simp at empty
      · have last := congrArg List.getLast? broken
        simp at last
    have positive := List.length_pos_iff.mpr notLast
    rw [place, List.length_append, List.length_append, String.length_toList]
    omega
  · intro front behind found ends member
    have moved : found.offset + front.length + "apply".length =
        found.offset + "apply".length + front.length := Nat.add_right_comm _ _ _
    rw [Found.shift, moved, isKeywordOccurrence_append_right ends]
  · intro content found member kept
    obtain ⟨c, char, notBreak⟩ := char_of_mem_occurrences reads member
    refine ⟨c, getElem?_mark char ?_, notBreak⟩
    obtain ⟨inside, -⟩ := List.getElem?_eq_some_iff.mp char
    have kinds : found.offset < (classify content).length := by rwa [length_classify]
    rw [isKeywordOccurrence, Bool.and_eq_true, Nat.add_sub_cancel_left, List.drop_eq_getElem_cons kinds]
      at kept
    have first : (classify content)[found.offset] = .code :=
      beq_iff_eq.mp (List.all_eq_true.mp kept.1 _ List.mem_cons_self)
    rw [List.getElem?_eq_getElem kinds, first]

end Script

end GradlePublishing
