import GradlePublishing.Proofs.Script.CommentLine
import GradlePublishing.Script.Mask
import GradlePublishing.Script.Pattern

/-!
Readings of a script that go line by line. Where a script is cut at the end of a line, such a reading
finds in it what it finds in the two parts (`ReadsByLine`). It finds nothing in a comment line, so it
does not notice one that is put in (`ReadsByLine.insert`).
-/

namespace GradlePublishing.Script

variable {α : Type}

def Found.shift (count : Nat) (found : Found α) : Found α :=
  { found with offset := found.offset + count }

@[simp] theorem Found.offset_shift (count : Nat) (found : Found α) :
    (found.shift count).offset = found.offset + count := rfl

theorem Found.shift_shift (first later : Nat) (found : Found α) :
    (found.shift first).shift later = found.shift (first + later) := by
  simp [Found.shift, Nat.add_assoc]

/-- What is found from `place` on moves when text is put in there, and what is in front of it stays. -/
def Found.move (place count : Nat) (found : Found α) : Found α :=
  if found.offset < place then found else found.shift count

theorem Found.value_move (place count : Nat) (found : Found α) :
    (found.move place count).value = found.value := by
  unfold Found.move
  split <;> rfl

theorem Found.move_of_lt {place count : Nat} {found : Found α} (ahead : found.offset < place) :
    found.move place count = found := if_pos ahead

theorem Found.move_of_le {place count : Nat} {found : Found α} (behind : place ≤ found.offset) :
    found.move place count = found.shift count := if_neg (Nat.not_lt.mpr behind)

theorem Found.move_le_move_iff {place count : Nat} {found other : Found α} :
    (found.move place count).offset ≤ (other.move place count).offset ↔
      found.offset ≤ other.offset := by
  unfold Found.move
  split <;> split <;> simp only [Found.offset_shift] <;> omega

theorem Found.shift_move (start place count : Nat) (found : Found α) :
    (found.move place count).shift start = (found.shift start).move (place + start) count := by
  by_cases ahead : found.offset < place
  · rw [move_of_lt ahead, move_of_lt (by simpa using ahead)]
  · rw [move_of_le (by omega), move_of_le (by simp only [Found.offset_shift]; omega), shift_shift,
      shift_shift, Nat.add_comm]

/-! Statements, at the head of each line. -/

theorem linesFrom_append (offset : Nat) (first more : List Text) :
    linesFrom offset (first ++ more) =
      linesFrom offset first ++
        linesFrom (offset + (first.map (·.length + 1)).foldr (· + ·) 0) more := by
  induction first generalizing offset with
  | nil => simp [linesFrom]
  | cons line first ih =>
    simp only [List.cons_append, linesFrom, ih, List.map_cons, List.foldr_cons]
    congr 3
    omega

theorem sum_length_lines (content : Text) :
    ((Text.lines content).map (·.length + 1)).foldr (· + ·) 0 = content.length + 1 := by
  induction content with
  | nil => rfl
  | cons c content ih =>
    rw [Text.lines, List.splitOn_cons_eq_if_modifyHead]
    rw [Text.lines] at ih
    by_cases here : c = '\n'
    · simp [here, ih]
      omega
    · obtain ⟨line, more, lines⟩ := List.exists_cons_of_ne_nil (List.splitOn_ne_nil '\n' content)
      rw [lines] at ih ⊢
      simp only [beq_iff_eq, here, ↓reduceIte, List.modifyHead_cons, List.map_cons, List.foldr_cons,
        List.length_cons] at ih ⊢
      omega

theorem linesFrom_shift (count offset : Nat) (lines : List Text) :
    linesFrom (offset + count) lines = (linesFrom offset lines).map (Found.shift count) := by
  induction lines generalizing offset with
  | nil => rfl
  | cons line lines ih =>
    simp only [linesFrom, List.map_cons, ← ih]
    congr 2
    omega

variable {reader : Text → Option (α × Text)}

theorem statements_append_break (front behind : Text) :
    statements reader (front ++ '\n' :: behind) =
      statements reader front ++ (statements reader behind).map (Found.shift (front.length + 1)) := by
  have lines : Text.lines (front ++ '\n' :: behind) = Text.lines front ++ Text.lines behind :=
    List.splitOn_append_cons_of_beq front behind (by simp)
  rw [statements, lines, linesFrom_append, List.filterMap_append, sum_length_lines, linesFrom_shift,
    List.filterMap_map, statements, statements, List.map_filterMap]
  congr 2
  funext line
  cases read : reader (skipGap line.value) with
  | none => simp [Found.shift, read]
  | some result =>
    simp only [Function.comp_apply, Found.shift, read, Option.map_some, Option.some.injEq,
      Found.mk.injEq, and_true]
    omega

theorem statements_single {s : Text} (single : '\n' ∉ s) : statements reader s =
    ((reader (skipGap s)).map fun (value, _) => ⟨(s.takeWhile isGap).length, value⟩).toList := by
  rw [statements, Text.lines, List.splitOn_eq_singleton single, linesFrom, linesFrom,
    List.filterMap_cons, List.filterMap_nil, Nat.zero_add]
  cases reader (skipGap s) <;> rfl

theorem statements_nil (blank : reader [] = none) : statements reader [] = [] := by
  simp [statements, Text.lines, linesFrom, skipGap, blank]

theorem statements_append (blank : reader [] = none) {front : Text} (ends : EndsLine front)
    (behind : Text) : statements reader (front ++ behind) =
      statements reader front ++ (statements reader behind).map (Found.shift front.length) := by
  rcases ends.eq_append with rfl | ⟨before, rfl⟩
  · have same : Found.shift (α := α) 0 = id := rfl
    rw [statements_nil blank, List.nil_append, List.length_nil, same, List.map_id, List.nil_append]
  · have whole : statements reader (before ++ ['\n']) = statements reader before := by
      rw [statements_append_break, statements_nil blank, List.map_nil, List.append_nil]
    rw [whole, List.append_assoc, List.singleton_append, statements_append_break, List.length_append,
      List.length_singleton]

theorem char_of_skipGap {s behind : Text} {c : Char} (left : skipGap s = c :: behind) :
    s[(s.takeWhile isGap).length]? = some c ∧ isGap c = false := by
  have whole := List.takeWhile_append_dropWhile (p := isGap) (l := s)
  have rest : s.dropWhile isGap = c :: behind := left
  constructor
  · rw [rest] at whole
    calc
      _ = (s.takeWhile isGap ++ c :: behind)[(s.takeWhile isGap).length]? := by rw [whole]
      _ = some c := by simp
  · have stops := List.head?_dropWhile_not isGap s
    rwa [rest] at stops

theorem of_mem_statements {content : Text} {found : Found α} (member : found ∈ statements reader content) :
    ∃ front line rest more, content = front ++ (line ++ rest) ∧
      found.offset = front.length + (line.takeWhile isGap).length ∧
      reader (skipGap line) = some (found.value, more) ∧ '\n' ∉ line ∧
      (front = [] ∨ ∃ before, front = before ++ ['\n']) ∧ (rest = [] ∨ ∃ later, rest = '\n' :: later) := by
  induction size : content.length using Nat.strongRecOn generalizing content found with
  | ind size ih =>
  by_cases broken : '\n' ∈ content
  · obtain ⟨first, behind, rfl, single⟩ := List.eq_append_cons_of_mem broken
    rw [List.length_append, List.length_cons] at size
    rw [statements_append_break] at member
    rcases List.mem_append.mp member with member | member
    · obtain ⟨front, line, rest, more, rfl, place, read, inLine, starts, ends⟩ :=
        ih first.length (by omega) member rfl
      refine ⟨front, line, rest ++ '\n' :: behind, more, by simp, place, read, inLine, starts, .inr ?_⟩
      rcases ends with rfl | ⟨later, rfl⟩
      · exact ⟨behind, rfl⟩
      · exact ⟨later ++ '\n' :: behind, rfl⟩
    · obtain ⟨later, inside, rfl⟩ := List.mem_map.mp member
      obtain ⟨front, line, rest, more, rfl, place, read, inLine, starts, ends⟩ :=
        ih behind.length (by omega) inside rfl
      refine ⟨first ++ '\n' :: front, line, rest, more, by simp, ?_, read, inLine, .inr ?_, ends⟩
      · rw [Found.offset_shift, place, List.length_append, List.length_cons]
        omega
      · rcases starts with rfl | ⟨before, rfl⟩
        · exact ⟨first, rfl⟩
        · exact ⟨first ++ '\n' :: before, by simp⟩
  · rw [statements_single broken, Option.mem_toList] at member
    obtain ⟨⟨value, more⟩, read, rfl⟩ := Option.map_eq_some_iff.mp member
    exact ⟨[], content, [], more, by simp, by simp, read, broken, .inl rfl, .inl rfl⟩

/-- A statement starts at a character that is neither a gap nor a line break. -/
theorem char_of_mem_statements (blank : reader [] = none) {content : Text} {found : Found α}
    (member : found ∈ statements reader content) :
    ∃ c, content[found.offset]? = some c ∧ c ≠ '\n' ∧ isGap c = false ∧
      ∃ behind rest, reader (c :: behind) = some (found.value, rest) := by
  obtain ⟨front, line, rest, more, rfl, place, read, inLine, -⟩ := of_mem_statements member
  cases left : skipGap line with
  | nil =>
    rw [left, blank] at read
    cases read
  | cons c behind =>
    obtain ⟨here, solid⟩ := char_of_skipGap left
    have inside := (List.getElem?_eq_some_iff.mp here).1
    refine ⟨c, ?_, ?_, solid, behind, more, left ▸ read⟩
    · rw [place, List.getElem?_append_right (Nat.le_add_right _ _), Nat.add_sub_cancel_left,
        List.getElem?_append_left inside, here]
    · rintro rfl
      exact inLine (List.mem_of_getElem? here)

theorem indent_of_mem_statements {content : Text} {found : Found α}
    (member : found ∈ statements reader content) : ∃ start ≤ found.offset,
      (start = 0 ∨ ∃ last, start = last + 1 ∧ content[last]? = some '\n') ∧
        ∀ index, start ≤ index → index < found.offset → ∃ c, content[index]? = some c ∧ isGap c = true := by
  obtain ⟨front, text, rest, more, rfl, place, -, -, starts, -⟩ := of_mem_statements member
  refine ⟨front.length, by omega, ?_, fun index behind ahead => ?_⟩
  · rcases starts with rfl | ⟨before, rfl⟩
    · exact .inl rfl
    · exact .inr ⟨before.length, by simp, by simp⟩
  · obtain ⟨offset, rfl⟩ := Nat.exists_eq_add_of_le behind
    have inside : offset < (text.takeWhile isGap).length := by omega
    have here : text[offset]? = some (text.takeWhile isGap)[offset] :=
      List.prefix_iff_getElem?.mp (List.takeWhile_prefix isGap) offset inside
    refine ⟨_, ?_, List.all_eq_true.mp List.all_takeWhile _ (List.getElem_mem inside)⟩
    rw [List.getElem?_append_right (Nat.le_add_right _ _), Nat.add_sub_cancel_left,
      List.getElem?_append_left (List.getElem?_eq_some_iff.mp here).1, here]

/-! Occurrences, of which one hides those that start inside it. -/

/-- A reader that looks no further than to the end of a line, and takes something from it. -/
structure IsLineReader (reader : Option Char → Text → Option (α × Text)) : Prop where
  append : ∀ before front behind, reader before (front ++ '\n' :: behind) =
    (reader before front).map fun (value, rest) => (value, rest ++ '\n' :: behind)
  blank : ∀ before, reader before [] = none
  first : ∀ s, reader (some '\n') s = reader none s

section

variable {reader : Option Char → Text → Option (α × Text)}

theorem occurrencesFrom_append_break (reads : IsLineReader reader) {hidden : Nat}
    {before : Option Char} {offset : Nat} {front : Text} (fits : hidden ≤ front.length)
    (behind : Text) : occurrencesFrom reader hidden before offset (front ++ '\n' :: behind) =
      occurrencesFrom reader hidden before offset front ++
        occurrencesFrom reader 0 (some '\n') (offset + front.length + 1) behind := by
  induction front generalizing hidden before offset with
  | nil =>
    obtain rfl : hidden = 0 := Nat.le_zero.mp fits
    have nothing : reader before ('\n' :: behind) = none := by
      have whole := reads.append before [] behind
      rwa [reads.blank, Option.map_none] at whole
    rw [List.nil_append, occurrencesFrom, List.nil_append, occurrencesFrom, nothing]
    rfl
  | cons c front ih =>
    have place : offset + (c :: front).length + 1 = offset + 1 + front.length + 1 := by
      rw [List.length_cons]
      omega
    rw [place, List.cons_append]
    cases hidden with
    | succ hidden => exact ih (Nat.le_of_succ_le_succ fits)
    | zero =>
      have whole := reads.append before (c :: front) behind
      rw [List.cons_append] at whole
      cases found : reader before (c :: front) with
      | none =>
        rw [found, Option.map_none] at whole
        rw [occurrencesFrom, whole, occurrencesFrom, found]
        exact ih (Nat.zero_le _)
      | some result =>
        obtain ⟨value, rest⟩ := result
        rw [found, Option.map_some] at whole
        have same : (front ++ '\n' :: behind).length - (rest ++ '\n' :: behind).length =
            front.length - rest.length := by
          simp only [List.length_append]
          omega
        rw [occurrencesFrom, whole, occurrencesFrom, found]
        dsimp only
        rw [same, ih (Nat.sub_le _ _), List.cons_append]

theorem occurrencesFrom_shift (count hidden : Nat) (before : Option Char) (offset : Nat) (s : Text) :
    occurrencesFrom reader hidden before (offset + count) s =
      (occurrencesFrom reader hidden before offset s).map (Found.shift count) := by
  induction s generalizing hidden before offset with
  | nil => simp [occurrencesFrom]
  | cons c s ih =>
    cases hidden with
    | succ hidden => rw [occurrencesFrom, occurrencesFrom, Nat.add_right_comm, ih]
    | zero =>
      rw [occurrencesFrom, occurrencesFrom]
      cases reader before (c :: s) with
      | none => rw [Nat.add_right_comm, ih]
      | some result =>
        dsimp only
        rw [Nat.add_right_comm, ih, List.map_cons, Found.shift]

theorem occurrencesFrom_first (reads : IsLineReader reader) (offset : Nat) (s : Text) :
    occurrencesFrom reader 0 (some '\n') offset s = occurrencesFrom reader 0 none offset s := by
  cases s with
  | nil => rfl
  | cons c s => rw [occurrencesFrom, occurrencesFrom, reads.first]

theorem occurrences_nil : occurrences reader [] = [] := rfl

theorem occurrences_append (reads : IsLineReader reader) {front : Text} (ends : EndsLine front)
    (behind : Text) : occurrences reader (front ++ behind) =
      occurrences reader front ++ (occurrences reader behind).map (Found.shift front.length) := by
  rcases ends.eq_append with rfl | ⟨before, rfl⟩
  · have same : Found.shift (α := α) 0 = id := rfl
    simp [occurrences, occurrencesFrom, same]
  · have split (more : Text) : occurrences reader (before ++ '\n' :: more) =
        occurrences reader before ++
          (occurrences reader more).map (Found.shift (before.length + 1)) := by
      rw [occurrences, occurrencesFrom_append_break reads (Nat.zero_le _), occurrencesFrom_first reads,
        Nat.add_assoc, occurrencesFrom_shift]
      rfl
    have whole : occurrences reader (before ++ ['\n']) = occurrences reader before := by
      rw [split, occurrences_nil, List.map_nil, List.append_nil]
    rw [whole, List.append_assoc, List.singleton_append, split, List.length_append,
      List.length_singleton]

theorem of_mem_occurrencesFrom {hidden : Nat} {before : Option Char} {offset : Nat} {s : Text}
    {found : Found α} (member : found ∈ occurrencesFrom reader hidden before offset s) :
    ∃ front rest last more, s = front ++ rest ∧ found.offset = offset + front.length ∧
      reader last rest = some (found.value, more) := by
  induction s generalizing hidden before offset with
  | nil => simp [occurrencesFrom] at member
  | cons c s ih =>
    have later {hidden : Nat}
        (member : found ∈ occurrencesFrom reader hidden (some c) (offset + 1) s) :
        ∃ front rest last more, c :: s = front ++ rest ∧ found.offset = offset + front.length ∧
          reader last rest = some (found.value, more) := by
      obtain ⟨front, rest, last, more, rfl, place, read⟩ := ih member
      exact ⟨c :: front, rest, last, more, rfl, by rw [place, List.length_cons]; omega, read⟩
    cases hidden with
    | succ hidden => exact later member
    | zero =>
      rw [occurrencesFrom] at member
      cases read : reader before (c :: s) with
      | none =>
        rw [read] at member
        exact later member
      | some result =>
        rw [read] at member
        rcases List.mem_cons.mp member with rfl | member
        · exact ⟨[], c :: s, before, result.2, rfl, rfl, read⟩
        · exact later member

theorem char_of_mem_occurrences (reads : IsLineReader reader) {content : Text} {found : Found α}
    (member : found ∈ occurrences reader content) :
    ∃ c, content[found.offset]? = some c ∧ c ≠ '\n' := by
  obtain ⟨front, rest, last, more, rfl, place, read⟩ := of_mem_occurrencesFrom member
  rw [Nat.zero_add] at place
  cases rest with
  | nil =>
    rw [reads.blank] at read
    cases read
  | cons c rest =>
    refine ⟨c, by rw [place]; simp, ?_⟩
    rintro rfl
    have whole := reads.append last [] rest
    rw [List.nil_append, read, reads.blank] at whole
    cases whole

end

/-! Readings that keep only what is code. -/

theorem classify_append {front : Text} (ends : EndsLine front) (behind : Text) :
    classify (front ++ behind) = classify front ++ classify behind := by
  rw [classify, mark_append ends, List.map_append]
  rfl

/-- A reading that goes line by line and finds nothing but code. -/
structure ReadsByLine (read : Text → List (Found α)) : Prop where
  append : ∀ {front : Text}, EndsLine front → ∀ behind,
    read (front ++ behind) = read front ++ (read behind).map (Found.shift front.length)
  code : ∀ {content : Text} {found : Found α}, found ∈ read content →
    ∃ c, (mark content)[found.offset]? = some (c, .code) ∧ c ≠ '\n'

theorem ReadsByLine.filter {plain : Text → List (Found α)} {keep : Text → Found α → Bool}
    (append : ∀ {front : Text}, EndsLine front → ∀ behind,
      plain (front ++ behind) = plain front ++ (plain behind).map (Found.shift front.length))
    (ahead : ∀ {front behind : Text} {found : Found α}, EndsLine front → found ∈ plain front →
      keep (front ++ behind) found = keep front found)
    (behind : ∀ {front behind : Text} {found : Found α}, EndsLine front → found ∈ plain behind →
      keep (front ++ behind) (found.shift front.length) = keep behind found)
    (code : ∀ {content : Text} {found : Found α}, found ∈ plain content → keep content found = true →
      ∃ c, (mark content)[found.offset]? = some (c, .code) ∧ c ≠ '\n') :
    ReadsByLine fun content => (plain content).filter (keep content) where
  append := by
    intro front ends more
    rw [append ends, List.filter_append, List.filter_map, List.filter_congr fun found => ahead ends]
    congr 2
    exact List.filter_congr fun found => behind ends
  code := by
    intro content found member
    exact code (List.mem_filter.mp member).1 (List.mem_filter.mp member).2

theorem ReadsByLine.filter_code {plain : Text → List (Found α)}
    (append : ∀ {front : Text}, EndsLine front → ∀ behind,
      plain (front ++ behind) = plain front ++ (plain behind).map (Found.shift front.length))
    (char : ∀ {content : Text} {found : Found α}, found ∈ plain content →
      ∃ c, content[found.offset]? = some c ∧ c ≠ '\n') :
    ReadsByLine fun content =>
      (plain content).filter fun found => (classify content)[found.offset]? == some .code := by
  apply ReadsByLine.filter append
  · intro front behind found ends member
    obtain ⟨c, here, -⟩ := char member
    obtain ⟨inside, -⟩ := List.getElem?_eq_some_iff.mp here
    rw [classify_append ends, List.getElem?_append_left (by rwa [length_classify])]
  · intro front behind found ends member
    rw [classify_append ends, Found.shift, List.getElem?_append_right (by simp [length_classify]),
      length_classify, Nat.add_sub_cancel]
  · intro content found member kept
    obtain ⟨c, here, notBreak⟩ := char member
    exact ⟨c, getElem?_mark here (beq_iff_eq.mp kept), notBreak⟩

/-- The statements of a script that start in the code. -/
def codeStatements (reader : Text → Option (α × Text)) (content : Text) : List (Found α) :=
  (statements reader content).filter fun found => (classify content)[found.offset]? == some .code

theorem readsByLine_codeStatements (blank : reader [] = none) : ReadsByLine (codeStatements reader) := by
  refine .filter_code (statements_append blank) fun member => ?_
  obtain ⟨c, here, notBreak, -⟩ := char_of_mem_statements blank member
  exact ⟨c, here, notBreak⟩

namespace ReadsByLine

variable {read : Text → List (Found α)} {front comment behind : Text}

theorem comment_eq_nil (reads : ReadsByLine read) (line : CommentLine comment) :
    read comment = [] := by
  refine List.eq_nil_iff_forall_not_mem.mpr fun found member => ?_
  obtain ⟨c, here, notBreak⟩ := reads.code member
  rcases line.isBlank _ (List.mem_of_getElem? here) with kind | same
  · cases kind
  · exact notBreak (Prod.mk.inj same).1

theorem offset_lt (reads : ReadsByLine read) {content : Text} {found : Found α}
    (member : found ∈ read content) : found.offset < content.length := by
  obtain ⟨c, here, -⟩ := reads.code member
  have inside := (List.getElem?_eq_some_iff.mp here).1
  have same := congrArg List.length (map_fst_mark content)
  rwa [← same, List.length_map]

theorem insert (reads : ReadsByLine read) (ends : EndsLine front) (line : CommentLine comment)
    (behind : Text) : read (front ++ comment ++ behind) =
      (read (front ++ behind)).map (Found.move front.length comment.length) := by
  rw [List.append_assoc, reads.append ends, reads.append line.endsLine, reads.comment_eq_nil line,
    List.nil_append, reads.append ends, List.map_append, List.map_map, List.map_map]
  congr 1
  · rw [List.map_congr_left fun found member => Found.move_of_lt (reads.offset_lt member),
      List.map_id']
  · congr 1
    funext found
    rw [Function.comp_apply, Function.comp_apply, Found.move_of_le (Nat.le_add_left _ _),
      Found.shift_shift, Found.shift_shift, Nat.add_comm]

theorem map_value_insert (reads : ReadsByLine read) (ends : EndsLine front)
    (line : CommentLine comment) (behind : Text) :
    (read (front ++ comment ++ behind)).map Found.value =
      (read (front ++ behind)).map Found.value := by
  rw [reads.insert ends line, List.map_map]
  exact List.map_congr_left fun found _ => found.value_move _ _

end ReadsByLine

end GradlePublishing.Script
