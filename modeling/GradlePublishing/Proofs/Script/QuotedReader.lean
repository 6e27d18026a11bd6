import GradlePublishing.Proofs.Script.Interior
import GradlePublishing.Proofs.Script.Occurrences
import GradlePublishing.Repository.Declared
import GradlePublishing.Script.Applied

/-!
Readers of a keyword and, behind a few more letters, a value in quotes. URLs and apply statements are read like
that. The keyword does not come again in front of the value, and the value lies in a literal when the keyword is
code, so one match in the code never hides another one (`IsQuotedReader.not_covers`): only what starts in a
comment or in a literal can do so.
-/

namespace GradlePublishing.Script

/-- A reader of a keyword and a value in quotes with some of the letters between them. The last letter of the
keyword is none of those. -/
structure IsQuotedReader (keyword letters : Text) (reader : Option Char → Text → Option (Text × Text)) : Prop where
  parts : ∀ {before s value rest}, reader before s = some (value, rest) →
    ∃ behind tail, s = keyword ++ behind ∧ PassesOver letters.contains behind tail ∧ StartsQuoted tail value rest
  ordinary : ∀ c ∈ keyword ++ letters, isOrdinary c = true
  last : ∃ front letter, keyword = front ++ [letter] ∧ letter ∉ letters

section

variable {keyword letters content : Text} {reader : Option Char → Text → Option (Text × Text)}

theorem PassesOver.exists_lead {s rest : Text} (passed : PassesOver letters.contains s rest) :
    ∃ lead, lead ⊆ letters ∧ s = lead ++ rest := by
  obtain ⟨lead, within, whole⟩ := passed
  exact ⟨lead, fun c member => List.contains_iff_mem.mp (within c member), whole⟩

theorem IsQuotedReader.ordinary_append (shape : IsQuotedReader keyword letters reader) {lead : Text}
    (within : lead ⊆ letters) : ∀ c ∈ keyword ++ lead, isOrdinary c = true := by
  intro c member
  rcases List.mem_append.mp member with member | member
  · exact shape.ordinary c (List.mem_append_left _ member)
  · exact shape.ordinary c (List.mem_append_right _ (within member))

theorem IsQuotedReader.startsWith (shape : IsQuotedReader keyword letters reader) {letter : Char}
    (first : keyword.head? = some letter) : StartsWith letter reader := by
  intro c other before s
  cases read : reader before (c :: s) with
  | none => rfl
  | some result =>
    obtain ⟨more, rfl⟩ := List.head?_eq_some_iff.mp first
    obtain ⟨behind, tail, start, -⟩ := shape.parts read
    exact absurd (List.cons.inj start).1 other

theorem IsQuotedReader.startsValue (shape : IsQuotedReader keyword letters reader) {before : Option Char}
    {s value rest : Text} (read : reader before s = some (value, rest)) : StartsValue s [] value rest := by
  obtain ⟨behind, tail, rfl, passed, quoted⟩ := shape.parts read
  obtain ⟨lead, within, rfl⟩ := passed.exists_lead
  exact .of_quoted ⟨keyword ++ lead, shape.ordinary_append within, (List.append_assoc _ _ _).symm⟩ quoted

theorem not_prefix_drop {front lead behind : Text} {letter quote : Char} (absent : letter ∉ lead)
    (unquoted : quote ∉ front ++ [letter]) {skip : Nat} (ahead : 0 < skip)
    (inside : skip < (front ++ [letter] ++ lead).length) :
    ¬ (front ++ [letter]) <+: (front ++ [letter] ++ lead ++ quote :: behind).drop skip := by
  rintro ⟨more, again⟩
  have same (index : Nat) (within : index < (front ++ [letter]).length) :
      (front ++ [letter] ++ lead ++ quote :: behind)[skip + index]? = (front ++ [letter])[index]? := by
    rw [← List.getElem?_drop, ← again, List.getElem?_append_left within]
  by_cases reaches : skip + front.length < (front ++ [letter] ++ lead).length
  · -- The last letter stands between the keyword and the quote.
    have here := same front.length (by simp)
    rw [List.getElem?_append_left reaches, List.getElem?_append_right (by simp; omega), List.getElem?_concat_length]
      at here
    exact absent (List.mem_of_getElem? here)
  · -- The quote is one of the letters.
    have here := same ((front ++ [letter] ++ lead).length - skip) (by simp at reaches inside ⊢; omega)
    rw [Nat.add_sub_cancel' (Nat.le_of_lt inside), List.getElem?_append_right (Nat.le_refl _), Nat.sub_self,
      List.getElem?_cons_zero] at here
    exact unquoted (List.mem_of_getElem? here.symm)

theorem IsBoundary.mark_quoted {index : Nat} (boundary : IsBoundary content index) {value rest : Text}
    (starts : StartsQuoted (content.drop index) value rest) {place : Nat} (first : index ≤ place)
    (last : place + rest.length < content.length) : ∃ c, (mark content)[place]? = some (c, .literal) := by
  obtain ⟨quote, quotes, nonempty, unquoted, single, here⟩ := starts
  have literal := (boundary.literalAt_iff here quotes).mpr rfl
  refine literal.getElem?_mark first ?_
  have whole := congrArg List.length here
  rw [nextToken_quoted quotes nonempty unquoted, lineLiteral_append_quote quotes single unquoted]
  simp only [List.length_drop, List.length_cons, List.length_append] at whole ⊢
  split
  · simp only [List.length_append, List.length_cons]
    omega
  · simp only [List.length_append, List.length_cons, List.length_nil]
    omega

theorem getElem?_mark_of_classify {index : Nat} {kind : Kind} (code : (classify content)[index]? = some kind) :
    ∃ c, (mark content)[index]? = some (c, kind) := by
  rw [classify, List.getElem?_map] at code
  obtain ⟨⟨c, kind⟩, here, rfl⟩ := Option.map_eq_some_iff.mp code
  exact ⟨c, here⟩

/-- What is read in the code does not cover what is read in the code. -/
theorem IsQuotedReader.not_covers (shape : IsQuotedReader keyword letters reader) {index later : Nat}
    (code : (classify content)[index]? = some .code) (behind : (classify content)[later]? = some .code)
    {result : Text × Text} (read : readAt reader content later = some result) :
    ¬ Covers reader content index later := by
  rintro ⟨ahead, ⟨value, rest⟩, first, ends⟩
  obtain ⟨more, tail, start, passed, quoted⟩ := shape.parts first
  obtain ⟨lead, within, rfl⟩ := passed.exists_lead
  obtain ⟨front, letter, rfl, absent⟩ := shape.last
  obtain ⟨c, here⟩ := getElem?_mark_of_classify code
  have ordinary := shape.ordinary_append within
  have plain : ∀ c ∈ front ++ [letter] ++ lead, isPlain c = true := fun c member =>
    (isOrdinary_eq_true_iff.mp (ordinary c member)).1
  rw [← List.append_assoc] at start
  have boundary := (isBoundary_of_code here).plain start plain
  have opening : content.drop (index + (front ++ [letter] ++ lead).length) = tail := by
    rw [← List.drop_drop, start, List.drop_left]
  by_cases reaches : later < index + (front ++ [letter] ++ lead).length
  · obtain ⟨quote, quotes, -, -, -, text⟩ := quoted
    obtain ⟨behind, -, again, -⟩ := shape.parts read
    have unquoted : quote ∉ front ++ [letter] := by
      intro member
      rw [isQuote_of_isOrdinary (ordinary quote (List.mem_append_left _ member))] at quotes
      cases quotes
    have restarts : (front ++ [letter]) <+:
        (front ++ [letter] ++ lead ++ quote :: (value ++ quote :: rest)).drop (later - index) := by
      rw [← text, ← start, List.drop_drop, Nat.add_sub_cancel' (Nat.le_of_lt ahead), again]
      exact List.prefix_append _ _
    exact not_prefix_drop (fun member => absent (within member)) unquoted (by omega) (by omega) restarts
  · obtain ⟨c, literal⟩ := boundary.mark_quoted (opening ▸ quoted) (Nat.le_of_not_lt reaches) ends
    obtain ⟨d, other⟩ := getElem?_mark_of_classify behind
    rw [literal] at other
    cases other

end

/-! The readers of URLs and of apply statements. -/

section

variable {passes : Char → Bool} {s rest : Text} (space : passes ' ' = true) (tab : passes '\t' = true)

include space tab

theorem passesOver_skipUriCall (name : "uri".toList.all passes = true) (opening : "(".toList.all passes = true)
    (s : Text) : PassesOver passes s (Repository.skipUriCall s) := by
  unfold Repository.skipUriCall
  split
  · next rest found =>
    obtain ⟨behind, word, opened⟩ := Option.bind_eq_some_iff.mp found
    exact (PassesOver.of_after? name word).trans ((PassesOver.skipGap space tab behind).trans
      ((PassesOver.of_after? opening opened).trans (.skipGap space tab rest)))
  · exact .refl s

theorem passesOver_skipAssign (colon : passes ':' = true) (equals : passes '=' = true) (s : Text) :
    PassesOver passes s (Repository.skipAssign s) := by
  unfold Repository.skipAssign
  split
  · next c rest =>
    split
    · next sign =>
      have letter : passes c = true := by
        obtain rfl | rfl : c = ':' ∨ c = '=' := by simpa using sign
        · exact colon
        · exact equals
      exact (PassesOver.cons letter rest).trans (.skipGap space tab rest)
    · exact .refl _
  · exact .refl []

theorem passesOver_skipCallStart? (opening : passes '(' = true) (found : skipCallStart? s = some rest) :
    PassesOver passes s rest := by
  have gap := PassesOver.skipGap space tab s
  unfold skipCallStart? at found
  split at found
  · next more opened =>
    cases found
    rw [opened] at gap
    exact gap.trans ((PassesOver.cons opening more).trans (.skipGap space tab more))
  · split at found
    · cases found
      exact gap
    · cases found

end

theorem isQuotedReader_assignedUrl? (dialect : Dialect) :
    IsQuotedReader "url" ".seturi(:= \t" (Repository.assignedUrl? dialect) where
  ordinary := List.all_eq_true.mp (by decide)
  last := ⟨"ur".toList, 'l', rfl, by decide⟩
  parts := by
    intro before s value rest read
    let letters : Text := ".seturi(:= \t"
    have gap (s : Text) : PassesOver letters.contains s (skipGap s) := .skipGap rfl rfl s
    have call (s : Text) : PassesOver letters.contains s (Repository.skipUriCall s) :=
      passesOver_skipUriCall rfl rfl rfl rfl s
    unfold Repository.assignedUrl? at read
    split at read
    · cases dialect with
      | groovy =>
        obtain ⟨behind, word, quoted⟩ := Option.bind_eq_some_iff.mp read
        have assign (s : Text) : PassesOver letters.contains s (Repository.skipAssign s) :=
          passesOver_skipAssign rfl rfl rfl rfl s
        refine ⟨behind, _, Text.after?_eq_some_iff.mp word, ?_, startsQuoted_of_quotedValue? quoted⟩
        exact (gap behind).trans ((assign _).trans (call _))
      | kotlin =>
        obtain ⟨behind, word, read⟩ := Option.bind_eq_some_iff.mp read
        split at read
        · next c rest left =>
          split at read
          · next sign =>
            have letter : letters.contains c = true := by
              obtain rfl | rfl : c = '(' ∨ c = '=' := by simpa using sign
              all_goals rfl
            have ahead : PassesOver letters.contains behind (c :: rest) :=
              left ▸ (PassesOver.skipOptional rfl behind).trans (gap _)
            refine ⟨behind, _, Text.after?_eq_some_iff.mp word, ?_, startsQuoted_of_quotedValue? read⟩
            exact ahead.trans ((PassesOver.cons letter rest).trans ((gap rest).trans (call _)))
          · cases read
        · cases read
    · cases read

theorem isQuotedReader_appliedPath? (dialect : Dialect) :
    IsQuotedReader "apply" "from(:= \t" (appliedPath? dialect) where
  ordinary := List.all_eq_true.mp (by decide)
  last := ⟨"appl".toList, 'y', rfl, by decide⟩
  parts := by
    intro before s value rest read
    let letters : Text := "from(:= \t"
    have gap (s : Text) : PassesOver letters.contains s (skipGap s) := .skipGap rfl rfl s
    unfold appliedPath? at read
    split at read
    · cases dialect with
      | groovy =>
        obtain ⟨behind, word, read⟩ := Option.bind_eq_some_iff.mp read
        obtain ⟨inside, opened, read⟩ := Option.bind_eq_some_iff.mp read
        obtain ⟨argument, named, read⟩ := Option.bind_eq_some_iff.mp read
        obtain ⟨path, signed, quoted⟩ := Option.bind_eq_some_iff.mp read
        have call : PassesOver letters.contains behind inside := passesOver_skipCallStart? rfl rfl rfl opened
        refine ⟨behind, _, Text.after?_eq_some_iff.mp word, ?_, startsQuoted_of_quotedValue? quoted⟩
        exact call.trans ((PassesOver.of_after? rfl named).trans ((gap argument).trans
          ((PassesOver.of_after? rfl signed).trans (gap path))))
      | kotlin =>
        obtain ⟨behind, word, read⟩ := Option.bind_eq_some_iff.mp read
        obtain ⟨inside, opened, read⟩ := Option.bind_eq_some_iff.mp read
        obtain ⟨argument, named, read⟩ := Option.bind_eq_some_iff.mp read
        obtain ⟨path, signed, quoted⟩ := Option.bind_eq_some_iff.mp read
        refine ⟨behind, _, Text.after?_eq_some_iff.mp word, ?_, startsQuoted_of_quotedValue? quoted⟩
        exact (gap behind).trans ((PassesOver.of_after? rfl opened).trans ((gap inside).trans
          ((PassesOver.of_after? rfl named).trans ((gap argument).trans
            ((PassesOver.of_after? rfl signed).trans (gap path))))))
    · cases read

end GradlePublishing.Script
