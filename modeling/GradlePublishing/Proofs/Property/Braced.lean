import GradlePublishing.Property.Reference

/-!
Values whose references are all written with braces. Such a value is a sequence of plain characters
and references (`BracedOnly.induction`). Replacing references keeps a value of this form, and plain
references are never found in it.
-/

namespace GradlePublishing.Property

open GradlePublishing.Script

structure IsBody (body : Text) : Prop where
  nonempty : body ≠ []
  noDollar : '$' ∉ body
  unclosed : '}' ∉ body

theorem isBody_iff {body : Text} : IsBody body ↔ body ≠ [] ∧ '$' ∉ body ∧ '}' ∉ body := by
  refine ⟨fun isBody => ⟨isBody.nonempty, isBody.noDollar, isBody.unclosed⟩, ?_⟩
  rintro ⟨nonempty, noDollar, unclosed⟩
  exact ⟨nonempty, noDollar, unclosed⟩

instance (body : Text) : Decidable (IsBody body) := decidable_of_iff' _ isBody_iff

/-- Every `$` of the value starts a reference of the form `${body}`. -/
def BracedOnly (value : Text) : Prop :=
  ∀ front rest, value = front ++ '$' :: rest →
    ∃ body behind, IsBody body ∧ rest = '{' :: body ++ '}' :: behind

namespace BracedOnly

theorem nil : BracedOnly [] := by
  intro front rest same
  exact absurd (congrArg List.length same) (by simp)

theorem of_append {front rest : Text} (braced : BracedOnly (front ++ rest)) : BracedOnly rest := by
  intro between behind same
  apply braced (front ++ between) behind
  rw [same, List.append_assoc]

theorem tail {c : Char} {rest : Text} (braced : BracedOnly (c :: rest)) : BracedOnly rest :=
  of_append (show BracedOnly ([c] ++ rest) from braced)

theorem append {front rest : Text} (first : BracedOnly front) (second : BracedOnly rest) :
    BracedOnly (front ++ rest) := by
  intro before after same
  rcases List.append_eq_append_iff.mp same with ⟨between, ahead, later⟩ | ⟨inside, ahead, later⟩
  · exact second between after later
  · cases inside with
    | nil => exact second [] after later.symm
    | cons c inside =>
      obtain ⟨rfl, rfl⟩ := List.cons.inj later
      obtain ⟨body, behind, isBody, reference⟩ := first before inside ahead
      exact ⟨body, behind ++ rest, isBody, by rw [reference]; simp⟩

theorem of_not_mem {value : Text} (plain : '$' ∉ value) : BracedOnly value := by
  intro front rest same
  exact absurd (by rw [same]; simp) plain

theorem cons {c : Char} {rest : Text} (plain : c ≠ '$') (braced : BracedOnly rest) :
    BracedOnly (c :: rest) := by
  have first : BracedOnly [c] := of_not_mem (by simp [Ne.symm plain])
  exact first.append braced

theorem bracedText {body : Text} (isBody : IsBody body) : BracedOnly (bracedText body) := by
  intro front rest same
  cases front with
  | nil =>
    have tails := (List.cons.inj same).2
    exact ⟨body, [], isBody, tails.symm⟩
  | cons c front =>
    have tails : '{' :: body ++ ['}'] = front ++ '$' :: rest := (List.cons.inj same).2
    have dollar : '$' ∈ '{' :: body ++ ['}'] := by
      rw [tails]
      simp
    simp [isBody.noDollar] at dollar

/-- A value whose references are all braced is built from plain characters and references. -/
@[elab_as_elim]
theorem induction {motive : Text → Prop} {value : Text} (braced : BracedOnly value)
    (nil : motive [])
    (plain : ∀ c rest, c ≠ '$' → BracedOnly rest → motive rest → motive (c :: rest))
    (reference : ∀ body rest, IsBody body → BracedOnly rest → motive rest →
      motive (Property.bracedText body ++ rest)) : motive value := by
  match value, braced with
  | [], _ => exact nil
  | c :: rest, braced =>
    by_cases dollar : c = '$'
    · subst dollar
      obtain ⟨body, behind, isBody, same⟩ := braced [] rest rfl
      have whole : '$' :: rest = Property.bracedText body ++ behind := by
        rw [same]
        simp [Property.bracedText]
      rw [whole] at braced ⊢
      exact reference body behind isBody braced.of_append
        (induction braced.of_append nil plain reference)
    · exact plain c rest dollar braced.tail (induction braced.tail nil plain reference)
termination_by value.length
decreasing_by
  · rw [same]
    simp
    omega
  · simp

end BracedOnly

theorem hasReference_cons (c : Char) (s : Text) :
    hasReference (c :: s) = (c == '$' && opensReference s || hasReference s) := by
  by_cases dollar : c = '$'
  · subst dollar
    rfl
  · rw [hasReference, beq_eq_false_iff_ne.mpr dollar]
    · rfl
    · exact dollar

theorem hasReference_append {value : Text} (front : Text) (found : hasReference value = true) :
    hasReference (front ++ value) = true := by
  induction front with
  | nil => exact found
  | cons c front ih => rw [List.cons_append, hasReference_cons, ih, Bool.or_true]

theorem hasReference_append_of_not_mem {front : Text} (plain : '$' ∉ front) (rest : Text) :
    hasReference (front ++ rest) = hasReference rest := by
  induction front with
  | nil => rfl
  | cons c front ih =>
    rw [List.mem_cons, not_or] at plain
    rw [List.cons_append, hasReference_cons, ih plain.2, beq_eq_false_iff_ne.mpr (Ne.symm plain.1)]
    rfl

theorem hasReference_of_not_mem {value : Text} (plain : '$' ∉ value) :
    hasReference value = false := by
  have same := hasReference_append_of_not_mem plain []
  rwa [List.append_nil] at same

theorem hasReference_bracedText (body rest : Text) :
    hasReference (bracedText body ++ rest) = true := by
  simp [bracedText, hasReference, opensReference]

/-- A value of this form holds a reference exactly when it holds a `$`. -/
theorem hasReference_eq_false_iff {value : Text} (braced : BracedOnly value) :
    hasReference value = false ↔ '$' ∉ value := by
  refine ⟨?_, hasReference_of_not_mem⟩
  intro none dollar
  obtain ⟨front, rest, same⟩ := List.append_of_mem dollar
  obtain ⟨body, behind, -, reference⟩ := braced front rest same
  have found := hasReference_append front (hasReference_bracedText body behind)
  have whole : front ++ (bracedText body ++ behind) = value := by
    rw [same, reference]
    simp [bracedText]
  rw [whole, none] at found
  cases found

/-! Replacing the references of such a value, piece by piece. -/

theorem bracedBody?_eq_some {body : Text} (nonempty : body ≠ []) (unclosed : '}' ∉ body) (rest : Text) :
    bracedBody? ('{' :: body ++ '}' :: rest) = some (body, rest) := by
  have inside : ∀ c ∈ body, (c != '}') = true := by
    intro c member
    rw [bne_iff_ne]
    rintro rfl
    exact unclosed member
  have before : (body ++ '}' :: rest).takeWhile (· != '}') = body := by
    rw [List.takeWhile_append_of_pos inside]
    simp
  have after : (body ++ '}' :: rest).dropWhile (· != '}') = '}' :: rest := by
    rw [List.dropWhile_append_of_pos inside]
    simp
  obtain ⟨c, more, same⟩ := List.exists_cons_of_ne_nil nonempty
  simp only [bracedBody?, List.cons_append, before, after]
  simp only [same]

theorem eq_of_bracedBody? {s body rest : Text} (found : bracedBody? s = some (body, rest)) :
    s = '{' :: body ++ '}' :: rest := by
  unfold bracedBody? at found
  split at found
  · rename_i s
    have whole := List.takeWhile_append_dropWhile (p := (· != '}')) (l := s)
    split at found
    · rename_i c inner after before behind
      cases found
      rw [← whole, before, behind]
      rfl
    · cases found
  · cases found

theorem bracedBody?_cons {c : Char} (other : c ≠ '{') (s : Text) : bracedBody? (c :: s) = none := by
  unfold bracedBody?
  split
  · rename_i same
    exact absurd (List.cons.inj same).1 other
  · rfl

theorem bracedPieces_cons {c : Char} (plain : c ≠ '$') (rest : Text) :
    bracedPieces (c :: rest) = .plain c :: bracedPieces rest := by
  rw [bracedPieces]
  exact plain

theorem bracedPieces_found {s body rest : Text} (found : bracedBody? s = some (body, rest)) :
    bracedPieces ('$' :: s) = .reference body :: bracedPieces rest := by
  rw [bracedPieces]
  split <;> simp_all

theorem bracedPieces_absent {s : Text} (absent : bracedBody? s = none) :
    bracedPieces ('$' :: s) = .plain '$' :: bracedPieces s := by
  rw [bracedPieces]
  split <;> simp_all

theorem bracedPieces_bracedText {body : Text} (isBody : IsBody body) (rest : Text) :
    bracedPieces (bracedText body ++ rest) = .reference body :: bracedPieces rest := by
  have whole : bracedText body ++ rest = '$' :: ('{' :: body ++ '}' :: rest) := by
    simp [bracedText]
  rw [whole, bracedPieces_found (bracedBody?_eq_some isBody.nonempty isBody.unclosed rest)]

theorem namePieces_cons {c : Char} (plain : c ≠ '$') (rest : Text) :
    namePieces (c :: rest) = .plain c :: namePieces rest := by
  rw [namePieces]
  exact plain

theorem reference_mem_bracedPieces {value body : Text} (braced : BracedOnly value)
    (isBody : IsBody body) (front rest : Text) (same : value = front ++ (bracedText body ++ rest)) :
    .reference body ∈ bracedPieces value := by
  revert front
  refine braced.induction ?nil ?plain ?reference
  case nil =>
    intro front same
    exact absurd (congrArg List.length same) (by simp [bracedText])
  case plain =>
    intro c after plain _ ih front same
    cases front with
    | nil => exact absurd (List.cons.inj same).1 plain
    | cons d front =>
      rw [bracedPieces_cons plain]
      exact List.mem_cons_of_mem _ (ih front (List.cons.inj same).2)
  case reference =>
    intro first after isFirst _ ih front same
    cases front with
    | nil =>
      rw [same, List.nil_append, bracedPieces_bracedText isBody]
      exact List.mem_cons_self
    | cons d front =>
      rw [bracedPieces_bracedText isFirst]
      have tails : ('{' :: first ++ ['}']) ++ after = front ++ (bracedText body ++ rest) :=
        (List.cons.inj same).2
      rcases List.append_eq_append_iff.mp tails with ⟨between, -, later⟩ | ⟨inside, cut, later⟩
      · exact List.mem_cons_of_mem _ (ih between later)
      · cases inside with
        | nil => exact List.mem_cons_of_mem _ (ih [] later.symm)
        | cons c inside =>
          obtain ⟨rfl, -⟩ := List.cons.inj later
          have dollar : '$' ∈ '{' :: first ++ ['}'] := by
            rw [cut]
            simp
          simp [isFirst.noDollar] at dollar

section Replacing

variable (table : Table) (resolve : Text → Text)

theorem replaceBraced_nil : replaceBraced table resolve [] = [] := by
  rw [replaceBraced, bracedPieces, List.flatMap_nil]

theorem replaceBraced_cons {c : Char} (plain : c ≠ '$') (rest : Text) :
    replaceBraced table resolve (c :: rest) = c :: replaceBraced table resolve rest := by
  rw [replaceBraced, bracedPieces_cons plain, List.flatMap_cons, replaceBraced, List.singleton_append]

def replaceBody (body : Text) : Text :=
  match bracedValue? table body with
  | some replacement => resolve replacement
  | none => bracedText body

theorem replaceBraced_bracedText {body : Text} (isBody : IsBody body) (rest : Text) :
    replaceBraced table resolve (bracedText body ++ rest) =
      replaceBody table resolve body ++ replaceBraced table resolve rest := by
  rw [replaceBraced, bracedPieces_bracedText isBody]
  exact List.flatMap_cons

theorem replaceNames_nil : replaceNames table resolve [] = [] := by
  rw [replaceNames, namePieces, List.flatMap_nil]

theorem replaceNames_cons {c : Char} (plain : c ≠ '$') (rest : Text) :
    replaceNames table resolve (c :: rest) = c :: replaceNames table resolve rest := by
  rw [replaceNames, namePieces_cons plain, List.flatMap_cons, replaceNames, List.singleton_append]

theorem replaceNames_brace (rest : Text) :
    replaceNames table resolve ('$' :: '{' :: rest) =
      '$' :: '{' :: replaceNames table resolve rest := by
  have noName : dottedNames ('{' :: rest) = ([], '{' :: rest) := by
    rw [dottedNames]
    split
    · rfl
    · rename_i found
      cases found
    · rename_i found
      cases found
  have pieces : namePieces ('$' :: '{' :: rest) = .plain '$' :: namePieces ('{' :: rest) := by
    rw [namePieces]
    split
    · rfl
    · rename_i named found
      rw [noName] at found
      cases found
      exact absurd rfl named
  have brace := replaceNames_cons table resolve (show '{' ≠ '$' by decide) rest
  rw [replaceNames, pieces, List.flatMap_cons, ← replaceNames, brace, List.singleton_append]

theorem replaceNames_of_not_mem {front : Text} (plain : '$' ∉ front) (rest : Text) :
    replaceNames table resolve (front ++ rest) = front ++ replaceNames table resolve rest := by
  induction front with
  | nil => rfl
  | cons c front ih =>
    rw [List.mem_cons, not_or] at plain
    rw [List.cons_append, replaceNames_cons table resolve (Ne.symm plain.1), ih plain.2,
      List.cons_append]

theorem replaceNames_of_bracedOnly {value : Text} (braced : BracedOnly value) :
    replaceNames table resolve value = value := by
  refine braced.induction ?nil ?plain ?reference
  case nil => exact replaceNames_nil table resolve
  case plain =>
    intro c rest plain _ ih
    rw [replaceNames_cons table resolve plain, ih]
  case reference =>
    intro body rest isBody _ ih
    have plain : '$' ∉ body ++ ['}'] := by
      simp [isBody.noDollar]
    have whole : bracedText body ++ rest = '$' :: '{' :: (body ++ ['}'] ++ rest) := by
      simp [bracedText]
    rw [whole, replaceNames_brace, replaceNames_of_not_mem table resolve plain, ih]

end Replacing

end GradlePublishing.Property
