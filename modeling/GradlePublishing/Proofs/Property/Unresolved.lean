import GradlePublishing.Proofs.Path
import GradlePublishing.Proofs.Property.Braced
import GradlePublishing.Url

/-!
References that a piece of a text holds. A text holds every reference of its pieces. A path gains none when
it is normalised (`hasReference_of_normalize`), and a text gains none when tabs and line breaks are taken out,
except where one of them parts a `$` from what follows it.
-/

namespace GradlePublishing

namespace Property

/-- Whether a `$` starts a reference depends on the next character, and on closing braces behind it. -/
theorem opensReference_of_cons {c : Char} {s other : Text} (closing : '}' ∈ s → '}' ∈ other)
    (opens : opensReference (c :: s) = true) : opensReference (c :: other) = true := by
  by_cases brace : c = '{'
  · subst brace
    simp only [opensReference, List.contains_iff_mem] at opens ⊢
    exact closing opens
  · rw [opensReference] at opens ⊢
    · exact opens
    · exact brace
    · exact brace

theorem opensReference_append {s : Text} (rest : Text) (opens : opensReference s = true) :
    opensReference (s ++ rest) = true := by
  match s with
  | [] => cases opens
  | c :: s => exact opensReference_of_cons (fun closing => List.mem_append_left rest closing) opens

theorem hasReference_of_infix {piece whole : Text} (inside : piece <:+: whole)
    (found : hasReference piece = true) : hasReference whole = true := by
  obtain ⟨front, rest, rfl⟩ := inside
  have ahead : hasReference (piece ++ rest) = true := by
    induction piece with
    | nil => cases found
    | cons c piece ih =>
      rw [hasReference_cons, Bool.or_eq_true, Bool.and_eq_true] at found
      rw [List.cons_append, hasReference_cons, Bool.or_eq_true, Bool.and_eq_true]
      exact found.imp (fun here => ⟨here.1, opensReference_append rest here.2⟩) ih
  rw [List.append_assoc]
  exact hasReference_append front ahead

/-! A path of which pieces are left out. Where braces are opened in one piece and closed in a later one, the
closing brace is still behind the opening one. -/

/-- The first text holds a reference if the second one does, and every character of it. -/
structure Carries (whole kept : Text) : Prop where
  reference : hasReference kept = true → hasReference whole = true
  subset : kept ⊆ whole

namespace Carries

theorem of_piece {whole kept : Text} (inside : kept <:+: whole) : Carries whole kept := by
  refine ⟨fun found => ?_, inside.subset⟩
  exact hasReference_of_infix inside found

theorem trans {whole between kept : Text} (first : Carries whole between)
    (second : Carries between kept) : Carries whole kept :=
  ⟨fun found => first.reference (second.reference found), fun _ held => first.subset (second.subset held)⟩

/-- What stands in front of a slash makes references only with itself and with braces behind the slash. -/
theorem slash {whole kept : Text} (carries : Carries whole kept) (front : Text) :
    Carries (front ++ '/' :: whole) (front ++ '/' :: kept) := by
  have subset (front : Text) : front ++ '/' :: kept ⊆ front ++ '/' :: whole :=
    List.append_subset.mpr ⟨List.subset_append_left front _,
      List.subset_append_of_subset_right front (List.cons_subset_cons '/' carries.subset)⟩
  refine ⟨fun found => ?_, subset front⟩
  induction front with
  | nil => exact carries.reference found
  | cons c front ih =>
    rw [List.cons_append, hasReference_cons, Bool.or_eq_true, Bool.and_eq_true] at found ⊢
    refine found.imp (fun here => ⟨here.1, ?_⟩) ih
    have opens := here.2
    match front with
    | [] => cases opens
    | d :: front => exact opensReference_of_cons (fun closing => subset front closing) opens

theorem joinWith {pieces kept : List Text} (sublist : kept.Sublist pieces) :
    Carries (Text.joinWith ['/'] pieces) (Text.joinWith ['/'] kept) := by
  induction sublist with
  | slnil => exact of_piece List.infix_rfl
  | @cons kept pieces piece inside ih =>
    cases pieces with
    | nil =>
      rw [List.sublist_nil.mp inside]
      exact of_piece List.nil_infix
    | cons next pieces =>
      rw [Text.joinWith_cons '/' piece (List.cons_ne_nil next pieces)]
      refine trans (of_piece ?_) ih
      exact ((List.suffix_cons _ _).trans (List.suffix_append _ _)).isInfix
  | @cons_cons kept pieces piece inside ih =>
    cases kept with
    | nil =>
      rw [Text.joinWith_singleton]
      exact of_piece (Text.prefix_joinWith ['/'] piece pieces).isInfix
    | cons next kept =>
      have further : pieces ≠ [] := by
        rintro rfl
        cases inside
      rw [Text.joinWith_cons '/' piece (List.cons_ne_nil next kept), Text.joinWith_cons '/' piece further]
      exact ih.slash piece

end Carries

theorem not_mem_root (path : Text) : '$' ∉ Path.root path := by
  unfold Path.root
  split <;> decide

theorem carries_components (path : Text) :
    Carries path (Text.joinWith ['/'] (Path.components path)) := by
  have carries := Carries.joinWith (Path.components_sublist path)
  rwa [Text.joinWith, List.intercalate_splitOn] at carries

theorem hasReference_of_normalize {path : Text} (found : hasReference (Path.normalize path) = true) :
    hasReference path = true := by
  unfold Path.normalize at found
  split at found
  · cases found
  · rw [hasReference_append_of_not_mem (not_mem_root path)] at found
    exact (carries_components path).reference found

theorem dollar_mem_of_normalize {path : Text} (dollar : '$' ∈ Path.normalize path) : '$' ∈ path := by
  unfold Path.normalize at dollar
  split at dollar
  · cases dollar with
    | tail _ dollar => cases dollar
  · rcases List.mem_append.mp dollar with inRoot | inside
    · exact absurd inRoot (not_mem_root path)
    · exact (carries_components path).subset inside

end Property

namespace Url

/-- The characters that are taken out of a URL before it is split. -/
def isBreak (c : Char) : Bool := c == '\t' || c == '\n' || c == '\r'

def withoutBreaks (s : Text) : Text := s.filter (!isBreak ·)

theorem withoutBreaks_isInfix {piece whole : Text} (inside : piece <:+: whole) :
    withoutBreaks piece <:+: withoutBreaks whole :=
  inside.filter _

theorem clean_isInfix (s : Text) : clean s <:+: withoutBreaks s := by
  have same : clean s = withoutBreaks (s.dropWhile fun c => c.toNat ≤ 0x20) := by
    rw [clean, withoutBreaks]
    congr 1
    funext c
    simp [isBreak, bne, Bool.and_assoc]
  rw [same]
  exact withoutBreaks_isInfix (List.dropWhile_suffix _).isInfix

end Url

/-- A tab or a line break stands right behind a `$`. -/
def PartsDollar (s : Text) : Prop :=
  ∃ front c rest, s = front ++ '$' :: c :: rest ∧ Url.isBreak c = true

theorem PartsDollar.cons {s : Text} (c : Char) (parts : PartsDollar s) : PartsDollar (c :: s) := by
  obtain ⟨front, d, rest, rfl, isBreak⟩ := parts
  exact ⟨c :: front, d, rest, rfl, isBreak⟩

namespace Property

theorem opensReference_of_withoutBreaks {c : Char} {s : Text} (kept : Url.isBreak c = false)
    (opens : opensReference (Url.withoutBreaks (c :: s)) = true) :
    opensReference (c :: s) = true := by
  rw [Url.withoutBreaks, List.filter_cons_of_pos (by simp [kept])] at opens
  exact opensReference_of_cons (fun closing => (List.mem_filter.mp closing).1) opens

/-- Only where a break parts a `$` from what follows can a reference come about by taking breaks out. -/
theorem hasReference_of_withoutBreaks {s : Text}
    (found : hasReference (Url.withoutBreaks s) = true) :
    hasReference s = true ∨ PartsDollar s := by
  induction s with
  | nil => cases found
  | cons c s ih =>
    have later : hasReference (Url.withoutBreaks s) = true →
        hasReference (c :: s) = true ∨ PartsDollar (c :: s) := by
      intro found
      refine (ih found).imp (fun inside => ?_) (PartsDollar.cons c)
      rw [hasReference_cons, inside, Bool.or_true]
    cases isBreak : Url.isBreak c with
    | true =>
      rw [Url.withoutBreaks, List.filter_cons_of_neg (by simp [isBreak])] at found
      exact later found
    | false =>
      rw [Url.withoutBreaks, List.filter_cons_of_pos (by simp [isBreak]), hasReference_cons,
        Bool.or_eq_true, Bool.and_eq_true, beq_iff_eq] at found
      rcases found with ⟨rfl, opens⟩ | found
      · cases s with
        | nil => cases opens
        | cons d s =>
          cases parted : Url.isBreak d with
          | true => exact .inr ⟨[], d, s, rfl, parted⟩
          | false =>
            left
            rw [hasReference_cons, opensReference_of_withoutBreaks parted opens]
            rfl
      · exact later found

end Property

end GradlePublishing
