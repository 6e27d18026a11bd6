import GradlePublishing.Proofs.Script.ByLine
import GradlePublishing.Proofs.Script.WholeLine
import Mathlib.Data.List.Nodup
import Mathlib.Data.List.Perm.Subperm

/-!
What a search for the matches of a reader finds. Every match hides those that start inside it (`Covers`), so the
search takes a part of all readings of a text, in their order (`occurrences_sublist_readings`). What it misses is
covered by a match that it takes, and of those none covers another one (`occurrences_eq_filter`).
-/

namespace GradlePublishing.Script

variable {α : Type}

section

variable (reader : Option Char → Text → Option (α × Text)) (content : Text)

/-- What a reader reads at an offset of a text, whatever is read in front of it, and what follows. -/
def readAt (offset : Nat) : Option (α × Text) :=
  reader (content.take offset).getLast? (content.drop offset)

def readingAt (offset : Nat) : Option (Found α) :=
  (readAt reader content offset).map fun (value, _) => ⟨offset, value⟩

/-- All that a reader reads in a text, one offset after the other. -/
def readings : List (Found α) := (List.range content.length).filterMap (readingAt reader content)

/-- What is read at an offset starts in front of an index and goes on behind it. -/
def Covers (offset index : Nat) : Prop :=
  offset < index ∧ ∃ result ∈ readAt reader content offset, index + result.2.length < content.length

instance (offset index : Nat) : Decidable (Covers reader content offset index) :=
  inferInstanceAs (Decidable (_ ∧ ∃ result ∈ readAt reader content offset, _))

/-- A match that the search takes covers the index. -/
def IsHidden (index : Nat) : Prop :=
  ∃ earlier ∈ occurrences reader content, Covers reader content earlier.offset index

instance (index : Nat) : Decidable (IsHidden reader content index) :=
  inferInstanceAs (Decidable (∃ earlier ∈ occurrences reader content, _))

end

section

variable {reader : Option Char → Text → Option (α × Text)} {content : Text}

theorem mem_readings_iff {found : Found α} :
    found ∈ readings reader content ↔ found.offset < content.length ∧
      ∃ rest, readAt reader content found.offset = some (found.value, rest) := by
  unfold readings
  rw [List.mem_filterMap]
  constructor
  · rintro ⟨offset, inside, read⟩
    obtain ⟨⟨value, rest⟩, result, rfl⟩ := Option.map_eq_some_iff.mp read
    exact ⟨List.mem_range.mp inside, rest, result⟩
  · rintro ⟨inside, rest, read⟩
    refine ⟨found.offset, List.mem_range.mpr inside, ?_⟩
    rw [readingAt, read, Option.map_some]

theorem nodup_readings : (readings reader content).Nodup := by
  apply List.Nodup.filterMap _ List.nodup_range
  intro offset other found here there
  obtain ⟨read, -, rfl⟩ := Option.map_eq_some_iff.mp here
  obtain ⟨read', -, same⟩ := Option.map_eq_some_iff.mp there
  exact (congrArg Found.offset same).symm

theorem readAt_append (front rest : Text) :
    readAt reader (front ++ rest) front.length = reader front.getLast? rest := by
  rw [readAt, List.take_left, List.drop_left]

/-! In the following lemmas the search has come to the end of `front`, and the next `hidden` characters are passed
over. -/

theorem occurrencesFrom_sublist (hidden : Nat) (front s : Text) :
    List.Sublist (occurrencesFrom reader hidden front.getLast? front.length s)
      ((List.range' front.length s.length).filterMap (readingAt reader (front ++ s))) := by
  induction s generalizing hidden front with
  | nil => exact List.nil_sublist _
  | cons c s ih =>
    have later (hidden : Nat) := ih hidden (front ++ [c])
    simp only [List.getLast?_concat, List.length_append, List.length_singleton, List.append_assoc,
      List.singleton_append] at later
    rw [List.length_cons, List.range'_succ]
    have skipped (hidden : Nat) := (later hidden).trans
      ((List.sublist_cons_self front.length _).filterMap (readingAt reader (front ++ c :: s)))
    cases hidden with
    | succ hidden => exact skipped hidden
    | zero =>
      rw [occurrencesFrom]
      cases read : reader front.getLast? (c :: s) with
      | none => exact skipped 0
      | some result =>
        have here : readingAt reader (front ++ c :: s) front.length = some ⟨front.length, result.1⟩ := by
          rw [readingAt, readAt_append, read, Option.map_some]
        rw [List.filterMap_cons_some here]
        exact (later _).cons_cons _

theorem le_offset_of_mem_occurrencesFrom {hidden offset : Nat} {before : Option Char} {s : Text} {found : Found α}
    (member : found ∈ occurrencesFrom reader hidden before offset s) : offset + hidden ≤ found.offset := by
  induction s generalizing hidden before offset with
  | nil => cases member
  | cons c s ih =>
    cases hidden with
    | succ hidden =>
      have bound := ih member
      omega
    | zero =>
      rw [occurrencesFrom] at member
      cases read : reader before (c :: s) with
      | none =>
        rw [read] at member
        have bound := ih member
        omega
      | some result =>
        rw [read] at member
        rcases List.mem_cons.mp member with rfl | later
        · exact Nat.le_refl offset
        · have bound := ih later
          omega

/-- What is read behind `front` is found, unless it is passed over or covered by what is found. -/
theorem mem_or_covered_of_readAt (hidden : Nat) (front s : Text) {index : Nat} {value : α} {rest : Text}
    (behind : front.length ≤ index) (inside : index < (front ++ s).length)
    (read : readAt reader (front ++ s) index = some (value, rest)) :
    index < front.length + hidden ∨
      ⟨index, value⟩ ∈ occurrencesFrom reader hidden front.getLast? front.length s ∨
        ∃ earlier ∈ occurrencesFrom reader hidden front.getLast? front.length s,
          Covers reader (front ++ s) earlier.offset index := by
  induction s generalizing hidden front with
  | nil =>
    rw [List.append_nil] at inside
    omega
  | cons c s ih =>
    have later (hidden : Nat) (past : front.length < index) := ih hidden (front ++ [c])
    simp only [List.getLast?_concat, List.length_append, List.length_cons, List.length_nil, List.append_assoc,
      List.singleton_append] at later inside
    by_cases here : index = front.length
    · subst here
      rw [readAt_append] at read
      cases hidden with
      | succ hidden => exact .inl (by omega)
      | zero =>
        rw [occurrencesFrom, read]
        exact .inr (.inl List.mem_cons_self)
    · have past : front.length < index := by omega
      cases hidden with
      | succ hidden =>
        rcases later hidden past past (by omega) read with passed | found
        · exact .inl (by omega)
        · exact .inr found
      | zero =>
        rw [occurrencesFrom]
        cases first : reader front.getLast? (c :: s) with
        | none =>
          rcases later 0 past past (by omega) read with passed | found
          · omega
          · exact .inr found
        | some result =>
          refine .inr ?_
          rcases later (s.length - result.2.length) past past (by omega) read with passed | found | covered
          · refine .inr ⟨_, List.mem_cons_self, past, result, ?_, ?_⟩
            · rw [readAt_append, first, Option.mem_def]
            · rw [List.length_append, List.length_cons]
              omega
          · exact .inl (List.mem_cons_of_mem _ found)
          · obtain ⟨earlier, member, covers⟩ := covered
            exact .inr ⟨earlier, List.mem_cons_of_mem _ member, covers⟩

theorem not_covers_of_mem_occurrencesFrom (hidden : Nat) (front s : Text) {earlier found : Found α}
    (first : earlier ∈ occurrencesFrom reader hidden front.getLast? front.length s)
    (last : found ∈ occurrencesFrom reader hidden front.getLast? front.length s) :
    ¬ Covers reader (front ++ s) earlier.offset found.offset := by
  induction s generalizing hidden front with
  | nil => cases first
  | cons c s ih =>
    have later (hidden : Nat) := ih hidden (front ++ [c])
    simp only [List.getLast?_concat, List.length_append, List.length_singleton, List.append_assoc,
      List.singleton_append] at later
    cases hidden with
    | succ hidden => exact later hidden first last
    | zero =>
      rw [occurrencesFrom] at first last
      cases read : reader front.getLast? (c :: s) with
      | none =>
        rw [read] at first last
        exact later 0 first last
      | some result =>
        rw [read] at first last
        rintro ⟨ahead, other, covers, ends⟩
        rcases List.mem_cons.mp first with rfl | inside
        · rw [readAt_append, read] at covers
          cases covers
          rcases List.mem_cons.mp last with rfl | behind
          · exact Nat.lt_irrefl _ ahead
          · have bound := le_offset_of_mem_occurrencesFrom behind
            rw [List.length_append, List.length_cons] at ends
            omega
        · have bound := le_offset_of_mem_occurrencesFrom inside
          rcases List.mem_cons.mp last with rfl | behind
          · have turned : earlier.offset < front.length := ahead
            omega
          · exact later _ inside behind ⟨ahead, other, covers, ends⟩

/-! The whole search. -/

theorem occurrences_sublist_readings : List.Sublist (occurrences reader content) (readings reader content) := by
  have parts : List.Sublist (occurrencesFrom reader 0 none 0 content)
      ((List.range' 0 content.length).filterMap (readingAt reader content)) := occurrencesFrom_sublist 0 [] content
  rwa [← List.range_eq_range'] at parts

theorem mem_occurrences_or_hidden {found : Found α} (member : found ∈ readings reader content) :
    found ∈ occurrences reader content ∨ IsHidden reader content found.offset := by
  obtain ⟨inside, rest, read⟩ := mem_readings_iff.mp member
  rcases mem_or_covered_of_readAt 0 [] content (Nat.zero_le _) inside read with passed | found
  · exact absurd passed (Nat.not_lt_zero _)
  · exact found

theorem not_isHidden_of_mem {found : Found α} (member : found ∈ occurrences reader content) :
    ¬ IsHidden reader content found.offset := by
  rintro ⟨earlier, taken, covers⟩
  exact not_covers_of_mem_occurrencesFrom 0 [] content taken member covers

/-- The search takes what is read at every offset, except for what a match that it takes covers. -/
theorem occurrences_eq_filter : occurrences reader content =
    (readings reader content).filter fun found => ¬ IsHidden reader content found.offset := by
  have part : List.Sublist (occurrences reader content)
      ((readings reader content).filter fun found => ¬ IsHidden reader content found.offset) := by
    have taken : List.Sublist (occurrences reader content) (readings reader content) := occurrences_sublist_readings
    have kept := taken.filter fun found => ¬ IsHidden reader content found.offset
    rwa [List.filter_eq_self.mpr fun found member => decide_eq_true (not_isHidden_of_mem member)] at kept
  have whole : (readings reader content).filter (fun found => ¬ IsHidden reader content found.offset) ⊆
      occurrences reader content := by
    intro found member
    obtain ⟨read, free⟩ := List.mem_filter.mp member
    exact (mem_occurrences_or_hidden read).resolve_right (of_decide_eq_true free)
  exact part.eq_of_length_le (List.subperm_of_subset (nodup_readings.filter _) whole).length_le

end

/-! A text in which a reader reads once, at the first letter behind the indentation. -/

section

variable {reader : Option Char → Text → Option (α × Text)} {letter : Char}

def StartsWith (letter : Char) (reader : Option Char → Text → Option (α × Text)) : Prop :=
  ∀ {c}, c ≠ letter → ∀ before s, reader before (c :: s) = none

variable (starts : StartsWith letter reader)

include starts

theorem occurrencesFrom_eq_nil {s : Text} (absent : letter ∉ s) (hidden : Nat) (before : Option Char)
    (offset : Nat) : occurrencesFrom reader hidden before offset s = [] := by
  induction s generalizing hidden before offset with
  | nil => rw [occurrencesFrom]
  | cons c s ih =>
    rw [List.mem_cons, not_or] at absent
    cases hidden with
    | succ hidden => exact ih absent.2 _ _ _
    | zero =>
      rw [occurrencesFrom, starts (Ne.symm absent.1)]
      exact ih absent.2 _ _ _

theorem occurrencesFrom_hidden {behind : Text} (absent : letter ∉ behind) (front : Text)
    (before : Option Char) (offset : Nat) :
    occurrencesFrom reader front.length before offset (front ++ behind) = [] := by
  induction front generalizing before offset with
  | nil => exact occurrencesFrom_eq_nil starts absent _ _ _
  | cons c front ih => exact ih _ _

theorem occurrencesFrom_gap (solid : isGap letter = false) (gap : Gap) {before : Option Char}
    (free : Text.startsWord before = true) (offset : Nat) (s : Text) :
    ∃ last, Text.startsWord last = true ∧ occurrencesFrom reader 0 before offset (gap.val ++ s) =
      occurrencesFrom reader 0 last (offset + gap.val.length) s := by
  obtain ⟨gap, gaps⟩ := gap
  induction gap generalizing before offset with
  | nil => exact ⟨before, free, rfl⟩
  | cons c gap ih =>
    have space := gaps c List.mem_cons_self
    have other : c ≠ letter := by
      rintro rfl
      rw [space] at solid
      cases solid
    have first : Text.startsWord (some c) = true := by
      rcases isGap_eq_true_iff.mp space with rfl | rfl <;> decide
    obtain ⟨last, free, rest⟩ :=
      ih first (offset + 1) fun d member => gaps d (List.mem_cons_of_mem c member)
    refine ⟨last, free, ?_⟩
    rw [List.cons_append, occurrencesFrom, starts other, List.length_cons,
      Nat.add_comm gap.length, ← Nat.add_assoc, ← rest]

/-- What is read behind the indentation hides all that it reads, and behind that nothing starts. -/
theorem occurrences_single (solid : isGap letter = false) (indent : Gap) {more behind : Text} {value : α}
    (read : ∀ before, Text.startsWord before = true →
      reader before (letter :: (more ++ behind)) = some (value, behind)) (absent : letter ∉ behind) :
    occurrences reader (indent.val ++ letter :: (more ++ behind)) = [⟨indent.val.length, value⟩] := by
  have first : Text.startsWord none = true := rfl
  obtain ⟨last, free, passed⟩ := occurrencesFrom_gap starts solid indent first 0 (letter :: (more ++ behind))
  have hides : (more ++ behind).length - behind.length = more.length := by
    rw [List.length_append, Nat.add_sub_cancel]
  rw [occurrences, passed, occurrencesFrom, read last free]
  dsimp only
  rw [hides, occurrencesFrom_hidden starts absent, Nat.zero_add]

end

end GradlePublishing.Script
