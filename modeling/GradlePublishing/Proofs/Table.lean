import GradlePublishing.Table

/-!
Tables by their entries. Setting one name after another never makes two entries for a name, and where no
name has two, a table is told by what is found in it (`eq_map_of_lookup`). So joining tables gives every
name its first value that is not empty, from the last table to the first (`get?_merge`).
-/

namespace GradlePublishing

section Entries

variable {α : Type} {name : Text} {value : α} {entries : List (Text × α)}

theorem names_setEntry (name : Text) (value : α) (entries : List (Text × α)) :
    (setEntry name value entries).map (·.1) =
      if name ∈ entries.map (·.1) then entries.map (·.1) else entries.map (·.1) ++ [name] := by
  induction entries with
  | nil => rfl
  | cons entry entries ih =>
    simp only [setEntry, List.map_cons, List.mem_cons]
    by_cases here : entry.1 = name
    · rw [if_pos here, if_pos (.inl here.symm), List.map_cons]
    · rw [if_neg here, List.map_cons, ih]
      by_cases later : name ∈ entries.map (·.1)
      · rw [if_pos later, if_pos (.inr later)]
      · rw [if_neg later, if_neg (not_or.mpr ⟨Ne.symm here, later⟩), List.cons_append]

theorem nodup_setEntry (name : Text) (value : α) (distinct : (entries.map (·.1)).Nodup) :
    ((setEntry name value entries).map (·.1)).Nodup := by
  rw [names_setEntry]
  split
  · exact distinct
  · rename_i absent
    refine List.nodup_append.mpr ⟨distinct, List.nodup_cons.mpr ⟨nofun, List.nodup_nil⟩, ?_⟩
    rintro key inside other single rfl
    exact absent (List.mem_singleton.mp single ▸ inside)

theorem setEntry_of_absent (value : α) (absent : name ∉ entries.map (·.1)) :
    setEntry name value entries = entries ++ [(name, value)] := by
  induction entries with
  | nil => rfl
  | cons first entries ih =>
    rw [List.map_cons, List.mem_cons, not_or] at absent
    rw [setEntry, if_neg (Ne.symm absent.1), ih absent.2, List.cons_append]

theorem mem_of_mem_setEntry {entry : Text × α} (member : entry ∈ setEntry name value entries) :
    entry = (name, value) ∨ entry ∈ entries := by
  induction entries with
  | nil => exact .inl (List.mem_singleton.mp member)
  | cons first entries ih =>
    rw [setEntry] at member
    split at member
    · rename_i same
      rcases List.mem_cons.mp member with rfl | later
      · exact .inl (congrArg (·, value) same)
      · exact .inr (List.mem_cons_of_mem _ later)
    · rcases List.mem_cons.mp member with rfl | later
      · exact .inr List.mem_cons_self
      · exact (ih later).imp_right (List.mem_cons_of_mem _)

theorem lookup_map {β : Type} (change : α → β) (name : Text) (entries : List (Text × α)) :
    (entries.map fun entry => (entry.1, change entry.2)).lookup name =
      (entries.lookup name).map change := by
  induction entries with
  | nil => rfl
  | cons entry entries ih =>
    obtain ⟨key, value⟩ := entry
    rw [List.map_cons, lookup_entry, lookup_entry, ih]
    split <;> rfl

theorem lookup_of_mem {entry : Text × α} (distinct : (entries.map (·.1)).Nodup)
    (member : entry ∈ entries) : entries.lookup entry.1 = some entry.2 := by
  induction entries with
  | nil => cases member
  | cons first entries ih =>
    rw [List.map_cons, List.nodup_cons] at distinct
    rw [lookup_entry first.1 entry.1 first.2]
    rcases List.mem_cons.mp member with rfl | later
    · exact if_pos rfl
    · have other : entry.1 ≠ first.1 := fun same => distinct.1 (same ▸ List.mem_map_of_mem later)
      rw [if_neg other]
      exact ih distinct.2 later

/-- Entries with distinct names are told by their names and what is found under these. -/
theorem eq_map_of_lookup {first : List (Text × α)} {change : Text × α → α}
    (names : entries.map (·.1) = first.map (·.1)) (distinct : (first.map (·.1)).Nodup)
    (found : ∀ entry ∈ first, entries.lookup entry.1 = some (change entry)) :
    entries = first.map fun entry => (entry.1, change entry) := by
  have kept : (entries.map (·.1)).Nodup := names ▸ distinct
  apply List.ext_getElem (by simpa using congrArg List.length names)
  intro place inside there
  rw [List.length_map] at there
  have named : entries[place].1 = first[place].1 := by
    have same := List.getElem_of_eq names (by rwa [List.length_map])
    rwa [List.getElem_map, List.getElem_map] at same
  have value := lookup_of_mem kept (List.getElem_mem inside)
  rw [named, found _ (List.getElem_mem there)] at value
  rw [List.getElem_map]
  exact Prod.ext named (Option.some.inj value).symm

end Entries

namespace Table

/-- No name has two entries. -/
def HasDistinctNames (table : Table) : Prop := (table.entries.map (·.1)).Nodup

/-- The value of a name in the first table that has one for it. -/
def firstValue? (tables : List Table) (name : Text) : Option Text :=
  tables.findSome? (·.value? name)

namespace HasDistinctNames

theorem empty : (∅ : Table).HasDistinctNames := List.nodup_nil

theorem set {table : Table} (distinct : table.HasDistinctNames) (name value : Text) :
    (table.set name value).HasDistinctNames :=
  nodup_setEntry name value distinct

theorem setDefault {table : Table} (distinct : table.HasDistinctNames) (name value : Text) :
    (table.setDefault name value).HasDistinctNames := by
  unfold Table.setDefault
  split
  · exact distinct
  · exact distinct.set name value

theorem ofList (entries : List (Text × Text)) : (ofList entries).HasDistinctNames := by
  unfold Table.ofList
  suffices ∀ table : Table, table.HasDistinctNames →
      (entries.foldl (fun table entry => table.set entry.1 entry.2) table).HasDistinctNames from
    this _ empty
  induction entries with
  | nil => exact fun table distinct => distinct
  | cons entry entries ih => exact fun table distinct => ih _ (distinct.set entry.1 entry.2)

theorem override {table : Table} (distinct : table.HasDistinctNames) (later : Table) :
    (table.override later).HasDistinctNames := by
  unfold Table.override
  induction later.entries generalizing table with
  | nil => exact distinct
  | cons entry entries ih =>
    rw [List.foldl_cons]
    split
    · exact ih distinct
    · exact ih (distinct.set entry.1 entry.2)

theorem merge (tables : List Table) : (merge tables).HasDistinctNames := by
  unfold Table.merge
  suffices ∀ table : Table, table.HasDistinctNames →
      (tables.foldl Table.override table).HasDistinctNames from
    this _ empty
  induction tables with
  | nil => exact fun table distinct => distinct
  | cons first tables ih => exact fun table distinct => ih _ (distinct.override first)

end HasDistinctNames

theorem mem_of_mem_ofList {entry : Text × Text} {entries : List (Text × Text)}
    (member : entry ∈ (ofList entries).entries) : entry ∈ entries := by
  suffices ∀ table : Table,
      entry ∈ (entries.foldl (fun table entry => table.set entry.1 entry.2) table).entries →
        entry ∈ table.entries ∨ entry ∈ entries from
    (this empty member).resolve_left List.not_mem_nil
  clear member
  induction entries with
  | nil => exact fun _ member => .inl member
  | cons first entries ih =>
    intro table member
    rcases ih _ member with set | later
    · rcases mem_of_mem_setEntry set with rfl | before
      · exact .inr List.mem_cons_self
      · exact .inl before
    · exact .inr (List.mem_cons_of_mem _ later)

theorem ofList_of_distinct {entries : List (Text × Text)} (distinct : (entries.map (·.1)).Nodup) :
    ofList entries = ⟨entries⟩ := by
  suffices ∀ table : Table, ((table.entries ++ entries).map (·.1)).Nodup →
      entries.foldl (fun table entry => table.set entry.1 entry.2) table =
        ⟨table.entries ++ entries⟩ from
    this empty distinct
  clear distinct
  induction entries with
  | nil =>
    intro table _
    rw [List.foldl_nil, List.append_nil]
  | cons first entries ih =>
    intro table distinct
    have absent : first.1 ∉ table.entries.map (·.1) := by
      rw [List.map_append, List.nodup_append, List.map_cons] at distinct
      exact fun member => distinct.2.2 _ member _ List.mem_cons_self rfl
    have placed : table.set first.1 first.2 = ⟨table.entries ++ [first]⟩ :=
      congrArg Table.mk (setEntry_of_absent first.2 absent)
    rw [List.append_cons] at distinct ⊢
    rw [List.foldl_cons, placed]
    exact ih _ distinct

theorem value?_eq_get? {table : Table} {name : Text} (filled : table.get? name ≠ some []) :
    table.value? name = table.get? name := by
  unfold value?
  cases found : table.get? name with
  | none => rfl
  | some value =>
    cases value with
    | nil => exact absurd found filled
    | cons c value => rfl

theorem value?_ne_nil (table : Table) (name : Text) : table.value? name ≠ some [] := by
  intro found
  obtain ⟨-, filled⟩ := Option.filter_eq_some_iff.mp found
  cases filled

theorem get?_cons (key value : Text) (entries : List (Text × Text)) (name : Text) :
    get? ⟨(key, value) :: entries⟩ name = if name = key then some value else get? ⟨entries⟩ name :=
  lookup_entry key name value entries

theorem get?_eq_none {entries : List (Text × Text)} {name : Text}
    (absent : name ∉ entries.map (·.1)) : get? ⟨entries⟩ name = none := by
  refine List.lookup_eq_none_iff.mpr fun entry member => ?_
  rw [bne_iff_ne]
  rintro rfl
  exact absent (List.mem_map_of_mem member)

theorem get?_override {table later : Table} (distinct : later.HasDistinctNames) (name : Text) :
    (table.override later).get? name = (later.value? name).or (table.get? name) := by
  obtain ⟨entries⟩ := later
  unfold Table.override
  induction entries generalizing table with
  | nil => rfl
  | cons entry entries ih =>
    obtain ⟨key, value⟩ := entry
    unfold HasDistinctNames at distinct
    rw [List.map_cons, List.nodup_cons] at distinct
    rw [List.foldl_cons, ih distinct.2]
    by_cases here : name = key
    · subst here
      have absent : value? ⟨entries⟩ name = none := by
        rw [value?, get?_eq_none distinct.1, Option.filter_none]
      rw [absent, Option.none_or, value?, get?_cons, if_pos rfl]
      cases value with
      | nil => rfl
      | cons c value =>
        simp only [List.isEmpty_cons, Bool.false_eq_true, if_false, get?_set, if_true]
        rfl
    · have elsewhere : value? ⟨(key, value) :: entries⟩ name = value? ⟨entries⟩ name := by
        rw [value?, value?, get?_cons, if_neg here]
      rw [elsewhere]
      split
      · rfl
      · rw [get?_set, if_neg here]

theorem get?_foldl_override (tables : List Table)
    (distinct : ∀ table ∈ tables, table.HasDistinctNames) (start : Table) (name : Text) :
    (tables.foldl Table.override start).get? name =
      (firstValue? tables.reverse name).or (start.get? name) := by
  induction tables generalizing start with
  | nil => rfl
  | cons first tables ih =>
    rw [List.foldl_cons, ih fun table member => distinct table (List.mem_cons_of_mem _ member),
      get?_override (distinct first List.mem_cons_self), ← Option.or_assoc, List.reverse_cons]
    simp only [firstValue?, List.findSome?_append, List.findSome?_singleton]

/-- A joined table holds for each name the last value that is not empty. -/
theorem get?_merge {tables : List Table} (distinct : ∀ table ∈ tables, table.HasDistinctNames)
    (name : Text) : (merge tables).get? name = firstValue? tables.reverse name := by
  rw [merge, get?_foldl_override tables distinct]
  exact Option.or_none

theorem value?_merge {tables : List Table} (distinct : ∀ table ∈ tables, table.HasDistinctNames)
    (name : Text) : (merge tables).value? name = firstValue? tables.reverse name := by
  rw [value?_eq_get?, get?_merge distinct]
  rw [get?_merge distinct]
  intro found
  obtain ⟨table, -, empty⟩ := List.exists_of_findSome?_eq_some found
  exact value?_ne_nil table name empty

section Precedence

variable (name : Text)

theorem firstValue?_nil : firstValue? [] name = none := by
  rfl

theorem firstValue?_cons (first : Table) (tables : List Table) :
    firstValue? (first :: tables) name = (first.value? name).or (firstValue? tables name) := by
  rw [firstValue?, List.findSome?_cons]
  cases first.value? name <;> rfl

theorem firstValue?_pair (first second : Table) :
    firstValue? [first, second] name = (first.value? name).or (second.value? name) := by
  rw [firstValue?_cons, firstValue?_cons, firstValue?_nil, Option.or_none]

theorem firstValue?_append (tables more : List Table) :
    firstValue? (tables ++ more) name = (firstValue? tables name).or (firstValue? more name) :=
  List.findSome?_append

end Precedence

theorem get?_setDefault (table : Table) (name value key : Text) :
    (table.setDefault name value).get? key =
      (table.get? key).or (if key = name then some value else none) := by
  unfold setDefault
  split
  · rename_i held
    by_cases same : key = name
    · subst same
      obtain ⟨other, found⟩ := Option.isSome_iff_exists.mp held
      rw [found, Option.some_or]
    · rw [if_neg same, Option.or_none]
  · rename_i missing
    rw [get?_set]
    by_cases same : key = name
    · subst same
      rw [Option.not_isSome_iff_eq_none.mp missing, if_pos rfl, Option.none_or]
    · rw [if_neg same, if_neg same, Option.or_none]

end Table

end GradlePublishing
