import GradlePublishing.Text.Basic

/-!
Tables map names to values. A name that is set again keeps its place and takes the new value
(`get?_set`).
-/

namespace GradlePublishing

def setEntry {α : Type} (name : Text) (value : α) : List (Text × α) → List (Text × α)
  | [] => [(name, value)]
  | (key, old) :: rest =>
    if key = name then (key, value) :: rest else (key, old) :: setEntry name value rest

theorem lookup_entry {α : Type} (name key : Text) (value : α) (entries : List (Text × α)) :
    ((name, value) :: entries).lookup key =
      if key = name then some value else entries.lookup key := by
  by_cases same : key = name
  · simp [same]
  · simp [List.lookup_cons, same, beq_eq_false_iff_ne.mpr same]

theorem lookup_setEntry {α : Type} (name key : Text) (value : α) (entries : List (Text × α)) :
    (setEntry name value entries).lookup key =
      if key = name then some value else entries.lookup key := by
  induction entries with
  | nil => exact lookup_entry name key value []
  | cons entry entries ih =>
    obtain ⟨other, old⟩ := entry
    by_cases here : other = name
    · subst here
      by_cases same : key = other <;> simp [setEntry, lookup_entry, same]
    · by_cases same : key = name
      · subst same
        simp [setEntry, lookup_entry, here, Ne.symm here, ih]
      · simp [setEntry, lookup_entry, here, same, ih]

/-- Names and their values, in the order in which the names were first set. -/
structure Table where
  entries : List (Text × Text)
  deriving DecidableEq, Repr

namespace Table

def empty : Table := ⟨[]⟩

instance : EmptyCollection Table := ⟨empty⟩

instance : Inhabited Table := ⟨empty⟩

def get? (table : Table) (name : Text) : Option Text := table.entries.lookup name

/-- The value of a name, if it is not empty. -/
def value? (table : Table) (name : Text) : Option Text := (table.get? name).filter (!·.isEmpty)

def set (table : Table) (name value : Text) : Table := ⟨setEntry name value table.entries⟩

def setDefault (table : Table) (name value : Text) : Table :=
  if (table.get? name).isSome then table else table.set name value

/-- Sets all non-empty values of `later`. -/
def override (table later : Table) : Table :=
  later.entries.foldl
    (fun merged entry => if entry.2.isEmpty then merged else merged.set entry.1 entry.2) table

/-- Joins tables, of which the later ones take precedence. An empty value never counts. -/
def merge (tables : List Table) : Table := tables.foldl override empty

def ofList (entries : List (Text × Text)) : Table :=
  entries.foldl (fun table entry => table.set entry.1 entry.2) empty

theorem get?_set (table : Table) (name value key : Text) :
    (table.set name value).get? key = if key = name then some value else table.get? key :=
  lookup_setEntry name key value table.entries

end Table

end GradlePublishing
