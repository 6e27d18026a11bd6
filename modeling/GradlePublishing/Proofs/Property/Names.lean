import GradlePublishing.Proofs.Property.Braced
import GradlePublishing.Proofs.Text.Split
import Mathlib.Data.List.TakeWhile

/-!
Plain references, one at a time. Behind a `$` names joined by dots are read as far as they go, so that what
stands behind them in a text can only make them longer (`exists_readOn`). Where no property value holds a `$`,
what replaces a reference depends on its names alone (`replaceNames_dollar`).
-/

namespace GradlePublishing.Property

open GradlePublishing.Script

def startsName (c : Char) : Bool := c.isAlpha || c == '_'

def continuesName (c : Char) : Bool := c.isAlphanum || c == '_'

inductive IsName : Text → Prop
  | intro {c : Char} {more : Text} (starts : startsName c = true)
      (continues : ∀ d ∈ more, continuesName d = true) : IsName (c :: more)

theorem not_mem_of_isName {name : Text} (isName : IsName name) : '$' ∉ name := by
  obtain ⟨starts, continues⟩ := isName
  intro dollar
  rcases List.mem_cons.mp dollar with rfl | dollar
  · cases starts
  · cases continues '$' dollar

theorem not_mem_joinWith {names : List Text} (areNames : ∀ name ∈ names, IsName name) :
    '$' ∉ Text.joinWith ['.'] names := by
  induction names with
  | nil => exact List.not_mem_nil
  | cons name names ih =>
    have first := not_mem_of_isName (areNames name List.mem_cons_self)
    have later := ih fun other member => areNames other (List.mem_cons_of_mem _ member)
    cases names with
    | nil =>
      rw [Text.joinWith_singleton]
      exact first
    | cons second names =>
      rw [Text.joinWith_cons '.' name (List.cons_ne_nil second names), List.mem_append, not_or]
      refine ⟨first, ?_⟩
      rw [List.mem_cons, not_or]
      exact ⟨by decide, later⟩

/-! Reading the names at the head of a text. -/

theorem name?_cons (c : Char) (s : Text) :
    name? (fun _ => false) (c :: s) =
      if startsName c then some (c :: s.takeWhile continuesName, s.dropWhile continuesName) else none := by
  simp only [name?, startsName, Bool.or_false]
  rfl

theorem name?_append {name : Text} (isName : IsName name) (s : Text) :
    name? (fun _ => false) (name ++ s) =
      some (name ++ s.takeWhile continuesName, s.dropWhile continuesName) := by
  obtain ⟨starts, continues⟩ := isName
  rw [List.cons_append, name?_cons, if_pos starts, List.takeWhile_append_of_pos continues,
    List.dropWhile_append_of_pos continues]
  rfl

theorem isName_of_name? {s name rest : Text} (found : name? (fun _ => false) s = some (name, rest)) :
    IsName name ∧ name ++ rest = s := by
  cases s with
  | nil => cases found
  | cons c s =>
    rw [name?_cons] at found
    split at found
    · cases found
      refine ⟨.intro ‹_› fun d member => List.mem_takeWhile_imp member, ?_⟩
      rw [List.cons_append, List.takeWhile_append_dropWhile]
    · cases found

/-- The names that are read and what is left behind them are the whole text. -/
theorem joinWith_dottedNames (s : Text) :
    Text.joinWith ['.'] (dottedNames s).1 ++ (dottedNames s).2 = s := by
  fun_induction dottedNames s with
  | case1 s => rfl
  | case2 s name rest found after last ih =>
    rw [Text.joinWith_singleton]
    exact (isName_of_name? found).2
  | case3 s name rest found names after more read ih =>
    rw [read] at ih
    rw [Text.joinWith_cons '.' name more, List.append_assoc, List.cons_append, ih]
    exact (isName_of_name? found).2
  | case4 s name rest undotted found =>
    rw [Text.joinWith_singleton]
    exact (isName_of_name? found).2

theorem isName_of_mem_dottedNames {s name : Text} (member : name ∈ (dottedNames s).1) : IsName name := by
  fun_induction dottedNames s with
  | case1 s => cases member
  | case2 s first rest found after last ih =>
    rw [List.mem_singleton.mp member]
    exact (isName_of_name? found).1
  | case3 s first rest found names after more read ih =>
    rcases List.mem_cons.mp member with rfl | later
    · exact (isName_of_name? found).1
    · rw [read] at ih
      exact ih later
  | case4 s first rest undotted found =>
    rw [List.mem_singleton.mp member]
    exact (isName_of_name? found).1

theorem dottedNames_of_dot {s name rest : Text}
    (found : name? (fun _ => false) s = some (name, '.' :: rest)) (more : (dottedNames rest).1 ≠ []) :
    dottedNames s = (name :: (dottedNames rest).1, (dottedNames rest).2) := by
  rw [dottedNames]
  split <;> simp_all

theorem dottedNames_of_name? {s name rest : Text}
    (found : name? (fun _ => false) s = some (name, rest)) :
    (dottedNames s).1 ≠ [] ∧ (dottedNames s).2.length ≤ rest.length := by
  rw [dottedNames]
  split
  · rename_i absent
    rw [found] at absent
    cases absent
  · rename_i after dotted
    rw [found] at dotted
    cases dotted
    have shorter := length_dottedNames after
    split
    · exact ⟨List.cons_ne_nil _ _, Nat.le_refl _⟩
    · rename_i read
      rw [read] at shorter
      exact ⟨List.cons_ne_nil _ _, Nat.le_succ_of_le shorter⟩
  · rename_i other
    rw [found] at other
    cases other
    exact ⟨List.cons_ne_nil _ _, Nat.le_refl _⟩

theorem dottedNames_joinWith_ne_nil {name : Text} (isName : IsName name) (names : List Text)
    (behind : Text) : (dottedNames (Text.joinWith ['.'] (name :: names) ++ behind)).1 ≠ [] := by
  obtain ⟨rest, whole⟩ := Text.prefix_joinWith ['.'] name names
  rw [← whole, List.append_assoc]
  exact (dottedNames_of_name? (name?_append isName _)).1

/-- Names are read to their end at least. -/
theorem length_dottedNames_joinWith {names : List Text} (areNames : ∀ name ∈ names, IsName name)
    (behind : Text) : (dottedNames (Text.joinWith ['.'] names ++ behind)).2.length ≤ behind.length := by
  induction names with
  | nil => exact length_dottedNames behind
  | cons name names ih =>
    have isName := areNames name List.mem_cons_self
    have ih := ih fun other member => areNames other (List.mem_cons_of_mem _ member)
    cases names with
    | nil =>
      rw [Text.joinWith_singleton]
      have shorter := (List.dropWhile_suffix (l := behind) continuesName).length_le
      exact (dottedNames_of_name? (name?_append isName behind)).2.trans shorter
    | cons second names =>
      have isSecond := areNames second (List.mem_cons_of_mem _ List.mem_cons_self)
      have found := name?_append isName ('.' :: (Text.joinWith ['.'] (second :: names) ++ behind))
      rw [Text.joinWith_cons '.' name (List.cons_ne_nil second names), List.append_assoc,
        List.cons_append, dottedNames_of_dot found (dottedNames_joinWith_ne_nil isSecond names behind)]
      exact ih

/-- Names in front of a text are read on into it, and what is read of it holds no `$`. -/
theorem exists_readOn {names : List Text} (areNames : ∀ name ∈ names, IsName name) (behind : Text) :
    let read := dottedNames (Text.joinWith ['.'] names ++ behind)
    ∃ extra, behind = extra ++ read.2 ∧ Text.joinWith ['.'] read.1 = Text.joinWith ['.'] names ++ extra ∧
      '$' ∉ extra := by
  intro read
  have whole : Text.joinWith ['.'] read.1 ++ read.2 = Text.joinWith ['.'] names ++ behind :=
    joinWith_dottedNames _
  have plain : '$' ∉ Text.joinWith ['.'] read.1 :=
    not_mem_joinWith fun name member => isName_of_mem_dottedNames member
  rcases List.append_eq_append_iff.mp whole with ⟨between, ahead, after⟩ | ⟨extra, ahead, after⟩
  · have bound : read.2.length ≤ behind.length := length_dottedNames_joinWith areNames behind
    have nothing : between = [] := by
      rw [after, List.length_append] at bound
      exact List.length_eq_zero_iff.mp (by omega)
    subst nothing
    rw [List.append_nil] at ahead
    refine ⟨[], after.symm, ?_, List.not_mem_nil⟩
    rw [List.append_nil, ahead]
  · refine ⟨extra, after, ahead, ?_⟩
    rw [ahead, List.mem_append, not_or] at plain
    exact plain.2

/-- A character that belongs to no name ends the names in front of it. -/
theorem name?_append_stop {stop : Char} (ends : continuesName stop = false) (s rest : Text) :
    name? (fun _ => false) (s ++ stop :: rest) =
      (name? (fun _ => false) s).map fun (name, after) => (name, after ++ stop :: rest) := by
  have unstarted : startsName stop = false := by
    simp only [continuesName, Char.isAlphanum, Bool.or_eq_false_iff] at ends
    rw [startsName, ends.1.1, ends.2, Bool.or_false]
  cases s with
  | nil =>
    rw [List.nil_append, name?_cons, unstarted]
    rfl
  | cons c s =>
    rw [List.cons_append, name?_cons, name?_cons, Text.takeWhile_append_stop ends,
      Text.dropWhile_append_stop ends]
    split <;> rfl

theorem dottedNames_append_stop {stop : Char} (ends : continuesName stop = false) (undotted : stop ≠ '.')
    (s rest : Text) :
    dottedNames (s ++ stop :: rest) = ((dottedNames s).1, (dottedNames s).2 ++ stop :: rest) := by
  have step := fun s => name?_append_stop ends s rest
  fun_induction dottedNames s with
  | case1 s absent =>
    rw [dottedNames]
    split <;> simp_all
  | case2 s name behind found after last ih =>
    rw [dottedNames]
    split <;> simp_all
  | case3 s name behind found names after more read ih =>
    rw [read] at ih
    have dotted : name? (fun _ => false) (s ++ stop :: rest) =
        some (name, '.' :: (behind ++ stop :: rest)) := by
      rw [step, found]
      rfl
    have further : (dottedNames (behind ++ stop :: rest)).1 ≠ [] := by
      rw [ih]
      exact more
    rw [dottedNames_of_dot dotted further, ih]
  | case4 s name behind alone found =>
    have undotted : ∀ after, behind ++ stop :: rest ≠ '.' :: after := by
      intro after same
      cases behind with
      | nil => exact undotted (List.cons.inj same).1
      | cons c behind => exact alone behind (by rw [(List.cons.inj same).1])
    rw [dottedNames]
    split <;> simp_all

theorem dottedNames_of_head? {s : Text} (unstarted : ∀ c ∈ s.head?, startsName c = false) :
    dottedNames s = ([], s) := by
  have absent : name? (fun _ => false) s = none := by
    cases s with
    | nil => rfl
    | cons c s =>
      rw [name?_cons, unstarted c rfl]
      rfl
  rw [dottedNames]
  split <;> simp_all

theorem dottedNames_cons_ne_nil_iff {c : Char} {s : Text} :
    (dottedNames (c :: s)).1 ≠ [] ↔ startsName c = true := by
  constructor
  · intro named
    by_contra unstarted
    rw [dottedNames_of_head? (by simpa using unstarted)] at named
    exact named rfl
  · intro starts
    have found := (name?_cons c s).trans (if_pos starts)
    exact (dottedNames_of_name? found).1

theorem dottedNames_joinWith {names : List Text} (areNames : ∀ name ∈ names, IsName name) :
    dottedNames (Text.joinWith ['.'] names) = (names, []) := by
  induction names with
  | nil => exact dottedNames_of_head? nofun
  | cons name names ih =>
    have isName := areNames name List.mem_cons_self
    have ih := ih fun other member => areNames other (List.mem_cons_of_mem _ member)
    cases names with
    | nil =>
      have found := name?_append isName []
      rw [Text.joinWith_singleton, dottedNames]
      split <;> simp_all
    | cons second names =>
      have found := name?_append isName ('.' :: Text.joinWith ['.'] (second :: names))
      have dot : continuesName '.' = false := by decide
      rw [List.takeWhile_cons_of_neg (by simp [dot]), List.append_nil,
        List.dropWhile_cons_of_neg (by simp [dot])] at found
      have further : (dottedNames (Text.joinWith ['.'] (second :: names))).1 ≠ [] := by
        rw [ih]
        exact List.cons_ne_nil second names
      rw [Text.joinWith_cons '.' name (List.cons_ne_nil second names), dottedNames_of_dot found further, ih]

/-- Names are read as they are where what stands behind them continues none. -/
theorem dottedNames_joinWith_append {names : List Text} (areNames : ∀ name ∈ names, IsName name)
    {behind : Text} (ends : ∀ c ∈ behind.head?, continuesName c = false ∧ c ≠ '.') :
    dottedNames (Text.joinWith ['.'] names ++ behind) = (names, behind) := by
  cases behind with
  | nil => rw [List.append_nil, dottedNames_joinWith areNames]
  | cons stop rest =>
    obtain ⟨unnamed, undotted⟩ := ends stop rfl
    rw [dottedNames_append_stop unnamed undotted, dottedNames_joinWith areNames, List.nil_append]

theorem namePieces_dollar (s : Text) :
    namePieces ('$' :: s) = if (dottedNames s).1 = [] then .plain '$' :: namePieces s
      else .reference (dottedNames s).1 :: namePieces (dottedNames s).2 := by
  rw [namePieces]
  split
  · rename_i behind read
    rw [read, if_pos rfl]
  · rename_i names behind named read
    rw [read, if_neg named]

/-! What plain references come to, with property values that hold no `$`. -/

/-- What the longest known beginning of some names comes to, with the other names behind its value. -/
def beginning? (table : Table) (names : List Text) : Option Text :=
  (List.range' 1 (names.length - 1)).reverse.findSome? fun count =>
    (table.value? (Text.joinWith ['.'] (names.take count))).map
      (· ++ (names.drop count).flatMap ('.' :: ·))

/-- What a plain reference comes to: the value of the full name, or of the name without a project prefix,
or of its longest known beginning with the rest behind it, or else itself. Without names there is only
the `$`. -/
def nameAlone (table : Table) (names : List Text) : Text :=
  let full := Text.joinWith ['.'] names
  if names = [] then ['$']
  else (((table.value? full).or (table.value? (dropProject full))).or (beginning? table names)).getD
    (nameText names)

section Alone

variable (table : Table)

theorem ne_nil_of_mem_namePieces {names : List Text} {s : Text}
    (member : .reference names ∈ namePieces s) : names ≠ [] := by
  fun_induction namePieces s with
  | case1 => cases member
  | case2 s behind read ih => exact ih (by simpa using member)
  | case3 s found behind named read ih =>
    rcases List.mem_cons.mp member with same | later
    · cases same
      exact named
    · exact ih later
  | case4 c s other ih => exact ih (by simpa using member)

theorem filterMap_projectPrefixes (full : Text) :
    projectPrefixes.filterMap (Text.after? · full) =
      (projectPrefixes.findSome? (Text.after? · full)).toList := by
  rw [projectPrefixes, List.filterMap_cons, List.filterMap_cons, List.filterMap_nil, List.findSome?_cons,
    List.findSome?_cons, List.findSome?_nil]
  cases ofProject : Text.after? "project." full with
  | none => cases Text.after? "rootProject." full <;> rfl
  | some rest =>
    have other : Text.after? "rootProject." full = none := by
      rw [Text.after?_eq_some_iff.mp ofProject]
      rfl
    rw [other]
    rfl

/-- The names that are looked up first: the full one, and the one without a project prefix. -/
theorem findSome?_keys (full : Text) :
    (full :: projectPrefixes.filterMap (Text.after? · full)).findSome? table.value? =
      (table.value? full).or (table.value? (dropProject full)) := by
  rw [filterMap_projectPrefixes, dropProject, List.findSome?_cons]
  cases known : table.value? full with
  | some value => rfl
  | none =>
    cases projectPrefixes.findSome? (Text.after? · full) with
    | none => exact known.symm
    | some rest => exact List.findSome?_singleton

variable (values : ∀ name value, table.get? name = some value → '$' ∉ value)

include values

theorem not_mem_of_value? {name value : Text} (known : table.value? name = some value) :
    '$' ∉ value :=
  values name value (Option.filter_eq_some_iff.mp known).1

section Resolving

variable {resolve : Text → Text} (plain : ∀ value, '$' ∉ value → resolve value = value)

include plain

theorem map_longestKnown? (names : List Text) (count : Nat) :
    (longestKnown? table names count).map (fun known => resolve known.1 ++ known.2.flatMap ('.' :: ·)) =
      (List.range' 1 count).reverse.findSome? fun count =>
        (table.value? (Text.joinWith ['.'] (names.take count))).map
          (· ++ (names.drop count).flatMap ('.' :: ·)) := by
  induction count with
  | zero => rfl
  | succ count ih =>
    rw [List.range'_1_concat, List.reverse_append, List.reverse_singleton, List.singleton_append,
      List.findSome?_cons, Nat.add_comm 1 count, longestKnown?]
    cases known : table.value? (Text.joinWith ['.'] (names.take (count + 1))) with
    | none => exact ih
    | some value =>
      have noDollar := not_mem_of_value? table values known
      have other : value ≠ '$' :: Text.joinWith ['.'] (names.take (count + 1)) := by
        rintro rfl
        exact noDollar List.mem_cons_self
      simp only [Option.filter_some, bne_iff_ne.mpr other, if_true, Option.map_some, plain value noDollar]

/-- What replaces a plain reference is what it comes to on its own. -/
theorem replacement_eq_nameAlone {names : List Text} (named : names ≠ []) :
    (match nameValue? table names with
      | some (replacement, rest) => resolve replacement ++ rest.flatMap ('.' :: ·)
      | none => nameText names) = nameAlone table names := by
  rw [nameAlone, if_neg named, nameValue?, findSome?_keys]
  cases known : (table.value? (Text.joinWith ['.'] names)).or
      (table.value? (dropProject (Text.joinWith ['.'] names))) with
  | some value =>
    have noDollar : '$' ∉ value := by
      rcases Option.or_eq_some_iff.mp known with here | ⟨-, there⟩
      · exact not_mem_of_value? table values here
      · exact not_mem_of_value? table values there
    have other : value ≠ nameText names := by
      rintro rfl
      exact noDollar List.mem_cons_self
    simp [other, plain value noDollar]
  | none =>
    rw [Option.none_or, beginning?, ← map_longestKnown? table values plain]
    cases longestKnown? table names (names.length - 1) <;> rfl

theorem replaceNames_eq_id (s : Text) : replaceNames table resolve s = replaceNames table id s := by
  apply List.flatMap_congr
  intro piece member
  cases piece with
  | plain c => rfl
  | reference names =>
    have named := ne_nil_of_mem_namePieces member
    exact (replacement_eq_nameAlone table values plain named).trans
      (replacement_eq_nameAlone table values (fun _ _ => rfl) named).symm

end Resolving

theorem replaceNames_dollar (rest : Text) :
    replaceNames table id ('$' :: rest) =
      nameAlone table (dottedNames rest).1 ++ replaceNames table id (dottedNames rest).2 := by
  have whole := joinWith_dottedNames rest
  rw [replaceNames, namePieces_dollar]
  split
  · rename_i unnamed
    rw [unnamed] at whole ⊢
    have behind : (dottedNames rest).2 = rest := whole
    rw [nameAlone, if_pos rfl, List.flatMap_cons, behind, replaceNames]
  · rename_i named
    rw [List.flatMap_cons, ← replacement_eq_nameAlone table values (fun _ _ => rfl) named]
    rfl

theorem replaceNames_append_stop {stop : Char} (ends : continuesName stop = false) (undotted : stop ≠ '.')
    (plain : stop ≠ '$') (front rest : Text) :
    replaceNames table id (front ++ stop :: rest) =
      replaceNames table id front ++ stop :: replaceNames table id rest := by
  match front with
  | [] => rw [List.nil_append, replaceNames_nil, List.nil_append, replaceNames_cons table id plain]
  | c :: front =>
    by_cases dollar : c = '$'
    · subst dollar
      have behind := replaceNames_append_stop ends undotted plain (dottedNames front).2 rest
      rw [List.cons_append, replaceNames_dollar table values, replaceNames_dollar table values,
        dottedNames_append_stop ends undotted, behind, List.append_assoc]
    · have behind := replaceNames_append_stop ends undotted plain front rest
      rw [List.cons_append, replaceNames_cons table id dollar, replaceNames_cons table id dollar, behind,
        List.cons_append]
termination_by front.length
decreasing_by
  · exact Nat.lt_succ_of_le (length_dottedNames front)
  · exact Nat.lt_succ_self _

end Alone

end GradlePublishing.Property
