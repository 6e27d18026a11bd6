import GradlePublishing.Proofs.Property.Resolved

/-!
The references of a value one by one. A value is written as a row of characters, braced references and plain
ones. Resolving it replaces the braced references first and reads the plain ones in what comes of that, so
that neighbours may run together. Exactly where none does, each piece comes to what it comes to on its own
(`resolveTo_one_by_one_iff`).
-/

namespace GradlePublishing.Property

open GradlePublishing.Script

/-- A reference as it is written: what stands between its braces, or its names. -/
inductive Reference
  | braced (body : Text)
  | named (names : List Text)
  deriving DecidableEq, Repr

def written : Text → List (Piece Reference)
  | [] => []
  | '$' :: s =>
    match _ : bracedBody? s with
    | some (body, rest) => .reference (.braced body) :: written rest
    | none =>
      match _ : dottedNames s with
      | ([], _) => .plain '$' :: written s
      | (names, rest) => .reference (.named names) :: written rest
  | c :: s => .plain c :: written s
termination_by s => s.length
decreasing_by
  · have := length_bracedBody? ‹_›
    simp only [List.length_cons]
    omega
  · simp
  · have shorter := length_dottedNames s
    rw [‹dottedNames s = _›] at shorter
    simp only [List.length_cons] at shorter ⊢
    omega
  · simp

namespace Piece

def text : Piece Reference → Text
  | .plain c => [c]
  | .reference (.braced body) => bracedText body
  | .reference (.named names) => nameText names

/-- The value that a braced reference asks for. A name that is empty or starts with a `$` asks for none. -/
def bodyValue? (table : Table) (body : Text) : Option Text :=
  if (bracedKey body).head? = some '$' ∨ bracedKey body = [] then none else table.value? (bracedKey body)

/-- What a piece comes to on its own. -/
def alone (table : Table) : Piece Reference → Text
  | .plain c => [c]
  | .reference (.braced body) => (bodyValue? table body).getD (bracedText body)
  | .reference (.named names) => nameAlone table names

/-- What is left of a piece when the braced references are replaced. -/
def unbraced (table : Table) : Piece Reference → Text
  | .plain c => [c]
  | .reference (.braced body) => (bodyValue? table body).getD (bracedText body)
  | .reference (.named names) => nameText names

/-- What some names behind a `$` come to in front of a text, with the rest of that text. -/
def readOn (table : Table) (names : List Text) (behind : Text) : Text :=
  let read := dottedNames (Text.joinWith ['.'] names ++ behind)
  nameAlone table read.1 ++ read.2

/-- The piece does not run together with what stands behind it: a `$` with its names comes to the same
whether or not they are read on, and a braced reference that stays has no plain one inside that is
replaced. -/
def Apart (table : Table) (behind : Text) : Piece Reference → Prop
  | .plain c => c = '$' → readOn table [] behind = '$' :: behind
  | .reference (.braced body) => bodyValue? table body = none → replaceNames table id body = body
  | .reference (.named names) => readOn table names behind = nameAlone table names ++ behind

/-- Nothing continues the names of the piece in the text behind it, and no `$` stands between its braces. -/
def Clear (behind : Text) : Piece Reference → Prop
  | .plain c => c = '$' → ∀ next ∈ behind.head?, startsName next = false
  | .reference (.braced body) => '$' ∉ body
  | .reference (.named _) => ∀ next ∈ behind.head?, continuesName next = false ∧ next ≠ '.'

def IsRead : Piece Reference → Prop
  | .reference (.named names) => ∀ name ∈ names, IsName name
  | _ => True

end Piece

/-! The pieces of a value are read from the left, and they are the whole value. -/

/-- A value is empty, or else a piece of it is read and then the rest. -/
@[elab_as_elim]
theorem written_induction {motive : Text → Prop} (value : Text) (nil : motive [])
    (step : ∀ (piece : Piece Reference) (rest : Text), piece.IsRead →
      written (piece.text ++ rest) = piece :: written rest → motive rest → motive (piece.text ++ rest)) :
    motive value := by
  fun_induction written value with
  | case1 => exact nil
  | case2 s body rest found ih =>
    have same : '$' :: s = (Piece.reference (.braced body)).text ++ rest := by
      rw [eq_of_bracedBody? found]
      simp [Piece.text, bracedText]
    rw [same]
    refine step _ _ trivial ?_ ih
    rw [← same, written]
    split <;> simp_all
  | case3 s absent behind read ih =>
    refine step (.plain '$') s trivial ?_ ih
    change written ('$' :: s) = _
    rw [written]
    split
    · simp_all
    · split <;> simp_all
  | case4 s absent names rest named read ih =>
    have whole := joinWith_dottedNames s
    have areNames : ∀ name ∈ (dottedNames s).1, IsName name := fun _ => isName_of_mem_dottedNames
    rw [read] at whole areNames
    have same : '$' :: s = (Piece.reference (.named names)).text ++ rest := by
      rw [← whole]
      rfl
    rw [same]
    refine step _ _ areNames ?_ ih
    rw [← same, written]
    split
    · simp_all
    · split <;> simp_all
  | case5 c s other ih =>
    refine step (.plain c) s trivial ?_ ih
    change written (c :: s) = _
    rw [written]
    exact other

theorem flatMap_text_written (value : Text) : (written value).flatMap Piece.text = value := by
  induction value using written_induction with
  | nil => rw [written, List.flatMap_nil]
  | step piece rest isRead read ih => rw [read, List.flatMap_cons, ih]

theorem isRead_of_mem_written {piece : Piece Reference} {value : Text} (member : piece ∈ written value) :
    piece.IsRead := by
  induction value using written_induction with
  | nil =>
    rw [written] at member
    cases member
  | step first rest isRead read ih =>
    rw [read] at member
    rcases List.mem_cons.mp member with rfl | later
    · exact isRead
    · exact ih later

/-- What is read from some piece on are the pieces of the rest of the value. -/
theorem written_of_suffix {pieces : List (Piece Reference)} {value : Text}
    (behind : pieces <:+ written value) : written (pieces.flatMap Piece.text) = pieces := by
  obtain ⟨rest, same⟩ : ∃ rest, written rest = pieces := by
    induction value using written_induction with
    | nil =>
      rw [written] at behind
      exact ⟨[], by rw [written, List.suffix_nil.mp behind]⟩
    | step first rest isRead read ih =>
      rw [read] at behind
      rcases List.suffix_cons_iff.mp behind with rfl | later
      · exact ⟨_, read⟩
      · exact ih later
  rw [← same, flatMap_text_written]

/-! Resolving in two rounds. -/

section Rounds

variable (table : Table)

theorem replaceBraced_braced (resolve : Text → Text) {s body rest : Text}
    (found : bracedBody? s = some (body, rest)) :
    replaceBraced table resolve ('$' :: s) =
      replaceBody table resolve body ++ replaceBraced table resolve rest := by
  rw [replaceBraced, bracedPieces_found found]
  exact List.flatMap_cons

theorem replaceBraced_dollar (resolve : Text → Text) {s : Text} (absent : bracedBody? s = none) :
    replaceBraced table resolve ('$' :: s) = '$' :: replaceBraced table resolve s := by
  rw [replaceBraced, bracedPieces_absent absent]
  exact List.flatMap_cons

theorem replaceBraced_of_not_mem (resolve : Text → Text) {front : Text} (plain : '$' ∉ front)
    (rest : Text) :
    replaceBraced table resolve (front ++ rest) = front ++ replaceBraced table resolve rest := by
  induction front with
  | nil => rfl
  | cons c front ih =>
    rw [List.mem_cons, not_or] at plain
    rw [List.cons_append, replaceBraced_cons table resolve (Ne.symm plain.1), ih plain.2, List.cons_append]

theorem rounds_of_not_mem (resolve : Text → Text) {value : Text} (plain : '$' ∉ value) :
    replaceNames table resolve (replaceBraced table resolve value) = value := by
  obtain ⟨braced, named, -⟩ := hasReference_eq_false_iff_plain.mp (hasReference_of_not_mem plain)
  rw [replaceBraced_of_plain table resolve braced, replaceNames_of_plain table resolve named]

variable (values : ∀ name value, table.get? name = some value → '$' ∉ value)

include values

theorem bracedValue?_eq_bodyValue? (body : Text) : bracedValue? table body = Piece.bodyValue? table body := by
  rw [bracedValue?, Piece.bodyValue?]
  by_cases dollar : (bracedKey body).head? = some '$'
  · simp [dollar]
  · by_cases named : bracedKey body = []
    · simp [named]
    · cases known : table.value? (bracedKey body) with
      | none => simp [dollar, named]
      | some value =>
        have other : value ≠ bracedText body := by
          rintro rfl
          exact not_mem_of_value? table values known List.mem_cons_self
        simp [dollar, named, other]

theorem not_mem_of_bodyValue? {body value : Text} (known : Piece.bodyValue? table body = some value) :
    '$' ∉ value := by
  rw [Piece.bodyValue?] at known
  split at known
  · cases known
  · exact not_mem_of_value? table values known

theorem replaceBraced_eq_flatMap {resolve : Text → Text}
    (plain : ∀ value, '$' ∉ value → resolve value = value) (value : Text) :
    replaceBraced table resolve value = (written value).flatMap (Piece.unbraced table) := by
  fun_induction written value with
  | case1 => exact replaceBraced_nil table resolve
  | case2 s body rest found ih =>
    rw [List.flatMap_cons, ← ih, replaceBraced_braced table resolve found, replaceBody,
      bracedValue?_eq_bodyValue? table values]
    cases known : Piece.bodyValue? table body with
    | none => simp [Piece.unbraced, known]
    | some replacement =>
      simp [Piece.unbraced, known, plain replacement (not_mem_of_bodyValue? table values known)]
  | case3 s absent behind read ih =>
    rw [List.flatMap_cons, ← ih, replaceBraced_dollar table resolve absent]
    rfl
  | case4 s absent names rest named read ih =>
    -- The names hold no `$`, so that no braced reference is found in them.
    have whole := joinWith_dottedNames s
    have plain : '$' ∉ Text.joinWith ['.'] (dottedNames s).1 :=
      not_mem_joinWith fun _ => isName_of_mem_dottedNames
    rw [read] at whole plain
    rw [List.flatMap_cons, ← ih, replaceBraced_dollar table resolve absent, ← whole,
      replaceBraced_of_not_mem table resolve plain]
    rfl
  | case5 c s other ih =>
    have plain : c ≠ '$' := other
    rw [List.flatMap_cons, ← ih, replaceBraced_cons table resolve plain]
    rfl

/-- The first round leaves the plain references, which the second one reads in what has come of the rest. -/
theorem resolveTo_eq_replaceNames {depth : Int} (enough : 0 ≤ depth) (value : Text) :
    resolveTo depth table value =
      replaceNames table id ((written value).flatMap (Piece.unbraced table)) := by
  rw [resolveTo]
  split
  · have levels : (depth + 1).toNat = depth.toNat + 1 := by omega
    have plain (value : Text) (absent : '$' ∉ value) : expand table depth.toNat value = value :=
      expand_of_hasReference_eq_false table depth.toNat (hasReference_of_not_mem absent)
    rw [levels, expand, replaceBraced_eq_flatMap table values plain, replaceNames_eq_id table values plain]
  · rename_i absent
    have plain : '$' ∉ value := by simpa using absent
    rw [← replaceBraced_eq_flatMap table values (fun _ _ => rfl)]
    exact (rounds_of_not_mem table id plain).symm

theorem replaceNames_readOn_iff {names : List Text} (areNames : ∀ name ∈ names, IsName name)
    (behind : Text) :
    replaceNames table id (nameText names ++ behind) = nameAlone table names ++ replaceNames table id behind ↔
      Piece.readOn table names behind = nameAlone table names ++ behind := by
  -- What the names take of the text behind them holds no `$`, so that it would be left as it is.
  obtain ⟨extra, whole, -, plain⟩ := exists_readOn areNames behind
  rw [nameText, List.cons_append, replaceNames_dollar table values, Piece.readOn]
  generalize dottedNames (Text.joinWith ['.'] names ++ behind) = read at whole
  rw [whole, replaceNames_of_not_mem table id plain, ← List.append_assoc, ← List.append_assoc,
    List.append_left_inj, List.append_left_inj]

/-- A piece comes to what it comes to on its own exactly where it does not run together with what stands
behind it. -/
theorem replaceNames_piece_iff {piece : Piece Reference} (isRead : piece.IsRead) (behind : Text) :
    replaceNames table id (piece.unbraced table ++ behind) =
        piece.alone table ++ replaceNames table id behind ↔
      piece.Apart table behind := by
  match piece with
  | .plain c =>
    by_cases dollar : c = '$'
    · subst dollar
      have nameless := @replaceNames_readOn_iff table values [] (fun _ member => by cases member) behind
      exact ⟨fun same _ => nameless.mp same, fun apart => nameless.mpr (apart rfl)⟩
    · exact iff_of_true (replaceNames_cons table id dollar behind) fun same => absurd same dollar
  | .reference (.braced body) =>
    rw [Piece.unbraced, Piece.alone, Piece.Apart]
    cases known : Piece.bodyValue? table body with
    | some value =>
      have plain := not_mem_of_bodyValue? table values known
      exact iff_of_true (replaceNames_of_not_mem table id plain behind) nofun
    | none =>
      -- The closing brace ends every name in the body.
      have closed := replaceNames_append_stop table values (show continuesName '}' = false by decide)
        (by decide) (by decide) body behind
      have whole : bracedText body ++ behind = '$' :: '{' :: (body ++ '}' :: behind) := by
        simp [bracedText]
      rw [Option.getD_none, whole, replaceNames_brace, closed]
      simp [bracedText]
  | .reference (.named names) => exact replaceNames_readOn_iff table values isRead behind

theorem replaceNames_pieces_iff {pieces : List (Piece Reference)}
    (areRead : ∀ piece ∈ pieces, piece.IsRead) :
    (∀ rest, rest <:+ pieces → replaceNames table id (rest.flatMap (Piece.unbraced table)) =
        rest.flatMap (Piece.alone table)) ↔
      ∀ piece rest, piece :: rest <:+ pieces →
        piece.Apart table (rest.flatMap (Piece.unbraced table)) := by
  induction pieces with
  | nil =>
    refine iff_of_true (fun rest behind => ?_) (fun piece rest behind => ?_)
    · rw [List.suffix_nil.mp behind, List.flatMap_nil, List.flatMap_nil, replaceNames_nil]
    · cases List.suffix_nil.mp behind
  | cons first pieces ih =>
    have ih := ih fun piece member => areRead piece (List.mem_cons_of_mem _ member)
    have step := replaceNames_piece_iff table values (areRead first List.mem_cons_self)
      (pieces.flatMap (Piece.unbraced table))
    -- With the pieces behind the first one resolved one by one, it is up to the first.
    constructor
    · intro resolved piece rest behind
      have later := fun rest inside => resolved rest (List.suffix_cons_iff.mpr (.inr inside))
      rcases List.suffix_cons_iff.mp behind with same | inside
      · obtain ⟨rfl, rfl⟩ := List.cons.inj same
        have whole := resolved (piece :: rest) List.suffix_rfl
        rw [List.flatMap_cons, List.flatMap_cons, ← later rest List.suffix_rfl] at whole
        exact step.mp whole
      · exact ih.mp later piece rest inside
    · intro apart rest behind
      have later := ih.mpr fun piece rest inside => apart piece rest (List.suffix_cons_iff.mpr (.inr inside))
      rcases List.suffix_cons_iff.mp behind with rfl | inside
      · rw [List.flatMap_cons, List.flatMap_cons, ← later pieces List.suffix_rfl]
        exact step.mpr (apart first pieces List.suffix_rfl)
      · exact later rest inside

omit values in
theorem apart_of_clear {piece : Piece Reference} (isRead : piece.IsRead) {behind : Text}
    (clear : piece.Clear behind) : piece.Apart table behind := by
  match piece with
  | .plain c =>
    intro dollar
    have nameless : dottedNames behind = ([], behind) := dottedNames_of_head? (clear dollar)
    rw [Piece.readOn, Text.joinWith, List.intercalate_nil, List.nil_append, nameless]
    rfl
  | .reference (.braced body) =>
    intro _
    have same := replaceNames_of_not_mem table id clear []
    rwa [List.append_nil, replaceNames_nil, List.append_nil] at same
  | .reference (.named names) =>
    rw [Piece.Apart, Piece.readOn, dottedNames_joinWith_append isRead clear]

end Rounds

/-- The pieces of a value, from any one of them on, come to what they come to on their own exactly where none
runs together with what stands behind it once the braced references are replaced. -/
theorem resolveTo_one_by_one_iff {table : Table}
    (values : ∀ name value, table.get? name = some value → '$' ∉ value) {depth : Int}
    (enough : 0 ≤ depth) (value : Text) :
    (∀ pieces, pieces <:+ written value →
        resolveTo depth table (pieces.flatMap Piece.text) = pieces.flatMap (Piece.alone table)) ↔
      ∀ piece rest, piece :: rest <:+ written value →
        piece.Apart table (rest.flatMap (Piece.unbraced table)) := by
  rw [← replaceNames_pieces_iff table values fun _ => isRead_of_mem_written]
  refine forall₂_congr fun pieces behind => ?_
  rw [resolveTo_eq_replaceNames table values enough, written_of_suffix behind]

/-! Two references with a slash between them are apart, and without it they run together. -/

def neighbours : Table := ⟨[("base", "libs"), ("suffix", "Release")]⟩

theorem not_mem_neighbours (name value : Text) (found : neighbours.get? name = some value) : '$' ∉ value := by
  obtain ⟨before, after, whole, -⟩ := List.lookup_eq_some_iff.mp found
  have entries : ∀ entry ∈ neighbours.entries, '$' ∉ entry.2 := by decide
  exact entries (name, value) (by rw [whole]; simp)

theorem written_parted : written "$base/${suffix}" =
    [.reference (.named ["base"]), .plain '/', .reference (.braced "suffix")] := by
  with_unfolding_all decide

theorem written_fused : written "$base${suffix}" =
    [.reference (.named ["base"]), .reference (.braced "suffix")] := by
  with_unfolding_all decide

theorem clear_parted (piece : Piece Reference) (rest : List (Piece Reference))
    (behind : piece :: rest <:+ written "$base/${suffix}") :
    piece.Clear (rest.flatMap (Piece.unbraced neighbours)) := by
  rw [written_parted] at behind
  rcases List.suffix_cons_iff.mp behind with here | behind
  · obtain ⟨rfl, rfl⟩ := List.cons.inj here
    rintro next ⟨rfl⟩
    decide
  rcases List.suffix_cons_iff.mp behind with here | behind
  · obtain ⟨rfl, rfl⟩ := List.cons.inj here
    exact fun same => absurd same (by decide)
  rcases List.suffix_cons_iff.mp behind with here | behind
  · obtain ⟨rfl, rfl⟩ := List.cons.inj here
    change '$' ∉ "suffix".toList
    decide
  · cases List.suffix_nil.mp behind

theorem resolveTo_one_by_one_parted :
    resolveTo 0 neighbours "$base/${suffix}" = "libs/Release" ∧
      ¬ ∀ pieces, pieces <:+ written "$base${suffix}" →
        resolveTo 0 neighbours (pieces.flatMap Piece.text) = pieces.flatMap (Piece.alone neighbours) := by
  constructor
  · have apart (piece : Piece Reference) (rest : List (Piece Reference))
        (behind : piece :: rest <:+ written "$base/${suffix}") :
        piece.Apart neighbours (rest.flatMap (Piece.unbraced neighbours)) :=
      apart_of_clear neighbours (isRead_of_mem_written (behind.subset List.mem_cons_self))
        (clear_parted piece rest behind)
    have parted := (resolveTo_one_by_one_iff not_mem_neighbours (Int.le_refl 0) _).mpr apart _
      List.suffix_rfl
    rw [flatMap_text_written] at parted
    rw [parted, written_parted]
    with_unfolding_all decide
  · intro fused
    have apart := (resolveTo_one_by_one_iff not_mem_neighbours (Int.le_refl 0) _).mp fused
      (.reference (.named ["base"])) [.reference (.braced "suffix")] ⟨[], written_fused.symm⟩
    revert apart
    change ¬ Piece.readOn neighbours _ _ = _
    with_unfolding_all decide

/-- Neighbouring references are not resolved one by one. -/
theorem not_forall_one_by_one :
    ¬ ∀ (table : Table) (depth : Int) (value : Text),
      (∀ name value, table.get? name = some value → '$' ∉ value) → 0 ≤ depth →
        resolveTo depth table value = (written value).flatMap (Piece.alone table) := by
  intro resolved
  have alone := resolved neighbours 0 "$base${suffix}" not_mem_neighbours (Int.le_refl 0)
  have fused : resolveTo 0 neighbours "$base${suffix}" = "$baseRelease" := by
    with_unfolding_all decide
  rw [fused, written_fused] at alone
  revert alone
  with_unfolding_all decide

end GradlePublishing.Property
