import GradlePublishing.Proofs.Script.ApplyLine
import GradlePublishing.Proofs.Script.Place
import GradlePublishing.Proofs.Settings.Usual

/-!
Scripts laid out from the scripts they apply, one on each line. Such a script applies the local ones among them, in
the order of its lines, each at its place below the directory of the applying script (`appliedPaths_layout`).
-/

namespace GradlePublishing.Script

/-- A script of lines that apply scripts, with or without a line break at its end. -/
structure ApplyLayout (dialect : Dialect) where
  lines : List (ApplyLine dialect)
  ended : Bool

namespace ApplyLayout

variable {dialect : Dialect} (layout : ApplyLayout dialect)

def whole : Text := layout.lines.flatMap ApplyLine.text

def text : Text := if layout.ended then layout.whole else layout.whole.dropLast

theorem endsLine_flatMap (lines : List (ApplyLine dialect)) : EndsLine (lines.flatMap ApplyLine.text) := by
  induction lines with
  | nil => exact .inl rfl
  | cons line lines ih =>
    rw [List.flatMap_cons]
    exact line.endsLine_text.append ih

theorem writtenPaths_flatMap (lines : List (ApplyLine dialect)) :
    writtenPaths dialect (lines.flatMap ApplyLine.text) = lines.map fun line => Text.strip line.path := by
  induction lines with
  | nil => rfl
  | cons line lines ih =>
    rw [List.flatMap_cons, writtenPaths_append dialect line.endsLine_text, line.writtenPaths_text, ih,
      List.map_cons, List.singleton_append]

theorem writtenPaths_text : writtenPaths dialect layout.text = layout.lines.map fun line => Text.strip line.path := by
  have written := writtenPaths_flatMap layout.lines
  unfold text whole
  split
  · exact written
  · have ends := endsLine_flatMap layout.lines
    rcases ends.eq_append with empty | ⟨before, broken⟩
    · rw [empty] at written ⊢
      exact written
    · rw [broken] at ends written ⊢
      rwa [List.dropLast_concat, ← writtenPaths_concat_break dialect ends]

end ApplyLayout

/-- What the paths lead to, before it is asked whether that is a local script. -/
def ApplyLayout.resolved {dialect : Dialect} (layout : ApplyLayout dialect) (table : Table) : List Text :=
  layout.lines.map fun line => Property.resolveTo 10 table (Text.strip line.path)

/-- A resolved path leads to a local script if it is no URL and nothing in it is left unresolved. -/
def IsLocal (applied : Text) : Prop :=
  ¬ "://".toList <:+: applied ∧ Property.hasReference applied = false

instance (applied : Text) : Decidable (IsLocal applied) := inferInstanceAs (Decidable (¬ _ ∧ _))

/-- Where a script is that the one at `path` applies. A relative path starts at the directory of that one, if there
is a directory in its path. -/
def placeBelow (path applied : Text) : Text :=
  Path.normalize (if Path.isAbsolute applied = false ∧ Path.directory path ≠ [] then
    Path.join (Path.directory path) applied else applied)

theorem isLocal_iff {applied : Text} :
    IsLocal applied ↔ (Text.has "://" applied || Property.hasReference applied) = false := by
  rw [Bool.or_eq_false_iff, ← Bool.not_eq_true, Text.has_eq_true_iff]
  rfl

theorem localPath?_directory (path applied : Text) : localPath? (Path.directory path) applied =
    if IsLocal applied then some (placeBelow path applied) else none := by
  have place : (if Path.isAbsolute applied || (Path.directory path).isEmpty then applied
      else Path.join (Path.directory path) applied) =
        if Path.isAbsolute applied = false ∧ Path.directory path ≠ [] then
          Path.join (Path.directory path) applied else applied := by
    by_cases rooted : Path.isAbsolute applied = true
    · simp [rooted]
    · by_cases empty : Path.directory path = [] <;> simp [rooted, empty]
  rw [localPath?, place]
  by_cases inside : IsLocal applied
  · rw [if_pos inside, isLocal_iff.mp inside]
    rfl
  · rw [if_neg inside, if_pos (Bool.not_eq_false _ ▸ mt isLocal_iff.mpr inside)]

theorem resolve_packaged (table : Table) (written : Text) :
    Property.resolve Settings.packaged table written = .ok (Property.resolveTo 10 table written) := by
  rw [Property.resolve, Settings.maxPropertyDepth_packaged]
  split
  · rfl
  · next plain => rw [Property.resolveTo, if_neg plain]

theorem isAbsolute_of_localPath? {path applied place : Text} (rooted : Path.isAbsolute path = true)
    (found : localPath? (Path.directory path) applied = some place) : Path.isAbsolute place = true := by
  rw [localPath?_eq] at found
  split at found
  · cases found
  · cases found
    rw [Path.isAbsolute_normalize, Path.isAbsolute_join, Path.isAbsolute_directory rooted, Bool.true_or]

theorem ApplyLayout.appliedPaths_text {dialect : Dialect} (layout : ApplyLayout dialect) (table : Table)
    (path : Text) : appliedPaths Settings.packaged dialect layout.text table path =
      .ok (((layout.resolved table).filter fun applied => IsLocal applied).map (placeBelow path)) := by
  have all : (layout.lines.map fun line => Text.strip line.path).mapM
      (Property.resolve Settings.packaged table) = .ok (layout.resolved table) := by
    rw [mapM_congr fun written _ => resolve_packaged table written]
    exact List.mapM_pure.trans (congrArg Except.ok List.map_map)
  have kept : (layout.resolved table).filterMap (localPath? (Path.directory path)) =
      ((layout.resolved table).filter fun applied => IsLocal applied).map (placeBelow path) := by
    rw [← List.filterMap_eq_map, List.filterMap_filter]
    apply List.filterMap_congr
    intro applied _
    rw [localPath?_directory]
    simp
  rw [appliedPaths, layout.writtenPaths_text, all]
  exact congrArg Except.ok kept

/-- A script of apply statements leads to the local scripts among those that it names, in the order of its lines and
each at its place. The places are normalised, and absolute if that of the applying script is. -/
theorem appliedPaths_layout :
    (∀ (dialect : Dialect) (layout : ApplyLayout dialect) (table : Table) (path : Text),
      appliedPaths Settings.packaged dialect layout.text table path =
        .ok (((layout.resolved table).filter fun applied => IsLocal applied).map (placeBelow path))) ∧
    ∀ (settings : Settings) (dialect : Dialect) (content : Text) (table : Table) (path : Text) (places : List Text),
      appliedPaths settings dialect content table path = .ok places → ∀ place ∈ places,
        Path.normalize place = place ∧ (Path.isAbsolute path = true → Path.isAbsolute place = true) := by
  refine ⟨fun dialect layout table path => layout.appliedPaths_text table path, ?_⟩
  intro settings dialect content table path places applied place member
  refine ⟨(isNormal_of_mem_appliedPaths applied member).normalize_eq, fun rooted => ?_⟩
  obtain ⟨resolved, -, found⟩ := bind_eq_ok_iff.mp applied
  cases found
  obtain ⟨text, -, found⟩ := List.mem_filterMap.mp member
  exact isAbsolute_of_localPath? rooted found

theorem isQuote_double : Text.isQuote '"' = true := rfl

/-- A script with a path to resolve, one that looks like a comment and a block, and two that are left out. -/
def folderLayout : ApplyLayout .groovy where
  lines :=
    let none : Gap := ⟨[], isGap_none⟩
    let space : Gap := ⟨[' '], isGap_space⟩
    [⟨none, .statement space (by decide), none, space, '"', " ${dir}/../a.gradle", none,
        isQuote_double, by decide, by decide, by decide⟩,
      ⟨space, .call .groovy none space, space, none, '\'', r#"/* apply from: "{\"#, space,
        by decide, by decide, by decide, by decide⟩,
      ⟨none, .statement space (by decide), none, none, '"', "${missing}.gradle", none,
        isQuote_double, by decide, by decide, by decide⟩,
      ⟨none, .statement space (by decide), none, none, '"', "http://h/b.gradle", none,
        isQuote_double, by decide, by decide, by decide⟩]
  ended := false

theorem appliedPaths_folderLayout :
    folderLayout.text = r#"apply from: " ${dir}/../a.gradle"
 apply( from :'/* apply from: "{\' )
apply from:"${missing}.gradle"
apply from:"http://h/b.gradle""#.toList ∧
    appliedPaths Settings.packaged .groovy folderLayout.text (.ofList [("dir", "sub")]) "/p/build.gradle" =
      .ok ["/p/a.gradle", r#"/* apply from: "{\"#] ∧
    ∀ place ∈ (["/p/a.gradle", r#"/* apply from: "{\"#] : List Text),
      Path.normalize place = place ∧ Path.isAbsolute place = true := by
  have places : ((folderLayout.resolved (.ofList [("dir", "sub")])).filter fun applied => IsLocal applied).map
      (placeBelow "/p/build.gradle") = ["/p/a.gradle", r#"/* apply from: "{\"#] := by
    decide +kernel
  have applied := appliedPaths_layout.1 .groovy folderLayout (.ofList [("dir", "sub")]) "/p/build.gradle"
  rw [places] at applied
  refine ⟨by decide +kernel, applied, fun place member => ?_⟩
  obtain ⟨normal, absolute⟩ := appliedPaths_layout.2 _ _ _ _ _ _ applied place member
  exact ⟨normal, absolute rfl⟩

end GradlePublishing.Script
