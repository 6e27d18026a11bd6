import GradlePublishing.Proofs.Coordinates.Commented
import GradlePublishing.Proofs.Property.Commented
import GradlePublishing.Proofs.Repository.Precedence
import GradlePublishing.Proofs.Script.LineReader

/-!
Comments are transparent. A comment that fills lines of its own may be put in wherever a line starts in the
code: the properties, the URLs, the apply statements and the coordinates of the script stay the same
(`comment_transparent`), whatever the comment holds and however deep in blocks it stands.
-/

namespace GradlePublishing

open Script

variable {front comment : Text}

theorem Script.writtenPaths_insert (dialect : Dialect) (ends : EndsLine front)
    (line : CommentLine comment) (behind : Text) :
    writtenPaths dialect (front ++ comment ++ behind) = writtenPaths dialect (front ++ behind) := by
  have values (content : Text) : writtenPaths dialect content =
      (((occurrences (appliedPath? dialect) content).filter fun found =>
        isKeywordOccurrence content found.offset (found.offset + "apply".length)).map
          Found.value).map Text.strip := by
    rw [List.map_map]
    rfl
  rw [values, values]
  exact congrArg _ ((readsByLine_appliedPath? dialect).map_value_insert ends line behind)

theorem Script.appliedPaths_insert (settings : Settings) (dialect : Dialect) (ends : EndsLine front)
    (line : CommentLine comment) (behind : Text) (table : Table) (path : Text) :
    appliedPaths settings dialect (front ++ comment ++ behind) table path =
      appliedPaths settings dialect (front ++ behind) table path := by
  rw [appliedPaths, appliedPaths, writtenPaths_insert dialect ends line]

namespace Repository

theorem urlsInBlock_commented (dialect : Dialect) (line : CommentLine comment) {plain commented : Text}
    (related : Commented comment plain commented) :
    urlsInBlock dialect plain = urlsInBlock dialect commented := by
  have values (body : Text) : urlsInBlock dialect body =
      ((((occurrences (assignedUrl? dialect) body).filter fun found =>
        (Script.classify body)[found.offset]? == some .code).map Found.value).map Text.strip).filter
          (!·.isEmpty) := by
    rw [List.map_map]
    rfl
  cases related with
  | same => rfl
  | inserted ends behind =>
    rw [values, values]
    exact congrArg (fun found => (found.map Text.strip).filter (!·.isEmpty))
      ((readsByLine_assignedUrl? dialect).map_value_insert ends line behind).symm

/-- A keyword that a search for blocks can find: it is there, and on one line. -/
def IsKeyword (keyword : Text) : Prop := keyword ≠ [] ∧ '\n' ∉ keyword

theorem urlsOfFamily_insert (dialect : Dialect) (ends : EndsLine front) (line : CommentLine comment)
    (behind : Text) {family : Family} (parent : IsKeyword family.parent)
    (repository : IsKeyword family.repository) :
    urlsOfFamily dialect (front ++ behind) family =
      urlsOfFamily dialect (front ++ comment ++ behind) family := by
  have repositories : IsKeyword "repositories" := by
    unfold IsKeyword
    decide
  refine flatMap_eq_of_forall₂ (commented_bodies parent.1 parent.2 line (.inserted ends behind))
    fun _ _ related => ?_
  refine flatMap_eq_of_forall₂ (commented_bodies repositories.1 repositories.2 line related)
    fun _ _ related => ?_
  exact flatMap_eq_of_forall₂ (commented_bodies repository.1 repository.2 line related)
    fun _ _ related => urlsInBlock_commented dialect line related

theorem urlsOfFamily_nil (dialect : Dialect) (family : Family) :
    urlsOfFamily dialect [] family = [] := by
  rw [urlsOfFamily, bodies, blocks, mark_nil, blocksFrom]
  rfl

theorem declaredUrls_packaged (dialect : Dialect) (content : Text) :
    declaredUrls Settings.packaged dialect content =
      (families Settings.packaged).map (·.flatMap (urlsOfFamily dialect content)) := by
  rw [declaredUrls, families_packaged]
  cases content with
  | nil =>
    have nothing : packagedFamilies.flatMap (urlsOfFamily dialect []) = [] :=
      List.flatMap_eq_nil_iff.mpr fun family _ => urlsOfFamily_nil dialect family
    rw [Except.map, nothing]
    rfl
  | cons c content => rfl

theorem isKeyword_packaged : ∃ found, families Settings.packaged = .ok found ∧
    ∀ family ∈ found, IsKeyword family.parent ∧ IsKeyword family.repository := by
  refine ⟨_, families_packaged, ?_⟩
  unfold IsKeyword
  decide

theorem declaredUrls_insert (dialect : Dialect) (ends : EndsLine front) (line : CommentLine comment)
    (behind : Text) : declaredUrls Settings.packaged dialect (front ++ comment ++ behind) =
      declaredUrls Settings.packaged dialect (front ++ behind) := by
  obtain ⟨found, usual, keywords⟩ := isKeyword_packaged
  rw [declaredUrls_packaged, declaredUrls_packaged, usual]
  refine congrArg Except.ok (List.flatMap_congr fun family member => ?_)
  obtain ⟨parent, repository⟩ := keywords family member
  exact (urlsOfFamily_insert dialect ends line behind parent repository).symm

end Repository

/-- A comment line changes nothing that is read from a script, wherever a line starts in the code. -/
theorem comment_transparent {behind : Text} (starts : StartsLine front behind)
    (line : CommentLine comment) (dialect : Dialect) (table : Table) (path : Text) :
    Property.extra (front ++ comment ++ behind) = Property.extra (front ++ behind) ∧
      Repository.declaredUrls Settings.packaged dialect (front ++ comment ++ behind) =
        Repository.declaredUrls Settings.packaged dialect (front ++ behind) ∧
      appliedPaths Settings.packaged dialect (front ++ comment ++ behind) table path =
        appliedPaths Settings.packaged dialect (front ++ behind) table path ∧
      Coordinates.ofScript (front ++ comment ++ behind) = Coordinates.ofScript (front ++ behind) := by
  have ends := starts.endsLine
  refine ⟨?_, Repository.declaredUrls_insert dialect ends line behind,
    appliedPaths_insert Settings.packaged dialect ends line behind table path,
    Coordinates.ofScript_insert ends line behind⟩
  rw [Property.extra, Property.extra, Property.declarations_insert ends line]

/-- A comment between a keyword and its brace, with a brace and a quote that are never closed. -/
theorem comment_transparent_between :
    let front : Text := "group = \"g\"\next\n"
    let comment : Text := r"/* { ' */
"
    let behind : Text := r#"{ a = "1" }
"#
    StartsLine front behind ∧ CommentLine comment ∧
      Property.extra (front ++ comment ++ behind) = .ofList [("a", "1")] ∧
      Repository.declaredUrls Settings.packaged .groovy (front ++ comment ++ behind) =
        Repository.declaredUrls Settings.packaged .groovy (front ++ behind) ∧
      appliedPaths Settings.packaged .groovy (front ++ comment ++ behind) ∅ "/build.gradle" =
        appliedPaths Settings.packaged .groovy (front ++ behind) ∅ "/build.gradle" ∧
      Coordinates.ofScript (front ++ comment ++ behind) = ⟨some "g", none, none⟩ := by
  intro front comment behind
  have starts : StartsLine front behind :=
    .inr ⟨"group = \"g\"\next", by decide, by decide +kernel⟩
  have text : comment = '/' :: '*' :: r" { ' ".toList ++ ['*', '/', '\n'] := by decide
  have line : CommentLine comment := text ▸ .block (by decide)
  obtain ⟨extra, urls, applied, assigned⟩ :=
    comment_transparent starts line .groovy ∅ "/build.gradle"
  refine ⟨starts, line, extra.trans ?_, urls, applied, assigned.trans ?_⟩
  · decide +kernel
  · decide +kernel

end GradlePublishing
