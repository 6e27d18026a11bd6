import GradlePublishing.Proofs.Repository.UrlLine
import GradlePublishing.Proofs.Transparency

/-!
Scripts laid out from the repositories they declare: a row of parent blocks of the packaged families, a
`repositories` block in each, repository blocks in that, and lines that assign URLs. Reading such a script
gives back the URLs, by family and in the order of the script (`declaredUrls_layout`), so that both
dialects say the same.
-/

namespace GradlePublishing.Repository

open Script

theorem isBlockName_of_packaged {family : Family} (packaged : family ∈ packagedFamilies) :
    IsBlockName family.parent ∧ IsBlockName family.repository := by
  have all : ∀ family ∈ packagedFamilies,
      IsBlockName family.parent ∧ IsBlockName family.repository := by decide
  exact all family packaged

theorem isBlockName_repositories : IsBlockName "repositories" := by decide

/-- A repository block with its URLs, each on a line of its own. -/
structure RepositoryBlock (dialect : Dialect) where
  frame : Frame
  lines : List (UrlLine dialect)

/-- A parent block with its `repositories` block and the repository blocks in that. -/
structure ParentBlock (dialect : Dialect) where
  family : Family
  packaged : family ∈ packagedFamilies
  frame : Frame
  repositories : Frame
  blocks : List (RepositoryBlock dialect)

/-- A script of parent blocks, with or without a line break at its end. -/
structure Layout (dialect : Dialect) where
  parents : List (ParentBlock dialect)
  ended : Bool

/-- The URLs of a script by parent block and repository block. -/
abbrev Outline := List (Family × List (List Text))

/-- The URLs by family in search order, and within a family in the order of the script. -/
def listedUrls (outline : Outline) : List Text :=
  packagedFamilies.flatMap fun family =>
    (outline.filter (·.1 = family)).flatMap fun parent => parent.2.flatten

section

variable {dialect : Dialect}

def RepositoryBlock.urls (block : RepositoryBlock dialect) : List Text :=
  block.lines.map fun line => line.literal.url

def RepositoryBlock.enclosed {keyword : Text} (name : IsBlockName keyword)
    (block : RepositoryBlock dialect) : Enclosed :=
  { block.frame with
    keyword := keyword
    name := name
    inner := block.lines.flatMap UrlLine.text
    whole := isWhole_flatMap fun line _ => line.isWhole_text }

namespace ParentBlock

variable (parent : ParentBlock dialect)

def row : List Enclosed :=
  parent.blocks.map (RepositoryBlock.enclosed (isBlockName_of_packaged parent.packaged).2)

def inside : Enclosed :=
  { parent.repositories with
    keyword := "repositories"
    name := isBlockName_repositories
    inner := parent.row.flatMap Enclosed.text
    whole := isWhole_flatMap fun block _ => block.isWhole_text }

def enclosed : Enclosed :=
  { parent.frame with
    keyword := parent.family.parent
    name := (isBlockName_of_packaged parent.packaged).1
    inner := parent.inside.text
    whole := parent.inside.isWhole_text }

def outline : Family × List (List Text) :=
  (parent.family, parent.blocks.map RepositoryBlock.urls)

end ParentBlock

namespace Layout

variable (layout : Layout dialect)

def lines : Text := (layout.parents.map ParentBlock.enclosed).flatMap Enclosed.text

def text : Text := if layout.ended then layout.lines else layout.lines.dropLast

def outline : Outline := layout.parents.map ParentBlock.outline

end Layout

/-! Inside a parent block. -/

theorem RepositoryBlock.urlsInBlock_body {keyword : Text} (name : IsBlockName keyword)
    (block : RepositoryBlock dialect) :
    urlsInBlock dialect (block.enclosed name).body = block.urls := by
  have lineBreak : EndsLine ['\n'] := .inr ⟨[], by rw [mark_break, mark_nil]; rfl⟩
  have lines : EndsLine (block.lines.flatMap UrlLine.text) := (block.enclosed name).whole.ends
  have closing : 'u' ∉ block.frame.closing.val := fun member =>
    absurd (block.frame.closing.property _ member) (by decide)
  calc
    _ = urlsInBlock dialect
        (['\n'] ++ (block.lines.flatMap UrlLine.text ++ block.frame.closing.val)) := rfl
    _ = [] ++ (block.urls ++ []) := by
      rw [urlsInBlock_append dialect lineBreak, urlsInBlock_append dialect lines,
        urlsInBlock_eq_nil dialect (by decide), UrlLine.urlsInBlock_flatMap,
        urlsInBlock_eq_nil dialect closing]
      rfl
    _ = block.urls := List.append_nil _

theorem ParentBlock.urls_body (parent : ParentBlock dialect) :
    ((bodies "repositories" parent.enclosed.body).flatMap fun repositories =>
      (bodies parent.family.repository repositories).flatMap (urlsInBlock dialect)) =
        parent.outline.2.flatten := by
  have name := (isBlockName_of_packaged parent.packaged).2
  have single : bodies "repositories" parent.enclosed.body = [parent.inside].map Enclosed.body := by
    apply Enclosed.bodies_body isBlockName_repositories
    · exact (List.flatMap_singleton _ _).symm
    · exact fun block member => congrArg Enclosed.keyword (List.mem_singleton.mp member)
  have row : bodies parent.family.repository parent.inside.body = parent.row.map Enclosed.body := by
    apply Enclosed.bodies_body name rfl
    intro block member
    obtain ⟨repository, -, rfl⟩ := List.mem_map.mp member
    rfl
  rw [single, List.map_singleton, List.flatMap_singleton, row, List.flatMap_map, ParentBlock.row,
    List.flatMap_map, outline, List.flatten_eq_flatMap, List.flatMap_map]
  congr 1
  funext block
  exact block.urlsInBlock_body name

/-! From one parent block to the next. -/

/-- The characters of code in a parent block, apart from the names of its family. -/
def blockLetters : Text := "repositories{}\n".toList ++ UrlLine.letters

def Family.letters (family : Family) : Text := family.parent ++ (family.repository ++ blockLetters)

theorem ParentBlock.codeOf_text (parent : ParentBlock dialect) :
    codeOf (mark parent.enclosed.text) ⊆ parent.family.letters := by
  have outer : parent.family.parent ⊆ parent.family.letters := List.subset_append_left _ _
  have inner : parent.family.repository ⊆ parent.family.letters :=
    List.subset_append_of_subset_right _ (List.subset_append_left _ _)
  have fixed : blockLetters ⊆ parent.family.letters :=
    List.subset_append_of_subset_right _ (List.subset_append_right _ _)
  have layout : ['{', '}', '\n', ' ', '\t'] ⊆ parent.family.letters :=
    List.Subset.trans (by decide) fixed
  have repositories : "repositories".toList ⊆ parent.family.letters :=
    List.Subset.trans (by decide) fixed
  have line : '\n' :: UrlLine.letters ⊆ parent.family.letters := List.Subset.trans (by decide) fixed
  refine Enclosed.codeOf_text_subset _ layout outer ?_
  refine Enclosed.codeOf_text_subset _ layout repositories ?_
  refine codeOf_flatMap_subset (fun block _ => block.isWhole_text) fun block member => ?_
  obtain ⟨repository, -, rfl⟩ := List.mem_map.mp member
  refine Enclosed.codeOf_text_subset _ layout inner ?_
  exact codeOf_flatMap_subset (fun line _ => line.isWhole_text)
    fun written _ => List.Subset.trans written.codeOf_text line

theorem letter_of_packaged {family other : Family} (packaged : family ∈ packagedFamilies)
    (known : other ∈ packagedFamilies) (differ : other.parent ≠ family.parent) :
    ∃ letter ∈ family.parent, letter ∉ other.letters := by
  have all : ∀ family ∈ packagedFamilies, ∀ other ∈ packagedFamilies, other.parent ≠ family.parent →
      family.parent.any (fun letter => !other.letters.elem letter) = true := by
    decide
  simpa using List.any_eq_true.mp (all family packaged other known differ)

theorem parent_eq_iff {family other : Family} (packaged : family ∈ packagedFamilies)
    (known : other ∈ packagedFamilies) : other.parent = family.parent ↔ other = family := by
  have all : ∀ family ∈ packagedFamilies, ∀ other ∈ packagedFamilies,
      other.parent = family.parent ↔ other = family := by
    decide
  exact all family packaged other known

namespace Layout

variable (layout : Layout dialect)

theorem isWhole_lines : IsWhole layout.lines := isWhole_flatMap fun block _ => block.isWhole_text

theorem bodies_text {keyword : Text} (inLine : '\n' ∉ keyword) :
    bodies keyword layout.text = bodies keyword layout.lines := by
  unfold text
  split
  · rfl
  · have ends := layout.isWhole_lines.ends
    rcases ends.eq_append with empty | ⟨before, whole⟩
    · rw [empty]
      rfl
    · rw [whole] at ends ⊢
      rw [List.dropLast_concat, bodies_concat_break inLine ends]

theorem bodies_lines {family : Family} (packaged : family ∈ packagedFamilies) :
    bodies family.parent layout.lines =
      (layout.parents.filter (·.family = family)).map fun parent => parent.enclosed.body := by
  have name := (isBlockName_of_packaged packaged).1
  obtain ⟨letter, member⟩ := List.exists_mem_of_ne_nil _ name.searched
  have empty : bodiesIn family.parent [] = [] := bodiesIn_eq_nil member List.not_mem_nil
  have others : ∀ block ∈ layout.parents.map ParentBlock.enclosed, block.keyword ≠ family.parent →
      ∃ letter ∈ family.parent, letter ∉ codeOf (mark block.text) := by
    intro block member differ
    obtain ⟨parent, -, rfl⟩ := List.mem_map.mp member
    obtain ⟨letter, inside, absent⟩ := letter_of_packaged packaged parent.packaged differ
    exact ⟨letter, inside, fun found => absent (parent.codeOf_text found)⟩
  have kept (parent : ParentBlock dialect) :
      decide (parent.enclosed.keyword = family.parent) = decide (parent.family = family) :=
    decide_eq_decide.mpr (parent_eq_iff packaged parent.packaged)
  have row := bodiesIn_flatMap name others []
  rw [List.append_nil, empty, List.append_nil, List.filter_map, List.map_map] at row
  rw [bodies_eq_bodiesIn, lines, row]
  congr 1
  exact List.filter_congr fun parent _ => kept parent

theorem urlsOfFamily_text {family : Family} (packaged : family ∈ packagedFamilies) :
    urlsOfFamily dialect layout.text family =
      (layout.outline.filter (·.1 = family)).flatMap fun parent => parent.2.flatten := by
  have inLine : '\n' ∉ family.parent := (isBlockName_of_packaged packaged).1.not_mem rfl
  rw [urlsOfFamily, layout.bodies_text inLine, layout.bodies_lines packaged, List.flatMap_map, outline,
    List.filter_map, List.flatMap_map]
  apply List.flatMap_congr
  intro parent member
  have same : parent.family = family := by simpa using (List.mem_filter.mp member).2
  rw [← same]
  exact parent.urls_body

theorem declaredUrls_text :
    declaredUrls Settings.packaged dialect layout.text = .ok (listedUrls layout.outline) := by
  rw [declaredUrls_packaged, families_packaged]
  exact congrArg Except.ok (List.flatMap_congr fun family packaged => layout.urlsOfFamily_text packaged)

end Layout

end

/-- Reading a script that is laid out from its repositories gives back their URLs, and scripts of both
dialects that are laid out from the same repositories give the same URLs. -/
theorem declaredUrls_layout :
    (∀ (dialect : Dialect) (layout : Layout dialect),
      declaredUrls Settings.packaged dialect layout.text = .ok (listedUrls layout.outline)) ∧
    ∀ (groovy : Layout .groovy) (kotlin : Layout .kotlin), groovy.outline = kotlin.outline →
      declaredUrls Settings.packaged .groovy groovy.text =
        declaredUrls Settings.packaged .kotlin kotlin.text := by
  refine ⟨fun dialect layout => layout.declaredUrls_text, fun groovy kotlin same => ?_⟩
  rw [groovy.declaredUrls_text, kotlin.declaredUrls_text, same]

/-! A URL with a brace, a comment mark, another assignment and a backslash at its end. -/

def trickyUrl : QuotedUrl where
  quote := '"'
  url := r#"http://h/{ /* url 'x' \"#
  quotes := by decide
  nonempty := by decide
  stripped := by decide
  single := by decide
  unquoted := by decide

def noGap : Gap := ⟨[], List.all_eq_true.mp rfl⟩

def space : Gap := ⟨[' '], List.all_eq_true.mp rfl⟩

def tab : Gap := ⟨['\t'], List.all_eq_true.mp rfl⟩

def groovyLayout : Layout .groovy where
  parents := [{
    family := ⟨"publishing", "maven"⟩
    packaged := by decide
    frame := ⟨noGap, space, noGap⟩
    repositories := ⟨space, space, space⟩
    blocks := [⟨⟨tab, noGap, tab⟩, [⟨tab, .colon, noGap, space, none, trickyUrl, noGap⟩]⟩] }]
  ended := true

def kotlinLayout : Layout .kotlin where
  parents := [{
    family := ⟨"publishing", "maven"⟩
    packaged := by decide
    frame := ⟨noGap, noGap, noGap⟩
    repositories := ⟨tab, space, noGap⟩
    blocks := [⟨⟨noGap, space, space⟩,
      [⟨space, .set, space, noGap, some ⟨noGap, space, noGap⟩, trickyUrl, space⟩]⟩] }]
  ended := false

theorem declaredUrls_layout_tricky :
    groovyLayout.text = r#"publishing {
 repositories {
	maven{
	url: "http://h/{ /* url 'x' \"
	}
 }
}
"#.toList ∧
    kotlinLayout.text = r#"publishing{
	repositories {
maven {
 url.set (uri( "http://h/{ /* url 'x' \") )
 }
}
}"#.toList ∧
    groovyLayout.outline = kotlinLayout.outline ∧
    declaredUrls Settings.packaged .groovy groovyLayout.text = .ok [trickyUrl.url] ∧
    declaredUrls Settings.packaged .groovy groovyLayout.text =
      declaredUrls Settings.packaged .kotlin kotlinLayout.text := by
  have same : groovyLayout.outline = kotlinLayout.outline := by rfl
  refine ⟨by decide +kernel, by decide +kernel, same, ?_, declaredUrls_layout.2 _ _ same⟩
  exact declaredUrls_layout.1 .groovy groovyLayout

end GradlePublishing.Repository
