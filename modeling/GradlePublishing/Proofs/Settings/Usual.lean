import GradlePublishing.Proofs.Failure
import GradlePublishing.Repository.Declared
import GradlePublishing.Script.File
import GradlePublishing.Settings.Known
import GradlePublishing.Settings.Packaged

/-!
The usual value of an option is the one that it has when nothing is set. The packaged file writes the
same values out.
-/

namespace GradlePublishing

namespace Settings

def knownTexts : List Setting :=
  [.buildScript, .settingsScript, .groovyExtension, .kotlinExtension, .propertiesFile,
    .initDirectory, .userHomeDirectory, .snapshotSuffix, .maxPropertyDepth, .userHomeVariable,
    .projectPropertyPrefix, .urlMarker, .snapshotKeyword, .releaseKeyword, .deployKeyword,
    .publishTask, .publishTaskStart, .localTaskEnd]

def knownLists : List ListSetting :=
  [.initScripts, .jvmOptionsVariables, .repositoryBlocks, .propertyNameKeywords]

/-- The packaged file gives every option its usual value. -/
theorem packaged_usual :
    (∀ setting ∈ knownTexts, packaged.text setting = .ok setting.fallback) ∧
      ∀ setting ∈ knownLists, packaged.list setting = .ok setting.fallback := by
  have reading : readPackaged = fun settings => (settings.read packagedText).1 := rfl
  rw [packaged, reading, packagedText, packagedLines]
  -- The lines become lists of characters here, since to take a string apart by evaluation is slow.
  repeat rw [List.flatMap_cons]
  rw [List.flatMap_nil]
  repeat rw [String.toList_ofList]
  decide +kernel

theorem text_packaged (setting : Setting) (known : setting ∈ knownTexts) :
    packaged.text setting = .ok setting.fallback :=
  packaged_usual.1 setting known

theorem list_packaged (setting : ListSetting) (known : setting ∈ knownLists) :
    packaged.list setting = .ok setting.fallback :=
  packaged_usual.2 setting known

theorem maxPropertyDepth_packaged : packaged.maxPropertyDepth = .ok 10 := by
  have depth := text_packaged .maxPropertyDepth (by decide)
  rw [maxPropertyDepth, depth]
  decide

end Settings

namespace Repository

def packagedFamilies : List Family :=
  [⟨"publishing", "maven"⟩, ⟨"uploadArchives", "mavenDeployer"⟩,
    ⟨"dependencyResolutionManagement", "maven"⟩]

theorem families_packaged : families Settings.packaged = .ok packagedFamilies := by
  have blocks := Settings.list_packaged .repositoryBlocks (by decide)
  rw [families, blocks]
  rfl

end Repository

/-- The script with a base name is looked for with either usual extension. -/
theorem Script.find?_packaged (tree : FileTree) (directory baseName : Text) :
    find? Settings.packaged tree directory baseName =
      .ok ([Path.join directory (baseName ++ ".gradle"),
        Path.join directory (baseName ++ ".gradle.kts")].find? tree.isFile) := by
  have groovy := Settings.text_packaged .groovyExtension (by decide)
  have kotlin := Settings.text_packaged .kotlinExtension (by decide)
  rw [find?, extensions, groovy, kotlin]
  rfl

end GradlePublishing
