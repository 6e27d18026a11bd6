import GradlePublishing.Settings.Basic
import GradlePublishing.Text.Number

/-!
The options that decide how a Gradle project is read, each with the value it has when nothing else
is set.
-/

namespace GradlePublishing.Settings

structure Setting where
  heading : Text
  option : Text
  fallback : Text
  deriving DecidableEq, Repr

structure ListSetting where
  heading : Text
  option : Text
  fallback : List Text
  distinct : Bool := true
  deriving DecidableEq, Repr

def text (settings : Settings) (setting : Setting) : Except Failure Text := do
  return (← settings.value? setting.heading setting.option).getD setting.fallback

def list (settings : Settings) (setting : ListSetting) : Except Failure (List Text) :=
  settings.listOr setting.heading setting.option { distinct := setting.distinct } setting.fallback

namespace Setting

def buildScript : Setting := ⟨"gradle", "build_script", "build"⟩
def settingsScript : Setting := ⟨"gradle", "settings_script", "settings"⟩
def groovyExtension : Setting := ⟨"gradle", "groovy_extension", ".gradle"⟩
def kotlinExtension : Setting := ⟨"gradle", "kotlin_extension", ".gradle.kts"⟩
def propertiesFile : Setting := ⟨"gradle", "properties_file", "gradle.properties"⟩
def initDirectory : Setting := ⟨"gradle", "init_dir", "init.d"⟩
def userHomeDirectory : Setting := ⟨"gradle", "user_home_dir", ".gradle"⟩
def snapshotSuffix : Setting := ⟨"gradle", "snapshot_suffix", "SNAPSHOT"⟩
def maxPropertyDepth : Setting := ⟨"gradle", "max_property_depth", "10"⟩
def userHomeVariable : Setting := ⟨"gradle.environment", "user_home_variable", "GRADLE_USER_HOME"⟩
def projectPropertyPrefix : Setting :=
  ⟨"gradle.environment", "project_property_prefix", "ORG_GRADLE_PROJECT_"⟩
def urlMarker : Setting := ⟨"gradle.repository", "url_marker", "artifactory"⟩
def snapshotKeyword : Setting := ⟨"gradle.repository", "snapshot_keyword", "snapshot"⟩
def releaseKeyword : Setting := ⟨"gradle.repository", "release_keyword", "release"⟩
def deployKeyword : Setting := ⟨"gradle.repository", "deploy_keyword", "deploy"⟩
def publishTask : Setting := ⟨"gradle.publish", "publish_task", "publish"⟩
def publishTaskStart : Setting := ⟨"gradle.publish", "publish_task_prefix", "publishTo"⟩
def localTaskEnd : Setting := ⟨"gradle.publish", "local_task_suffix", "Local"⟩

end Setting

namespace ListSetting

def initScripts : ListSetting :=
  { heading := "gradle", option := "init_scripts", fallback := ["init.gradle.kts", "init.gradle"] }

def jvmOptionsVariables : ListSetting :=
  { heading := "gradle.environment", option := "jvm_options_variables",
    fallback := ["GRADLE_OPTS", "JAVA_OPTS"] }

def repositoryBlocks : ListSetting :=
  { heading := "gradle.repository", option := "repository_blocks",
    fallback := ["publishing:maven", "uploadArchives:mavenDeployer",
      "dependencyResolutionManagement:maven"],
    distinct := false }

def propertyNameKeywords : ListSetting :=
  { heading := "gradle.repository", option := "property_name_keywords",
    fallback := ["repo", "artifactory", "url", "deploy"] }

end ListSetting

def maxPropertyDepth (settings : Settings) : Except Failure Int := do
  match Text.integer? (← settings.text .maxPropertyDepth) with
  | some depth => return depth
  | none => throw .depthNotInteger

end GradlePublishing.Settings
