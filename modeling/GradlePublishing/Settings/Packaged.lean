import GradlePublishing.Settings.Document

/-!
The settings file that comes with the program. It names every option with its usual value, and a
copy of it is what users start from.
-/

namespace GradlePublishing.Settings

/-- The lines of the packaged file, as users receive them. -/
def packagedLines : List String :=
  [
    "# Copyright (c) 2025 - 2025, Oracle and/or its affiliates. All rights reserved.",
    "# Licensed under the Universal Permissive License v 1.0 as shown at https://oss.oracle.com/licenses/upl/.",
    "",
    "[gradle]",
    "# The base names of the build and settings scripts. Each base name is looked up",
    "# with the Groovy DSL extension first and then with the Kotlin DSL extension.",
    "build_script = build",
    "settings_script = settings",
    "groovy_extension = .gradle",
    "kotlin_extension = .gradle.kts",
    "properties_file = gradle.properties",
    "# The init scripts and the init script directory in the Gradle user home.",
    "init_scripts =",
    "    init.gradle.kts",
    "    init.gradle",
    "init_dir = init.d",
    "user_home_dir = .gradle",
    "# A version is a snapshot version if it ends with this suffix (case-insensitive).",
    "snapshot_suffix = SNAPSHOT",
    "# The maximum nesting of property references resolved in a single value.",
    "max_property_depth = 10",
    "",
    "[gradle.environment]",
    "user_home_variable = GRADLE_USER_HOME",
    "project_property_prefix = ORG_GRADLE_PROJECT_",
    "# Environment variables holding JVM options that may define -P/-D properties.",
    "jvm_options_variables =",
    "    GRADLE_OPTS",
    "    JAVA_OPTS",
    "",
    "[gradle.repository]",
    "# The path segment preceding the repository key in a repository URL.",
    "url_marker = artifactory",
    "# Pairs of <parent block>:<repository block> searched for repository URLs, in order.",
    "# The nested repositories block sits between the two.",
    "repository_blocks =",
    "    publishing:maven",
    "    uploadArchives:mavenDeployer",
    "    dependencyResolutionManagement:maven",
    "# A Gradle property is considered a repository reference only if its name contains one of these words.",
    "property_name_keywords =",
    "    repo",
    "    artifactory",
    "    url",
    "    deploy",
    "snapshot_keyword = snapshot",
    "release_keyword = release",
    "deploy_keyword = deploy",
    "",
    "[gradle.publish]",
    "# Task names that deploy artifacts. Tasks starting with the prefix are accepted",
    "# unless they end with the local suffix.",
    "publish_task = publish",
    "publish_task_prefix = publishTo",
    "local_task_suffix = Local"]

def packagedText : Text := packagedLines.flatMap fun line => line.toList ++ ['\n']

def readPackaged (settings : Settings) : Settings := (settings.read packagedText).1

def packaged : Settings := readPackaged empty

end GradlePublishing.Settings
