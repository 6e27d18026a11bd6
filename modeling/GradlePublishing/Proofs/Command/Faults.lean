import GradlePublishing.Command.Invocation
import GradlePublishing.Proofs.Settings.Fault

/-!
What a Gradle command can fail by: an option of the settings that cannot be composed, and nothing else.
-/

namespace GradlePublishing.Command

variable {settings : Settings} {allowed : Failure → Prop}
  (composed : ∀ failure, settings.Uncomposed failure → allowed failure)

include composed

theorem failsOnly_buildFile (arguments : List Text) :
    FailsOnly allowed (buildFile settings arguments) := by
  induction arguments with
  | nil => exact failsOnly_ok _
  | cons argument rest ih =>
    unfold buildFile
    split
    · exact failsOnly_ok _
    · split
      · exact failsOnly_ok _
      · apply failsOnly_bind (Settings.failsOnly_text composed .buildScript (by decide))
        intro script _
        apply failsOnly_bind (Settings.failsOnly_text composed .groovyExtension (by decide))
        intro extension _
        exact failsOnly_ok _
    · exact ih

theorem failsOnly_ofArguments (arguments : List Text) :
    FailsOnly allowed (Invocation.ofArguments settings arguments) := by
  apply failsOnly_bind (failsOnly_buildFile composed arguments)
  intro file _
  exact failsOnly_ok _

theorem failsOnly_isPublishing (tasks : List Text) :
    FailsOnly allowed (isPublishing settings tasks) := by
  apply failsOnly_bind (Settings.failsOnly_text composed .publishTask (by decide))
  intro task _
  apply failsOnly_bind (Settings.failsOnly_text composed .publishTaskStart (by decide))
  intro start _
  apply failsOnly_bind (Settings.failsOnly_text composed .localTaskEnd (by decide))
  intro localEnd _
  exact failsOnly_ok _

theorem failsOnly_isUnrelated (invocation : Invocation) :
    FailsOnly allowed (invocation.isUnrelated settings) := by
  unfold Invocation.isUnrelated
  split
  · exact failsOnly_ok _
  · exact failsOnly_map _ (failsOnly_isPublishing composed _)

end GradlePublishing.Command
