import GradlePublishing.Proofs.Settings.Usual

/-!
The faults that the settings may have. They show when an option is asked for, since its value is
composed only then; a number and the families of blocks may be malformed besides.
The packaged settings have no fault.
-/

namespace GradlePublishing.Settings

def IsComposition (failure : Failure) : Prop :=
  ∃ fault heading option, failure = .composition fault heading option

theorem isComposition (fault : CompositionFault) (heading option : Text) :
    IsComposition (.composition fault heading option) :=
  ⟨fault, heading, option, rfl⟩

theorem failsOnly_compose (settings : Settings) (heading option : Text) (levels : Nat)
    (written : Written) : FailsOnly IsComposition (settings.compose heading option levels written) := by
  induction levels generalizing written with
  | zero => exact failsOnly_error (isComposition _ heading option)
  | succ levels ih =>
    cases written with
    | unfinished lines => exact failsOnly_error (isComposition _ heading option)
    | finished value =>
      rw [compose]
      refine failsOnly_bind (failsOnly_mapM fun piece _ => ?_) fun parts _ => failsOnly_ok _
      cases piece with
      | plain c => exact failsOnly_ok _
      | malformed => exact failsOnly_error (isComposition _ heading option)
      | reference name =>
        dsimp only
        split
        · rename_i other _
          split
          · exact ih other
          · exact failsOnly_ok _
        · exact failsOnly_error (isComposition _ heading option)

theorem failsOnly_value? (settings : Settings) (heading option : Text) :
    FailsOnly IsComposition (settings.value? heading option) := by
  unfold value?
  cases settings.written? heading option with
  | none => exact failsOnly_ok _
  | some written =>
    apply failsOnly_bind (failsOnly_compose settings heading option maxLevels written)
    intro value _
    cases value with
    | some value => exact failsOnly_ok _
    | none => exact failsOnly_error (isComposition _ heading option)

/-- One of the known options has a value that cannot be composed. -/
inductive Uncomposed (settings : Settings) (failure : Failure) : Prop
  | text (setting : Setting) (known : setting ∈ knownTexts)
    (failed : settings.text setting = .error failure)
  | list (setting : ListSetting) (known : setting ∈ knownLists)
    (failed : settings.list setting = .error failure)

theorem Uncomposed.isComposition {settings : Settings} {failure : Failure}
    (uncomposed : settings.Uncomposed failure) : IsComposition failure := by
  cases uncomposed with
  | text setting _ failed =>
    refine (failsOnly_bind (failsOnly_value? settings _ _) fun value _ => ?_).allows failure failed
    exact failsOnly_ok _
  | list setting _ failed =>
    refine (failsOnly_bind (failsOnly_value? settings _ _) fun value _ => ?_).allows failure failed
    cases value with
    | none => exact failsOnly_ok _
    | some value => exact failsOnly_ok _

/-- A value of the settings is malformed. -/
inductive Fault (settings : Settings) : Failure → Prop
  | uncomposed {failure : Failure} (uncomposed : settings.Uncomposed failure) : settings.Fault failure
  | depth (failed : settings.maxPropertyDepth = .error .depthNotInteger) :
      settings.Fault .depthNotInteger
  | family (entry : Text)
      (failed : Repository.families settings = .error (.malformedFamily entry)) :
      settings.Fault (.malformedFamily entry)

theorem not_uncomposed_packaged (failure : Failure) : ¬ packaged.Uncomposed failure := by
  rintro (⟨setting, known, failed⟩ | ⟨setting, known, failed⟩)
  · rw [text_packaged setting known] at failed
    cases failed
  · rw [list_packaged setting known] at failed
    cases failed

section

variable {settings : Settings} {allowed : Failure → Prop}

theorem failsOnly_text (faulty : ∀ failure, settings.Uncomposed failure → allowed failure)
    (setting : Setting) (known : setting ∈ knownTexts) :
    FailsOnly allowed (settings.text setting) :=
  ⟨fun failure failed => faulty failure (.text setting known failed)⟩

theorem failsOnly_list (faulty : ∀ failure, settings.Uncomposed failure → allowed failure)
    (setting : ListSetting) (known : setting ∈ knownLists) :
    FailsOnly allowed (settings.list setting) :=
  ⟨fun failure failed => faulty failure (.list setting known failed)⟩

theorem failsOnly_maxPropertyDepth (faulty : ∀ failure, settings.Fault failure → allowed failure) :
    FailsOnly allowed settings.maxPropertyDepth := by
  constructor
  intro failure failed
  have only : FailsOnly (fun failure => settings.Uncomposed failure ∨ failure = .depthNotInteger)
      settings.maxPropertyDepth := by
    apply failsOnly_bind (failsOnly_text (fun _ => .inl) .maxPropertyDepth (by decide))
    intro written _
    split
    · exact failsOnly_ok _
    · exact failsOnly_error (.inr rfl)
  rcases only.allows failure failed with uncomposed | rfl
  · exact faulty failure (.uncomposed uncomposed)
  · exact faulty _ (.depth failed)

theorem failsOnly_families (faulty : ∀ failure, settings.Fault failure → allowed failure) :
    FailsOnly allowed (Repository.families settings) := by
  constructor
  intro failure failed
  have only : FailsOnly (fun failure => settings.Uncomposed failure ∨
      ∃ entry, failure = .malformedFamily entry) (Repository.families settings) := by
    apply failsOnly_bind (failsOnly_list (fun _ => .inl) .repositoryBlocks (by decide))
    intro entries _
    refine failsOnly_mapM fun entry _ => ?_
    unfold Repository.Family.ofEntry
    split
    · dsimp only
      split
      · exact failsOnly_error (.inr ⟨entry, rfl⟩)
      · exact failsOnly_ok _
    · exact failsOnly_error (.inr ⟨entry, rfl⟩)
  rcases only.allows failure failed with uncomposed | ⟨entry, rfl⟩
  · exact faulty failure (.uncomposed uncomposed)
  · exact faulty _ (.family entry failed)

end

end GradlePublishing.Settings
