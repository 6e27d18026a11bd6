import GradlePublishing.Proofs.Repository.Inspection
import GradlePublishing.Proofs.Repository.Walk

/-!
Which key a search finds. The walk through all applied scripts has a first script with a key of its
own. The search finds that key unless it turns away before: it does not go on from a script whose
usable URLs hold no key, although it goes on from one whose URLs are not usable.
-/

namespace GradlePublishing.Repository

namespace Search

/-- The key in the usable URLs of a script alone. -/
def ownKey? (search : Search) (visit : Visit) : Option Text :=
  ((search.usableUrls visit.inherited visit.script).bind
    (selectUrl search.settings search.isSnapshot visit.script.path)).toOption

def keyAt? (search : Search) : Stop → Option Text
  | .script visit => search.ownKey? visit
  | .fault _ => none

/-- Whether the script at a stop has nothing but one URL that cannot be resolved. -/
def isUnresolved (search : Search) : Stop → Bool
  | .script visit =>
    match search.inspect visit.inherited visit.script with
    | .error (.unresolvedUrl _ _) => true
    | _ => false
  | .fault _ => false

def firstKey? (search : Search) (stops : List Stop) : Option Text := stops.findSome? search.keyAt?

/-- The stops before the first one with a key. -/
def beforeKey (search : Search) (stops : List Stop) : List Stop :=
  stops.takeWhile fun stop => (search.keyAt? stop).isNone

/-- Where no URL is left unresolved, the search finds the first key on the walk through all applied
scripts, and it misses a key only if there is none. -/
def FindsFirstKey (search : Search) (inherited : Table) (script : Script) : Prop :=
  let stops := search.walk search.allBelow inherited script
  (∀ stop ∈ stops, search.isUnresolved stop = false) →
    (∀ key, search.firstKey? stops = some key → search.keyOfScript inherited script = .ok key) ∧
    (∀ failure, search.keyOfScript inherited script = .error failure → failure.isAbsence = true →
      search.firstKey? stops = none)

/-- The search does not end at this stop, and a script at which it finds URLs without a key applies
no other. -/
def IsHarmless (search : Search) : Stop → Prop
  | .script visit =>
    match search.inspect visit.inherited visit.script with
    | .ok _ => True
    | .error failure => failure.isAbsence = true ∧ search.allBelow visit = []
  | .fault _ => False

theorem inspect_eq_key_iff {search : Search} {visit : Visit} {key : Text} :
    search.inspect visit.inherited visit.script = .ok (.key key) ↔
      search.ownKey? visit = some key := by
  rw [ownKey?, toOption_eq_some_iff]
  refine ⟨fun found => ?_, fun found => ?_⟩
  · rcases inspect_cases found with ⟨usable, other, held, selected, same⟩ | ⟨_, _, _, same⟩
    · cases same
      exact bind_eq_ok_iff.mpr ⟨usable, held, selected⟩
    · cases same
  · obtain ⟨usable, held, selected⟩ := bind_eq_ok_iff.mp found
    exact inspect_of_selectUrl held selected

theorem keyAt?_of_keyless {search : Search} {visit : Visit}
    (keyless : ∀ key, search.inspect visit.inherited visit.script ≠ .ok (.key key)) :
    search.keyAt? (.script visit) = none :=
  Option.eq_none_iff_forall_ne_some.mpr fun key own => keyless key (inspect_eq_key_iff.mpr own)

theorem allBelow_of_applied {search : Search} {visit : Visit} {pending : List Pending}
    (found : search.inspect visit.inherited visit.script = .ok (.applied pending)) :
    search.allBelow visit = leads visit pending := by
  rw [allBelow, appliedBy_of_inspect found]
  rfl

theorem firstKey?_cons_of_key {search : Search} {stop : Stop} {key : Text} (rest : List Stop)
    (found : search.keyAt? stop = some key) : search.firstKey? (stop :: rest) = some key := by
  rw [firstKey?, List.findSome?_cons, found]

theorem firstKey?_cons_of_none {search : Search} {stop : Stop} (rest : List Stop)
    (absent : search.keyAt? stop = none) :
    search.firstKey? (stop :: rest) = search.firstKey? rest := by
  rw [firstKey?, List.findSome?_cons, absent]
  rfl

theorem beforeKey_cons_of_none {search : Search} {stop : Stop} (rest : List Stop)
    (absent : search.keyAt? stop = none) :
    search.beforeKey (stop :: rest) = stop :: search.beforeKey rest := by
  rw [beforeKey, List.takeWhile_cons_of_pos (by simp [absent])]
  rfl

/-- From a harmless script without a key of its own the search goes on with all scripts that it
applies. -/
theorem follows_of_isHarmless {search : Search} {visit : Visit}
    (harmless : search.IsHarmless (.script visit)) (absent : search.ownKey? visit = none)
    (stops : List Stop) :
    search.followedBelow visit = search.allBelow visit ∧
      search.decision (.script visit :: stops) = search.decision stops := by
  rw [decision_script]
  unfold IsHarmless at harmless
  cases found : search.inspect visit.inherited visit.script with
  | error failure =>
    simp only [found] at harmless
    rw [followedBelow_of_error found, harmless.2]
    exact ⟨rfl, by simp only [harmless.1, if_true]⟩
  | ok finding =>
    cases finding with
    | key key =>
      rw [inspect_eq_key_iff, absent] at found
      cases found
    | applied pending =>
      rw [followedBelow_of_applied found, allBelow_of_applied found]
      exact ⟨rfl, rfl⟩

/-- A script and what follows it: either it has the key itself, or both walks go on alike. -/
theorem decision_of_cons {search : Search} {visit : Visit} {all followed : List Stop} {key : Text}
    (first : search.firstKey? (.script visit :: all) = some key)
    (harmless : ∀ stop ∈ search.beforeKey (.script visit :: all), search.IsHarmless stop)
    (further : search.followedBelow visit = search.allBelow visit →
      search.firstKey? all = some key → (∀ stop ∈ search.beforeKey all, search.IsHarmless stop) →
      search.decision followed = .ok (some key)) :
    search.decision (.script visit :: followed) = .ok (some key) := by
  cases own : search.ownKey? visit with
  | some found =>
    rw [firstKey?_cons_of_key all (show search.keyAt? (.script visit) = some found from own)] at first
    rw [decision_script, inspect_eq_key_iff.mpr own, ← first]
  | none =>
    have absent : search.keyAt? (.script visit) = none := own
    rw [firstKey?_cons_of_none all absent] at first
    rw [beforeKey_cons_of_none all absent] at harmless
    obtain ⟨same, passes⟩ :=
      follows_of_isHarmless (harmless (.script visit) List.mem_cons_self) own followed
    rw [passes]
    exact further same first fun stop member => harmless stop (List.mem_cons_of_mem _ member)

theorem decision_of_firstKey? {search : Search} {visited : List AbsolutePath} {ahead : List Lead}
    {key : Text}
    (first : search.firstKey? (preorder search.tree search.allBelow visited ahead).stops = some key)
    (harmless : ∀ stop ∈ search.beforeKey (preorder search.tree search.allBelow visited ahead).stops,
      search.IsHarmless stop) :
    search.decision (preorder search.tree search.followedBelow visited ahead).stops =
      .ok (some key) := by
  fun_induction preorder search.tree search.allBelow visited ahead with
  | case1 visited => cases first
  | case2 visited next more path known ih =>
    rw [preorder_known _ _ known]
    exact ih first harmless
  | case3 visited next more path fresh failure loaded ih =>
    have absent : search.keyAt? (.fault failure) = none := rfl
    rw [Walk.after, beforeKey_cons_of_none _ absent] at harmless
    exact (harmless (.fault failure) List.mem_cons_self).elim
  | case4 visited next more path fresh loaded ih =>
    rw [preorder_missing _ _ fresh loaded]
    exact ih first harmless
  | case5 visited next more path fresh script loaded visit ih =>
    rw [preorder_script _ _ fresh loaded]
    refine decision_of_cons first harmless fun same first harmless => ?_
    rw [same]
    exact ih first harmless

/-- The search finds the first key exactly if its own walk comes to the same decision. This is so
where each script before that key either applies none or has no usable URL. -/
theorem findsFirstKey_iff (search : Search) (inherited : Table) (script : Script) :
    (search.FindsFirstKey inherited script ↔
      ((∀ stop ∈ search.walk search.allBelow inherited script, search.isUnresolved stop = false) →
        ∀ key, search.firstKey? (search.walk search.allBelow inherited script) = some key →
          search.decision (search.walk search.followedBelow inherited script) = .ok (some key))) ∧
    ((∀ stop ∈ search.beforeKey (search.walk search.allBelow inherited script),
        search.IsHarmless stop) →
      search.FindsFirstKey inherited script) := by
  have exact : search.FindsFirstKey inherited script ↔
      ((∀ stop ∈ search.walk search.allBelow inherited script, search.isUnresolved stop = false) →
        ∀ key, search.firstKey? (search.walk search.allBelow inherited script) = some key →
          search.decision (search.walk search.followedBelow inherited script) =
            .ok (some key)) := by
    refine imp_congr_right fun _ => ⟨fun finds key first => ?_, fun decides => ⟨?_, ?_⟩⟩
    · exact keyOfScript_eq_ok_iff.mp (finds.1 key first)
    · intro key first
      exact keyOfScript_eq_ok_iff.mpr (decides key first)
    · intro failure failed _
      cases first : search.firstKey? (search.walk search.allBelow inherited script) with
      | none => rfl
      | some key =>
        rw [keyOfScript_eq_ok_iff.mpr (decides key first)] at failed
        cases failed
  refine ⟨exact, fun harmless => exact.mpr fun _ key first => ?_⟩
  refine decision_of_cons first harmless fun same first harmless => ?_
  rw [same]
  exact decision_of_firstKey? first harmless

/-! A script whose usable URL has no key, and one without a usable URL, that apply a script with a
key. -/

def publishing (url more : Text) : Text :=
  r#"publishing {repositories {maven {url ""#.toList ++ url ++ r#""}}}
"#.toList ++ more

def keylessScript : Script :=
  ⟨"/build.gradle", publishing "http://h/nexus/releases" "apply from: \"k.gradle\"", .groovy⟩

def relativeScript : Script :=
  ⟨"/build.gradle", publishing "../libs" "apply from: \"k.gradle\"", .groovy⟩

def keyedScript : Script := ⟨"/k.gradle", publishing "http://h/artifactory/libs" "", .groovy⟩

def keyedTree : FileTree := ⟨⟨false, []⟩, [(["k.gradle"], .file keyedScript.content.toBytes)]⟩

def keylessSearch : Search := ⟨Settings.empty, keyedTree, ∅, ∅, false⟩

theorem inspect_keylessScript : keylessSearch.inspect ∅ keylessScript =
    .error (.noKeyInUrls "/build.gradle" ["http://h/nexus/releases".toList]) := by
  decide +kernel

theorem inspect_relativeScript :
    keylessSearch.inspect ∅ relativeScript = .ok (.applied [⟨"/k.gradle", ∅⟩]) := by
  decide +kernel

theorem inspect_keyedScript : keylessSearch.inspect ∅ keyedScript = .ok (.key "libs") := by
  decide +kernel

theorem appliedBy_keylessScript :
    keylessSearch.appliedBy ∅ keylessScript = .ok [⟨"/k.gradle", ∅⟩] := by
  decide +kernel

theorem appliedBy_keyedScript : keylessSearch.appliedBy ∅ keyedScript = .ok [] := by
  decide

theorem load?_keyedScript :
    Script.load? keylessSearch.tree "/k.gradle" = .ok (some keyedScript) := by
  decide +kernel

section Applied

variable {script : Script}

/-- The walk from a script that applies only the one with the key. -/
theorem walk_to_keyedScript (place : script.path = "/build.gradle")
    (applied : keylessSearch.appliedBy ∅ script = .ok [⟨"/k.gradle", ∅⟩]) :
    keylessSearch.walk keylessSearch.allBelow ∅ script =
      [.script ⟨[], ∅, script⟩, .script ⟨[script], ∅, keyedScript⟩] := by
  have first : keylessSearch.allBelow ⟨[], ∅, script⟩ = [⟨[script], ⟨"/k.gradle", ∅⟩⟩] := by
    rw [allBelow, applied]
    rfl
  have last : keylessSearch.allBelow ⟨[script], ∅, keyedScript⟩ = [] := by
    rw [allBelow, appliedBy_keyedScript]
    rfl
  have fresh : keylessSearch.tree.absolute "/k.gradle" ∉
      [keylessSearch.tree.absolute "/build.gradle"] := by
    decide
  rw [walk, first, place, preorder_script _ _ fresh load?_keyedScript, last, List.nil_append,
    preorder_nil]
  rfl

/-- If the script itself has neither a key nor an unresolved URL, the applied one has the first
key. -/
theorem firstKey?_to_keyedScript
    (resolved : keylessSearch.isUnresolved (.script ⟨[], ∅, script⟩) = false)
    (keyless : ∀ key, keylessSearch.inspect ∅ script ≠ .ok (.key key)) :
    let stops : List Stop := [.script ⟨[], ∅, script⟩, .script ⟨[script], ∅, keyedScript⟩]
    (∀ stop ∈ stops, keylessSearch.isUnresolved stop = false) ∧
      keylessSearch.firstKey? stops = some "libs".toList := by
  intro stops
  constructor
  · intro stop member
    rcases List.mem_cons.mp member with rfl | later
    · exact resolved
    · rw [List.mem_singleton.mp later]
      simp only [isUnresolved, inspect_keyedScript]
  · have absent : keylessSearch.keyAt? (.script ⟨[], ∅, script⟩) = none := keyAt?_of_keyless keyless
    have own : keylessSearch.keyAt? (.script ⟨[script], ∅, keyedScript⟩) = some "libs".toList :=
      inspect_eq_key_iff.mp inspect_keyedScript
    rw [firstKey?_cons_of_none _ absent, firstKey?_cons_of_key _ own]

end Applied

/-- Below a script without a usable URL the key in the applied script is found. -/
theorem findsFirstKey_relativeScript :
    let stops := keylessSearch.walk keylessSearch.allBelow ∅ relativeScript
    (∀ stop ∈ stops, keylessSearch.isUnresolved stop = false) ∧
      (∀ stop ∈ keylessSearch.beforeKey stops, keylessSearch.IsHarmless stop) ∧
      keylessSearch.firstKey? stops = some "libs".toList ∧
      keylessSearch.keyOfScript ∅ relativeScript = .ok "libs" := by
  intro stops
  have walked : stops =
      [.script ⟨[], ∅, relativeScript⟩, .script ⟨[relativeScript], ∅, keyedScript⟩] :=
    walk_to_keyedScript rfl (appliedBy_of_inspect inspect_relativeScript)
  have unkeyed : ∀ key, keylessSearch.inspect ∅ relativeScript ≠ .ok (.key key) := by
    intro key
    rw [inspect_relativeScript]
    nofun
  obtain ⟨resolved, first⟩ := firstKey?_to_keyedScript
    (by simp only [isUnresolved, inspect_relativeScript]) unkeyed
  rw [← walked] at resolved first
  have harmless : ∀ stop ∈ keylessSearch.beforeKey stops, keylessSearch.IsHarmless stop := by
    intro stop before
    have member : stop ∈ stops := (List.takeWhile_sublist _).subset before
    rw [walked, List.mem_cons, List.mem_singleton] at member
    rcases member with rfl | rfl
    · simp only [IsHarmless, inspect_relativeScript]
    · simp only [IsHarmless, inspect_keyedScript]
  have finds := (findsFirstKey_iff keylessSearch ∅ relativeScript).2 harmless
  exact ⟨resolved, harmless, first, (finds resolved).1 "libs" first⟩

/-- Below a script whose URL has no key it is missed. -/
theorem not_findsFirstKey_keylessScript : ¬ keylessSearch.FindsFirstKey ∅ keylessScript := by
  intro finds
  rw [FindsFirstKey, walk_to_keyedScript rfl appliedBy_keylessScript] at finds
  have unkeyed : ∀ key, keylessSearch.inspect ∅ keylessScript ≠ .ok (.key key) := by
    intro key
    rw [inspect_keylessScript]
    nofun
  obtain ⟨resolved, first⟩ := firstKey?_to_keyedScript
    (by simp only [isUnresolved, inspect_keylessScript]) unkeyed
  have missed := (finds resolved).1 "libs" first
  rw [keyOfScript, run, inspect_keylessScript] at missed
  cases missed

end Search

end GradlePublishing.Repository
