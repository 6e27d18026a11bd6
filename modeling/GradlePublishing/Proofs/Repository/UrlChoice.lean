import GradlePublishing.Proofs.Repository.Strongest
import GradlePublishing.Proofs.Repository.UrlTail
import Mathlib.Data.List.Infix
import Mathlib.Logic.Relation

/-!
The choice among URLs. Its key is that of the first URL whose key names the kind of version, or else of the
first URL that holds a key at all (`selectUrl_eq_iff`). So URLs that are repeated, padded with blanks or
without a key take no part in it.
-/

namespace GradlePublishing

theorem findSome?_filter_ne {α β : Type} [BEq α] [LawfulBEq α] {f : α → Option β} {x : α}
    (absent : f x = none) (xs : List α) :
    (xs.filter fun y => !(y == x)).findSome? f = xs.findSome? f := by
  induction xs with
  | nil => rfl
  | cons y xs ih =>
    by_cases same : y = x
    · rw [List.filter_cons_of_neg (by simp [same]), ih, List.findSome?_cons, same, absent]
    · rw [List.filter_cons_of_pos (by simp [same]), List.findSome?_cons, List.findSome?_cons, ih]

theorem find?_filterMap_eq_findSome? {α β : Type} (f : α → Option β) (p : β → Bool) (xs : List α) :
    (xs.filterMap f).find? p = xs.findSome? fun x => (f x).filter p := by
  induction xs with
  | nil => rfl
  | cons x xs ih =>
    rw [List.findSome?_cons]
    cases found : f x with
    | none => rw [List.filterMap_cons_none found, ih, Option.filter_none]
    | some y =>
      rw [List.filterMap_cons_some found, List.find?_cons, Option.filter_some, ih]
      cases p y <;> rfl

theorem findSome?_eraseDups {α β : Type} [BEq α] [LawfulBEq α] (f : α → Option β) (xs : List α) :
    xs.eraseDups.findSome? f = xs.findSome? f := by
  match xs with
  | [] => rfl
  | x :: xs =>
    rw [List.eraseDups_cons, List.findSome?_cons, List.findSome?_cons]
    cases found : f x with
    | some result => rfl
    | none =>
      dsimp only
      rw [findSome?_eraseDups f, findSome?_filter_ne found]
termination_by xs.length
decreasing_by
  have shorter := List.length_filter_le (fun y => !(y == x)) xs
  simp only [List.length_cons]
  omega

namespace Text

theorem strip_padded {before after : Text} (blank : ∀ c ∈ before ++ after, isBlank c = true) (s : Text) :
    strip (before ++ s ++ after) = strip s := by
  have started : stripStart (before ++ (s ++ after)) = stripStart (s ++ after) :=
    List.dropWhile_append_of_pos fun c member => blank c (List.mem_append_left after member)
  have vanished : stripEnd after = [] := by
    rw [stripEnd_eq_rdropWhile, List.rdropWhile_eq_nil_iff]
    exact fun c member => blank c (List.mem_append_right before member)
  have ended : stripEnd (s ++ after) = stripEnd s := by rw [stripEnd_append, if_pos vanished]
  rw [List.append_assoc, strip, started, ← stripStart_stripEnd, ended, stripStart_stripEnd, strip]

end Text

namespace Repository

def urlKey? (url : Text) : Option Text := (keyOfUrl Settings.packaged url).toOption

/-- A key that holds the usual keyword of a kind of version, in any case. -/
def NamesKind (isSnapshot : Bool) (key : Text) : Prop := usualKind isSnapshot <:+: Text.lower key

instance decidableNamesKind (isSnapshot : Bool) (key : Text) : Decidable (NamesKind isSnapshot key) :=
  inferInstanceAs (Decidable (_ <:+: _))

/-- The key of the first URL whose key names the kind of version, or else of the first URL with a key. -/
def preferredKey? (isSnapshot : Bool) (urls : List Text) : Option Text :=
  (urls.findSome? fun url => (urlKey? url).filter fun key => NamesKind isSnapshot key).or
    (urls.findSome? urlKey?)

theorem urlKey?_congr {url other : Text} (same : Text.strip url = Text.strip other) :
    urlKey? url = urlKey? other := by
  rw [urlKey?, urlKey?, keyOfUrl, keyOfUrl, same]

theorem urlKey?_strip (url : Text) : urlKey? (Text.strip url) = urlKey? url :=
  urlKey?_congr (Text.strip_strip url)

/-! Candidates without a name differ only in whether their key names the kind of version. -/

section Unnamed

variable (isSnapshot : Bool)

theorem usualRank_unnamed (key : Text) : usualRank isSnapshot { key } =
    if NamesKind isSnapshot key then .preferred else .fallback := by
  have bare : (Text.has (usualKind isSnapshot) (Text.lower []) = false) ∧
      Text.has "deploy" (Text.lower []) = false := by
    cases isSnapshot <;> decide
  have named : Text.has (usualKind isSnapshot) (Text.lower key) = true ↔ NamesKind isSnapshot key :=
    Text.has_eq_true_iff
  rw [usualRank, Candidate.rank, bare.1, bare.2, Bool.or_false]
  exact if_congr named rfl (if_neg Bool.false_ne_true)

theorem find?_ranked_unnamed (keys : List Text) (selection : Selection) :
    (ranked isSnapshot (keys.map ({ key := · }))).find? (·.1 == selection) =
      (keys.find? fun key => usualRank isSnapshot { key } == selection).map
        fun key => (usualRank isSnapshot { key }, { key }) := by
  rw [ranked, List.map_map, List.find?_map]
  rfl

theorem strongest?_unnamed (keys : List Text) :
    (strongest? (ranked isSnapshot (keys.map ({ key := · })))).map (·.key) =
      (keys.find? fun key => NamesKind isSnapshot key).or keys.head? := by
  have preferred : (fun key => usualRank isSnapshot { key } == .preferred) =
      fun key => decide (NamesKind isSnapshot key) := by
    funext key
    rw [usualRank_unnamed]
    by_cases named : NamesKind isSnapshot key <;> simp [named]
  rw [strongest?]
  simp only [List.findSome?_cons, List.findSome?_nil, find?_ranked_unnamed, preferred]
  cases found : keys.find? fun key => NamesKind isSnapshot key with
  | some key => rfl
  | none =>
    -- No key names the kind, so that all candidates are of the weakest selection.
    have weakest : ∀ key ∈ keys, usualRank isSnapshot { key } = .fallback := by
      intro key member
      have other := List.find?_eq_none.mp found key member
      rw [usualRank_unnamed, if_neg (by simpa using other)]
    have deploy : (keys.find? fun key => usualRank isSnapshot { key } == .deploy) = none := by
      refine List.find?_eq_none.mpr fun key member => ?_
      rw [weakest key member]
      decide
    have first : (keys.find? fun key => usualRank isSnapshot { key } == .fallback) = keys.head? := by
      cases keys with
      | nil => rfl
      | cons key keys => rw [List.find?_cons_of_pos (by simp [weakest key List.mem_cons_self])]; rfl
    rw [deploy, first]
    cases keys.head? <;> rfl

end Unnamed

/-! The choice from a list of URLs. -/

section Urls

variable {isSnapshot : Bool} {urls : List Text}

def distinctUrlKeys (urls : List Text) : List Text :=
  (urls.map Text.strip).eraseDups.filterMap urlKey?

theorem findSome?_distinct {α : Type} {f : Text → Option α}
    (stripped : ∀ url, f (Text.strip url) = f url) (urls : List Text) :
    (urls.map Text.strip).eraseDups.findSome? f = urls.findSome? f := by
  rw [findSome?_eraseDups, List.findSome?_map]
  exact congrArg (urls.findSome? ·) (funext stripped)

theorem preferredKey?_eq (isSnapshot : Bool) (urls : List Text) : preferredKey? isSnapshot urls =
    ((distinctUrlKeys urls).find? fun key => NamesKind isSnapshot key).or
      (distinctUrlKeys urls).head? := by
  rw [distinctUrlKeys, find?_filterMap_eq_findSome?, List.head?_filterMap,
    findSome?_distinct urlKey?_strip, findSome?_distinct fun url => by rw [urlKey?_strip]]
  rfl

theorem eraseDups_strip_eq_nil_iff : (urls.map Text.strip).eraseDups = [] ↔ urls = [] := by
  cases urls with
  | nil => exact ⟨fun _ => rfl, fun _ => rfl⟩
  | cons url urls => simp [List.eraseDups_cons]

theorem selectUrl_packaged (source : Text) : selectUrl Settings.packaged isSnapshot source urls =
    if urls = [] then .error (.noRepositoryUrl source)
    else match preferredKey? isSnapshot urls with
      | some key => .ok key
      | none => .error (.noKeyInUrls source (urls.map Text.strip).eraseDups) := by
  have computed : (urls.map Text.strip).eraseDups.mapM (keyOfUrl? Settings.packaged) =
      .ok ((urls.map Text.strip).eraseDups.map urlKey?) := by
    rw [funext keyOfUrl?_packaged]
    exact List.mapM_pure
  have kept : ((urls.map Text.strip).eraseDups.map urlKey?).filterMap id = distinctUrlKeys urls := by
    rw [List.filterMap_map]
    rfl
  rw [selectUrl, computed]
  dsimp only [bind, Except.bind]
  rw [kept]
  by_cases empty : urls = []
  · rw [if_pos empty, empty]
    rfl
  · rw [if_neg empty, if_neg (by rwa [List.isEmpty_iff, eraseDups_strip_eq_nil_iff])]
    have chosen := strongest?_unnamed isSnapshot (distinctUrlKeys urls)
    rw [← preferredKey?_eq] at chosen
    rw [← chosen]
    split
    · rename_i keyless
      rw [List.isEmpty_iff.mp keyless]
      rfl
    · rename_i filled
      rw [select_packaged]
      cases found : strongest? (ranked isSnapshot ((distinctUrlKeys urls).map ({ key := · }))) with
      | some best => rfl
      | none =>
        rw [List.isEmpty_iff] at filled
        exact absurd (List.map_eq_nil_iff.mp (eq_nil_of_strongest? found)) filled

theorem preferredKey?_eq_none_iff (isSnapshot : Bool) (urls : List Text) :
    preferredKey? isSnapshot urls = none ↔ ∀ url ∈ urls, urlKey? url = none := by
  rw [preferredKey?, Option.or_eq_none_iff, List.findSome?_eq_none_iff, List.findSome?_eq_none_iff]
  refine and_iff_right_of_imp fun keyless url member => ?_
  rw [keyless url member, Option.filter_none]

theorem selectUrl_eq_ok_iff {source key : Text} :
    selectUrl Settings.packaged isSnapshot source urls = .ok key ↔
      preferredKey? isSnapshot urls = some key := by
  rw [selectUrl_packaged]
  by_cases empty : urls = []
  · rw [if_pos empty, empty]
    exact ⟨nofun, nofun⟩
  · rw [if_neg empty]
    cases preferredKey? isSnapshot urls with
    | none => exact ⟨nofun, nofun⟩
    | some best => rw [Except.ok.injEq, Option.some.injEq]

theorem selectUrl_eq_error_iff {source : Text} {failure : Failure} :
    selectUrl Settings.packaged isSnapshot source urls = .error failure ↔
      (urls = [] ∧ failure = .noRepositoryUrl source) ∨
        (urls ≠ [] ∧ (∀ url ∈ urls, urlKey? url = none) ∧
          failure = .noKeyInUrls source (urls.map Text.strip).eraseDups) := by
  rw [selectUrl_packaged, ← preferredKey?_eq_none_iff isSnapshot]
  by_cases empty : urls = []
  · simp [empty, eq_comm]
  · rw [if_neg empty]
    cases preferredKey? isSnapshot urls with
    | none => simp [empty, eq_comm]
    | some best => simp [empty]

/-- The first URL whose key names the kind of version is preferred to all others. -/
theorem preferredKey?_of_named {front back : List Text} {url key : Text}
    (found : urlKey? url = some key) (named : NamesKind isSnapshot key)
    (other : ∀ other ∈ front, ∀ key, urlKey? other = some key → ¬ NamesKind isSnapshot key) :
    preferredKey? isSnapshot (front ++ url :: back) = some key := by
  have ahead : (front.findSome? fun url => (urlKey? url).filter fun key => NamesKind isSnapshot key) =
      none := by
    refine List.findSome?_eq_none_iff.mpr fun url member => Option.filter_eq_none_iff.mpr ?_
    intro key held
    simpa using other url member key held
  rw [preferredKey?, List.findSome?_append, ahead, List.findSome?_cons, found, Option.filter_some,
    if_pos (decide_eq_true named)]
  rfl

/-! Changes of a list of URLs that add no key to it. -/

/-- A URL is repeated behind itself, padded with blanks, or inserted although it holds no key. -/
inductive AddsNothing : List Text → List Text → Prop
  | repeated (front back : List Text) (url : Text) (known : url ∈ front) :
    AddsNothing (front ++ back) (front ++ url :: back)
  | padded (front back : List Text) (url before after : Text)
    (blank : ∀ c ∈ before ++ after, Text.isBlank c = true) :
    AddsNothing (front ++ url :: back) (front ++ (before ++ url ++ after) :: back)
  | keyless (front back : List Text) (url : Text) (absent : urlKey? url = none) :
    AddsNothing (front ++ back) (front ++ url :: back)

theorem AddsNothing.findSome?_eq {others : List Text} (step : AddsNothing urls others)
    {next : Option Text → Option Text} (strict : next none = none) :
    (others.findSome? fun url => next (urlKey? url)) = urls.findSome? fun url => next (urlKey? url) := by
  cases step with
  | repeated front back url known =>
    rw [List.findSome?_append, List.findSome?_append]
    cases found : front.findSome? fun url => next (urlKey? url) with
    | some key => rfl
    | none => rw [List.findSome?_cons, List.findSome?_eq_none_iff.mp found url known]
  | padded front back url before after blank =>
    rw [List.findSome?_append, List.findSome?_append, List.findSome?_cons, List.findSome?_cons,
      urlKey?_congr (Text.strip_padded blank url)]
  | keyless front back url absent =>
    rw [List.findSome?_append, List.findSome?_append, List.findSome?_cons, absent, strict]

theorem AddsNothing.preferredKey?_eq {others : List Text} (step : AddsNothing urls others) :
    preferredKey? isSnapshot others = preferredKey? isSnapshot urls := by
  have named := step.findSome?_eq
    (Option.filter_none (fun key => decide (NamesKind isSnapshot key)))
  have any := step.findSome?_eq (rfl : id none = none)
  dsimp only [id] at any
  rw [preferredKey?, named, any, preferredKey?]

theorem preferredKey?_of_addsNothing {others : List Text}
    (steps : Relation.ReflTransGen AddsNothing urls others) :
    preferredKey? isSnapshot others = preferredKey? isSnapshot urls := by
  induction steps with
  | refl => rfl
  | tail _ step ih => exact step.preferredKey?_eq.trans ih

/-- The choice fails for an empty list, and for one in which no URL holds a key; in all other cases it gives
the preferred key. This key stays the same in whatever way nothing is added to the list. -/
theorem selectUrl_eq_iff (isSnapshot : Bool) (source : Text) (urls : List Text) :
    (∀ failure, selectUrl Settings.packaged isSnapshot source urls = .error failure ↔
      (urls = [] ∧ failure = .noRepositoryUrl source) ∨
        (urls ≠ [] ∧ (∀ url ∈ urls, urlKey? url = none) ∧
          failure = .noKeyInUrls source (urls.map Text.strip).eraseDups)) ∧
    (∀ key, selectUrl Settings.packaged isSnapshot source urls = .ok key ↔
      preferredKey? isSnapshot urls = some key) ∧
    ∀ others, Relation.ReflTransGen AddsNothing urls others → ∀ key,
      selectUrl Settings.packaged isSnapshot source others = .ok key ↔
        selectUrl Settings.packaged isSnapshot source urls = .ok key := by
  refine ⟨fun failure => selectUrl_eq_error_iff, fun key => selectUrl_eq_ok_iff, ?_⟩
  intro others steps key
  rw [selectUrl_eq_ok_iff, selectUrl_eq_ok_iff, preferredKey?_of_addsNothing steps]

end Urls

/-! Two URLs of which the second is preferred, and the same with blanks, an empty URL and a repetition. -/

def twoUrls : List Text := ["/artifactory/libs", "/artifactory/My-SNAPSHOT"]

def fourUrls : List Text :=
  ["", "/artifactory/libs", "\t/artifactory/My-SNAPSHOT ", "/artifactory/libs"]

theorem addsNothing_twoUrls : Relation.ReflTransGen AddsNothing twoUrls fourUrls := by
  have inserted : AddsNothing twoUrls ("".toList :: twoUrls) := .keyless [] twoUrls "" rfl
  have blank : ∀ c ∈ "\t".toList ++ " ".toList, Text.isBlank c = true := List.all_eq_true.mp (by decide)
  have padded : AddsNothing ("".toList :: twoUrls) (fourUrls.take 3) :=
    .padded ["", "/artifactory/libs"] [] "/artifactory/My-SNAPSHOT" "\t" " " blank
  have repeated : AddsNothing (fourUrls.take 3) fourUrls :=
    .repeated (fourUrls.take 3) [] "/artifactory/libs" (by decide)
  exact ((Relation.ReflTransGen.single inserted).tail padded).tail repeated

theorem selectUrl_fourUrls : Relation.ReflTransGen AddsNothing twoUrls fourUrls ∧
    selectUrl Settings.packaged true "build.gradle" fourUrls = .ok "My-SNAPSHOT" := by
  have steps := addsNothing_twoUrls
  obtain ⟨-, chosen, unchanged⟩ := selectUrl_eq_iff true "build.gradle" twoUrls
  have first : urlKey? "/artifactory/libs" = some "libs".toList :=
    toOption_eq_some_iff.mpr (keyOfUrl_eq_ok_iff.mpr ⟨_, ["artifactory".toList], rfl, rfl, by decide⟩)
  have second : urlKey? "/artifactory/My-SNAPSHOT" = some "My-SNAPSHOT".toList :=
    toOption_eq_some_iff.mpr (keyOfUrl_eq_ok_iff.mpr ⟨_, ["artifactory".toList], rfl, rfl, by decide⟩)
  have other : ¬ NamesKind true "libs" := by decide
  have preferred : preferredKey? true twoUrls = some "My-SNAPSHOT".toList := by
    have parts : twoUrls = ["/artifactory/libs".toList] ++ "/artifactory/My-SNAPSHOT".toList :: [] := rfl
    rw [parts]
    refine preferredKey?_of_named second (by decide) ?_
    intro url member key held
    rw [List.mem_singleton.mp member, first] at held
    exact Option.some.inj held ▸ other
  exact ⟨steps, (unchanged fourUrls steps _).mpr ((chosen _).mpr preferred)⟩

end Repository

end GradlePublishing
