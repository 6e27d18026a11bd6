import GradlePublishing.Proofs.Asking
import GradlePublishing.Proofs.Repository.Failures
import GradlePublishing.Proofs.Repository.KeyText
import GradlePublishing.Proofs.Settings.Usual
import Mathlib.Data.List.Nodup

/-!
The choice among the properties that may name a repository. Of those with the same key only the first in
the order of names takes part in it, and of these the strongest is chosen. This is the key of the strongest
of all exactly if no property that takes part for another key comes before the one that takes part for that
key (`choosesStrongest_iff`).
-/

namespace GradlePublishing

namespace Repository

def usualKind (isSnapshot : Bool) : Text := if isSnapshot then "snapshot" else "release"

/-- What it takes for a property to name a repository of this key. -/
structure IsEligible (isSnapshot : Bool) (name value key : Text) : Prop where
  keyword : ∃ keyword ∈ (["repo", "artifactory", "url", "deploy"] : List Text),
    keyword <:+: Text.lower (Text.strip name)
  kind : usualKind (!isSnapshot) <:+: Text.lower (Text.strip name) →
    usualKind isSnapshot <:+: Text.lower (Text.strip name)
  filled : Text.strip value ≠ []
  notBoolean : Text.lower (Text.strip value) ∉ (["true", "false"] : List Text)
  notRelative : ¬ "./".toList <+: Text.strip value ∧ ¬ "../".toList <+: Text.strip value
  held : ('/' ∉ Text.strip value ∧ ':' ∉ Text.strip value ∧ key = Text.strip value) ∨
    (('/' ∈ Text.strip value ∨ ':' ∈ Text.strip value) ∧
      keyOfUrl Settings.packaged (Text.strip value) = .ok key)

def Offers (isSnapshot : Bool) (table : Table) (candidate : Candidate) : Prop :=
  ∃ value, (candidate.name, value) ∈ table.entries ∧
    IsEligible isSnapshot candidate.name value candidate.key

/-- The place of a selection from the strongest on. -/
def Selection.place : Selection → Nat
  | .preferred => 0
  | .deploy => 1
  | .fallback => 2

/-- What a candidate would be chosen for under the usual settings (`classify_packaged`). -/
def usualRank (isSnapshot : Bool) (candidate : Candidate) : Selection :=
  candidate.rank (usualKind isSnapshot) "deploy"

/-- Whether a candidate is stronger, or as strong and no later in the order of names. -/
def Candidate.Precedes (isSnapshot : Bool) (first later : Candidate) : Prop :=
  (usualRank isSnapshot first).place < (usualRank isSnapshot later).place ∨
    (usualRank isSnapshot first).place = (usualRank isSnapshot later).place ∧
      Text.le first.name later.name = true

/-- The strongest of some candidates, and the first of these in the order of names. -/
structure IsStrongest (isSnapshot : Bool) (offered : Candidate → Prop) (best : Candidate) : Prop where
  among : offered best
  precedes : ∀ other, offered other → best.Precedes isSnapshot other

/-- The first of the candidates with one key. -/
structure HoldsFirst (offered : Candidate → Prop) (candidate : Candidate) : Prop where
  among : offered candidate
  first : ∀ other, offered other → other.key = candidate.key →
    Text.le candidate.name other.name = true

/-- The key of the strongest eligible property is chosen, and no key only if there is none. -/
structure ChoosesStrongest (isSnapshot : Bool) (table : Table) : Prop where
  found : ∀ best, IsStrongest isSnapshot (Offers isSnapshot table) best →
    selectProperty Settings.packaged isSnapshot table = .ok best.key
  absent : selectProperty Settings.packaged isSnapshot table =
      .error (.noRepository "the Gradle properties") ↔
    ∀ candidate, ¬ Offers isSnapshot table candidate

/-! Under the packaged settings nothing but the lack of candidates fails. -/

def usualRules (isSnapshot : Bool) : NameRules :=
  ⟨["repo", "artifactory", "url", "deploy"], usualKind isSnapshot, usualKind (!isSnapshot)⟩

theorem nameRules_packaged (isSnapshot : Bool) :
    nameRules Settings.packaged isSnapshot = .ok (usualRules isSnapshot) := by
  have keywords := Settings.list_packaged .propertyNameKeywords (by decide)
  have snapshot := Settings.text_packaged .snapshotKeyword (by decide)
  have release := Settings.text_packaged .releaseKeyword (by decide)
  rw [nameRules, keywords, snapshot, release]
  cases isSnapshot <;> decide

theorem classify_packaged (isSnapshot : Bool) (candidate : Candidate) :
    classify Settings.packaged isSnapshot candidate = .ok (usualRank isSnapshot candidate) := by
  have snapshot := Settings.text_packaged .snapshotKeyword (by decide)
  have release := Settings.text_packaged .releaseKeyword (by decide)
  have deploy := Settings.text_packaged .deployKeyword (by decide)
  rw [classify, kindKeyword, deploy]
  cases isSnapshot with
  | false =>
    rw [if_neg Bool.false_ne_true, release]
    rfl
  | true =>
    rw [if_pos rfl, snapshot]
    rfl

theorem keyOfUrl?_packaged (url : Text) :
    keyOfUrl? Settings.packaged url = .ok (keyOfUrl Settings.packaged url).toOption := by
  cases found : keyOfUrl Settings.packaged url with
  | ok key =>
    rw [keyOfUrl?, found]
    rfl
  | error failure =>
    rw [keyOfUrl?, found]
    exact if_pos (isKeyless_of_keyOfUrl found)

def keyIn? (value : Text) : Option Text :=
  if value.contains '/' || value.contains ':' then (keyOfUrl Settings.packaged value).toOption
  else some value

theorem keyIn?_eq_some_iff {value key : Text} : keyIn? value = some key ↔
    ('/' ∉ value ∧ ':' ∉ value ∧ key = value) ∨
      (('/' ∈ value ∨ ':' ∈ value) ∧ keyOfUrl Settings.packaged value = .ok key) := by
  have located : (value.contains '/' || value.contains ':') = true ↔ '/' ∈ value ∨ ':' ∈ value := by
    simp
  unfold keyIn?
  by_cases written : '/' ∈ value ∨ ':' ∈ value
  · rw [if_pos (located.mpr written), toOption_eq_some_iff]
    refine ⟨fun found => .inr ⟨written, found⟩, ?_⟩
    rintro (⟨slash, colon, -⟩ | ⟨-, found⟩)
    · exact absurd written (not_or.mpr ⟨slash, colon⟩)
    · exact found
  · rw [if_neg (fun held => written (located.mp held)), Option.some.injEq]
    obtain ⟨slash, colon⟩ := not_or.mp written
    refine ⟨fun same => .inl ⟨slash, colon, same.symm⟩, ?_⟩
    rintro (⟨-, -, rfl⟩ | ⟨held, -⟩)
    · rfl
    · exact absurd held written

def offer? (isSnapshot : Bool) (entry : Text × Text) : Option Candidate :=
  if (usualRules isSnapshot).admits entry.1 && admitsValue (Text.strip entry.2) then
    (keyIn? (Text.strip entry.2)).map (⟨·, entry.1⟩)
  else none

theorem candidate?_packaged (isSnapshot : Bool) (entry : Text × Text) :
    candidate? Settings.packaged (usualRules isSnapshot) entry = .ok (offer? isSnapshot entry) := by
  unfold offer? candidate? keyOfValue? keyIn?
  dsimp only
  split
  · split
    · rw [keyOfUrl?_packaged]
      rfl
    · rfl
  · rfl

theorem admits_usualRules_iff {isSnapshot : Bool} {name : Text} :
    (usualRules isSnapshot).admits name = true ↔
      (∃ keyword ∈ (["repo", "artifactory", "url", "deploy"] : List Text),
        keyword <:+: Text.lower (Text.strip name)) ∧
      (usualKind (!isSnapshot) <:+: Text.lower (Text.strip name) →
        usualKind isSnapshot <:+: Text.lower (Text.strip name)) := by
  have parts : (usualRules isSnapshot).admits name = true ↔ Text.lower (Text.strip name) ≠ [] ∧
      (∃ keyword ∈ (["repo", "artifactory", "url", "deploy"] : List Text),
        keyword <:+: Text.lower (Text.strip name)) ∧
      (usualKind (!isSnapshot) <:+: Text.lower (Text.strip name) →
        usualKind isSnapshot <:+: Text.lower (Text.strip name)) := by
    simp only [NameRules.admits, usualRules, Bool.and_eq_true, Bool.or_eq_true, Bool.not_eq_true',
      List.isEmpty_iff, ne_eq, List.any_eq_true, ← Bool.not_eq_true, Text.has_eq_true_iff,
      ← imp_iff_not_or, and_assoc]
  refine parts.trans (and_iff_right_of_imp ?_)
  rintro ⟨⟨keyword, listed, inside⟩, -⟩ empty
  rw [empty, List.infix_nil] at inside
  subst inside
  exact absurd listed (by decide)

theorem admitsValue_iff {value : Text} : admitsValue value = true ↔
    value ≠ [] ∧ Text.lower value ∉ (["true", "false"] : List Text) ∧
      ¬ "./".toList <+: value ∧ ¬ "../".toList <+: value := by
  simp only [admitsValue, isDotted, Bool.and_eq_true, Bool.not_eq_true', List.isEmpty_iff,
    ← Bool.not_eq_true, List.contains_iff_mem, Bool.or_eq_true, Text.isSome_after?_iff, not_or,
    and_assoc, ne_eq]

theorem offer?_eq_some_iff {isSnapshot : Bool} {entry : Text × Text} {candidate : Candidate} :
    offer? isSnapshot entry = some candidate ↔
      candidate.name = entry.1 ∧ IsEligible isSnapshot entry.1 entry.2 candidate.key := by
  obtain ⟨key, name⟩ := candidate
  have made : offer? isSnapshot entry = some ⟨key, name⟩ ↔
      (usualRules isSnapshot).admits entry.1 = true ∧ admitsValue (Text.strip entry.2) = true ∧
        keyIn? (Text.strip entry.2) = some key ∧ entry.1 = name := by
    simp only [offer?, Option.ite_none_right_eq_some, Bool.and_eq_true, Option.map_eq_some_iff,
      Candidate.mk.injEq, and_assoc]
    constructor
    · rintro ⟨named, filled, held, found, rfl, rfl⟩
      exact ⟨named, filled, found, rfl⟩
    · rintro ⟨named, filled, found, rfl⟩
      exact ⟨named, filled, key, found, rfl, rfl⟩
  rw [made, admits_usualRules_iff, admitsValue_iff, keyIn?_eq_some_iff]
  constructor
  · rintro ⟨⟨keyword, kind⟩, ⟨filled, notBoolean, notRelative⟩, held, rfl⟩
    exact ⟨rfl, keyword, kind, filled, notBoolean, notRelative, held⟩
  · rintro ⟨rfl, keyword, kind, filled, notBoolean, notRelative, held⟩
    exact ⟨⟨keyword, kind⟩, ⟨filled, notBoolean, notRelative⟩, held, rfl⟩

/-! The choice from candidates in the order of their names. -/

def IsOrdered (candidates : List Candidate) : Prop :=
  candidates.Pairwise fun first later =>
    Text.le first.name later.name = true ∧ first.name ≠ later.name

section Choice

variable {isSnapshot : Bool} {candidates : List Candidate}

theorem IsOrdered.eq_of_name (ordered : IsOrdered candidates) {first second : Candidate}
    (one : first ∈ candidates) (other : second ∈ candidates) (same : first.name = second.name) :
    first = second := by
  have distinct : (candidates.map Candidate.name).Nodup :=
    List.pairwise_map.mpr (ordered.imp And.right)
  exact List.inj_on_of_nodup_map distinct one other same

def ranked (isSnapshot : Bool) (candidates : List Candidate) : List (Selection × Candidate) :=
  candidates.map fun candidate => (usualRank isSnapshot candidate, candidate)

theorem place_injective : Function.Injective Selection.place := by
  intro first second same
  cases first <;> cases second <;> first | rfl | cases same

theorem Selection.mem_all (selection : Selection) :
    selection ∈ [Selection.preferred, .deploy, .fallback] := by
  cases selection <;> decide

/-- The first candidate of a selection is the strongest when none is of a stronger one. -/
theorem isStrongest_of_find? (ordered : IsOrdered candidates) {selection : Selection}
    {best : Selection × Candidate}
    (found : (ranked isSnapshot candidates).find? (·.1 == selection) = some best)
    (weaker : ∀ other ∈ candidates, selection.place ≤ (usualRank isSnapshot other).place) :
    IsStrongest isSnapshot (· ∈ candidates) best.2 := by
  rw [ranked, List.find?_map] at found
  obtain ⟨first, held, rfl⟩ := Option.map_eq_some_iff.mp found
  obtain ⟨same, front, behind, rfl, absent⟩ := List.find?_eq_some_iff_append.mp held
  obtain rfl : usualRank isSnapshot first = selection := by simpa using same
  refine ⟨by simp, fun other member => ?_⟩
  rcases Nat.lt_or_eq_of_le (weaker other member) with below | level
  · exact .inl below
  · refine .inr ⟨level, ?_⟩
    rw [List.mem_append, List.mem_cons] at member
    rcases member with ahead | rfl | later
    · have passed := absent other ahead
      simp [place_injective level] at passed
    · simpa using Text.le_total other.name other.name
    · rw [IsOrdered, List.pairwise_append, List.pairwise_cons] at ordered
      exact (ordered.2.1.1 other later).1

theorem isStrongest_of_strongest? (ordered : IsOrdered candidates) {best : Candidate}
    (found : strongest? (ranked isSnapshot candidates) = some best) :
    IsStrongest isSnapshot (· ∈ candidates) best := by
  obtain ⟨chosen, first, rfl⟩ := Option.map_eq_some_iff.mp found
  obtain ⟨stronger, selection, weaker, all, found, absent⟩ := List.findSome?_eq_some_iff.mp first
  refine isStrongest_of_find? ordered found fun other member => ?_
  have falling : (stronger ++ selection :: weaker).Pairwise (·.place < ·.place) := by
    rw [← all]
    decide
  have listed : usualRank isSnapshot other ∈ stronger ++ selection :: weaker :=
    all ▸ (usualRank isSnapshot other).mem_all
  rw [List.pairwise_append, List.pairwise_cons] at falling
  rw [List.mem_append, List.mem_cons] at listed
  rcases listed with ahead | same | behind
  · have passed := List.find?_eq_none.mp (absent _ ahead) _ (List.mem_map_of_mem member)
    simp at passed
  · rw [same]
  · exact Nat.le_of_lt (falling.2.1.1 _ behind)

theorem eq_nil_of_strongest? (absent : strongest? (ranked isSnapshot candidates) = none) :
    candidates = [] := by
  refine List.eq_nil_iff_forall_not_mem.mpr fun candidate member => ?_
  rw [strongest?, Option.map_eq_none_iff, List.findSome?_eq_none_iff] at absent
  have none := absent _ (usualRank isSnapshot candidate).mem_all
  have passed := List.find?_eq_none.mp none _ (List.mem_map_of_mem member)
  simp at passed

theorem select_packaged (source : Text) : select Settings.packaged isSnapshot source candidates =
    match strongest? (ranked isSnapshot candidates) with
    | some best => .ok best.key
    | none => .error (.noRepository source) := by
  have classified : (candidates.mapM fun candidate => do
      return (← classify Settings.packaged isSnapshot candidate, candidate)) =
        .ok (ranked isSnapshot candidates) := by
    simp only [classify_packaged]
    exact List.mapM_pure
  rw [select, classified]
  rfl

theorem IsOrdered.eq_of_precedes (ordered : IsOrdered candidates) {first second : Candidate}
    (one : first ∈ candidates) (other : second ∈ candidates)
    (before : first.Precedes isSnapshot second) (behind : second.Precedes isSnapshot first) :
    first = second := by
  apply ordered.eq_of_name one other
  unfold Candidate.Precedes at before behind
  rcases before with stronger | ⟨level, before⟩
  · omega
  · rcases behind with stronger | ⟨-, behind⟩
    · omega
    · exact Text.le_antisymm _ _ before behind

theorem select_of_isStrongest (ordered : IsOrdered candidates) {best : Candidate}
    (strongest : IsStrongest isSnapshot (· ∈ candidates) best) (source : Text) :
    select Settings.packaged isSnapshot source candidates = .ok best.key := by
  rw [select_packaged]
  cases found : strongest? (ranked isSnapshot candidates) with
  | none =>
    have member := strongest.among
    rw [eq_nil_of_strongest? found] at member
    cases member
  | some chosen =>
    have same := isStrongest_of_strongest? ordered found
    rw [ordered.eq_of_precedes same.among strongest.among (same.precedes best strongest.among)
      (strongest.precedes chosen same.among)]

theorem exists_isStrongest (ordered : IsOrdered candidates) (nonempty : candidates ≠ []) :
    ∃ best, IsStrongest isSnapshot (· ∈ candidates) best := by
  cases found : strongest? (ranked isSnapshot candidates) with
  | none => exact absurd (eq_nil_of_strongest? found) nonempty
  | some best => exact ⟨best, isStrongest_of_strongest? ordered found⟩

/-! The candidates that are left when later ones with the same key are dropped. -/

theorem distinctKeys_cons (candidate : Candidate) (candidates : List Candidate) :
    distinctKeys (candidate :: candidates) =
      candidate :: distinctKeys (candidates.filter fun other => other.key ≠ candidate.key) := by
  rw [distinctKeys, List.eraseDupsBy_cons, distinctKeys]
  congr 3
  funext other
  simp

theorem distinctKeys_ne_nil (nonempty : candidates ≠ []) : distinctKeys candidates ≠ [] := by
  obtain ⟨candidate, more, rfl⟩ := List.exists_cons_of_ne_nil nonempty
  rw [distinctKeys_cons]
  exact List.cons_ne_nil _ _

theorem distinctKeys_sublist (candidates : List Candidate) :
    (distinctKeys candidates).Sublist candidates := eraseDupsBy_sublist _ candidates

theorem IsOrdered.distinctKeys (ordered : IsOrdered candidates) :
    IsOrdered (distinctKeys candidates) :=
  List.Pairwise.sublist (distinctKeys_sublist candidates) ordered

/-- A candidate is left exactly if it is the first with its key. -/
theorem mem_distinctKeys_iff (ordered : IsOrdered candidates) {candidate : Candidate} :
    candidate ∈ distinctKeys candidates ↔ HoldsFirst (· ∈ candidates) candidate := by
  induction size : candidates.length using Nat.strongRecOn generalizing candidates with
  | ind size ih =>
  cases candidates with
  | nil => exact ⟨nofun, fun holds => nomatch holds.among⟩
  | cons first rest =>
    obtain ⟨ahead, later⟩ := List.pairwise_cons.mp ordered
    have others : IsOrdered (rest.filter fun other => other.key ≠ first.key) :=
      later.sublist List.filter_sublist
    have shorter := List.length_filter_le (fun other => other.key ≠ first.key) rest
    have left := ih _ (by rw [← size, List.length_cons]; omega) others rfl
    rw [distinctKeys_cons, List.mem_cons, left]
    constructor
    · rintro (rfl | ⟨member, least⟩)
      · refine ⟨List.mem_cons_self, fun other member _ => ?_⟩
        rcases List.mem_cons.mp member with rfl | behind
        · simpa using Text.le_total other.name other.name
        · exact (ahead other behind).1
      · obtain ⟨member, differ⟩ := List.mem_filter.mp member
        refine ⟨List.mem_cons_of_mem first member, fun other inside same => ?_⟩
        have kept : other.key ≠ first.key := same ▸ by simpa using differ
        rcases List.mem_cons.mp inside with rfl | behind
        · exact absurd rfl kept
        · exact least other (List.mem_filter.mpr ⟨behind, by simpa using kept⟩) same
    · rintro ⟨member, least⟩
      rcases List.mem_cons.mp member with same | member
      · exact .inl same
      · have differ : candidate.key ≠ first.key := by
          -- With the key of the first candidate it could not come before that one.
          intro same
          have before := least first List.mem_cons_self same.symm
          obtain ⟨behind, other⟩ := ahead candidate member
          exact other (Text.le_antisymm _ _ behind before)
        refine .inr ⟨List.mem_filter.mpr ⟨member, by simpa using differ⟩, fun other inside same => ?_⟩
        exact least other (List.mem_cons_of_mem first (List.mem_filter.mp inside).1) same

end Choice

/-- What the properties of a table offer, in the order of their names. -/
def offered (isSnapshot : Bool) (table : Table) : List Candidate :=
  (table.entries.mergeSort fun a b => Text.le a.1 b.1).filterMap (offer? isSnapshot)

section Properties

variable {isSnapshot : Bool} {table : Table}

theorem mem_offered_iff {candidate : Candidate} :
    candidate ∈ offered isSnapshot table ↔ Offers isSnapshot table candidate := by
  simp only [offered, List.mem_filterMap, List.mem_mergeSort, offer?_eq_some_iff]
  constructor
  · rintro ⟨⟨name, value⟩, listed, rfl, eligible⟩
    exact ⟨value, listed, eligible⟩
  · rintro ⟨value, listed, eligible⟩
    exact ⟨_, listed, rfl, eligible⟩

theorem isOrdered_offered (distinct : table.HasDistinctNames) :
    IsOrdered (offered isSnapshot table) := by
  have sorted : (table.entries.mergeSort fun a b => Text.le a.1 b.1).Pairwise fun a b =>
      Text.le a.1 b.1 = true :=
    List.pairwise_mergeSort (fun a b c => Text.le_trans a.1 b.1 c.1) (fun a b => Text.le_total a.1 b.1) _
  have differ : (table.entries.mergeSort fun a b => Text.le a.1 b.1).Pairwise fun a b => a.1 ≠ b.1 :=
    List.pairwise_map.mp (((List.mergeSort_perm _ _).map _).nodup_iff.mpr distinct)
  have both := sorted.and differ
  refine both.filterMap _ fun entry other before first one second two => ?_
  rw [(offer?_eq_some_iff.mp one).1, (offer?_eq_some_iff.mp two).1]
  exact before

theorem selectProperty_packaged : selectProperty Settings.packaged isSnapshot table =
    select Settings.packaged isSnapshot "the Gradle properties"
      (distinctKeys (offered isSnapshot table)) := by
  have computed : (table.entries.mergeSort fun a b => Text.le a.1 b.1).mapM
      (candidate? Settings.packaged (usualRules isSnapshot)) =
        .ok ((table.entries.mergeSort fun a b => Text.le a.1 b.1).map (offer? isSnapshot)) := by
    simp only [funext (candidate?_packaged isSnapshot)]
    exact List.mapM_pure
  have kept : ((table.entries.mergeSort fun a b => Text.le a.1 b.1).map
      (offer? isSnapshot)).filterMap id = offered isSnapshot table := by
    rw [List.filterMap_map, offered]
    rfl
  calc
    _ = (((table.entries.mergeSort fun a b => Text.le a.1 b.1).mapM
          (candidate? Settings.packaged (usualRules isSnapshot))) >>= fun found =>
        select Settings.packaged isSnapshot "the Gradle properties"
          (distinctKeys (found.filterMap id))) := by
      rw [selectProperty, nameRules_packaged]
      rfl
    _ = select Settings.packaged isSnapshot "the Gradle properties"
        (distinctKeys (((table.entries.mergeSort fun a b => Text.le a.1 b.1).map
          (offer? isSnapshot)).filterMap id)) := by
      rw [computed]
      rfl
    _ = _ := by rw [kept]

theorem mem_offered_eq : (· ∈ offered isSnapshot table) = Offers isSnapshot table :=
  funext fun _ => propext mem_offered_iff

theorem mem_distinctKeys_offered_eq (distinct : table.HasDistinctNames) :
    (· ∈ distinctKeys (offered isSnapshot table)) = HoldsFirst (Offers isSnapshot table) := by
  funext candidate
  rw [← mem_offered_eq]
  exact propext (mem_distinctKeys_iff (isOrdered_offered distinct))

theorem selectProperty_of_isStrongest (distinct : table.HasDistinctNames) {chosen : Candidate}
    (strongest : IsStrongest isSnapshot (HoldsFirst (Offers isSnapshot table)) chosen) :
    selectProperty Settings.packaged isSnapshot table = .ok chosen.key := by
  rw [← mem_distinctKeys_offered_eq distinct] at strongest
  rw [selectProperty_packaged]
  exact select_of_isStrongest (isOrdered_offered distinct).distinctKeys strongest _

theorem exists_isStrongest_of_offers (distinct : table.HasDistinctNames) {candidate : Candidate}
    (offers : Offers isSnapshot table candidate) :
    (∃ best, IsStrongest isSnapshot (Offers isSnapshot table) best) ∧
      ∃ chosen, IsStrongest isSnapshot (HoldsFirst (Offers isSnapshot table)) chosen := by
  have ordered : IsOrdered (offered isSnapshot table) := isOrdered_offered distinct
  have nonempty : offered isSnapshot table ≠ [] := List.ne_nil_of_mem (mem_offered_iff.mpr offers)
  rw [← mem_distinctKeys_offered_eq distinct, ← mem_offered_eq]
  exact ⟨exists_isStrongest ordered nonempty,
    exists_isStrongest ordered.distinctKeys (distinctKeys_ne_nil nonempty)⟩

theorem selectProperty_eq_error_iff (distinct : table.HasDistinctNames) :
    selectProperty Settings.packaged isSnapshot table =
        .error (.noRepository "the Gradle properties") ↔
      ∀ candidate, ¬ Offers isSnapshot table candidate := by
  constructor
  · intro failed candidate offers
    obtain ⟨-, chosen, strongest⟩ := exists_isStrongest_of_offers distinct offers
    rw [selectProperty_of_isStrongest distinct strongest] at failed
    cases failed
  · intro none
    have empty : offered isSnapshot table = [] :=
      List.eq_nil_iff_forall_not_mem.mpr fun candidate member => none candidate (mem_offered_iff.mp member)
    rw [selectProperty_packaged, empty, select_packaged]
    rfl

/-- The key of the strongest is chosen exactly if every first holder of another key comes behind the
first holder of this key. -/
theorem choosesStrongest_iff (distinct : table.HasDistinctNames) :
    (ChoosesStrongest isSnapshot table ↔
      ∀ best other, IsStrongest isSnapshot (Offers isSnapshot table) best →
        HoldsFirst (Offers isSnapshot table) other → other.key ≠ best.key →
        ∃ holder, HoldsFirst (Offers isSnapshot table) holder ∧ holder.key = best.key ∧
          holder.Precedes isSnapshot other) ∧
    (∀ chosen, IsStrongest isSnapshot (HoldsFirst (Offers isSnapshot table)) chosen →
      selectProperty Settings.packaged isSnapshot table = .ok chosen.key) ∧
    (selectProperty Settings.packaged isSnapshot table =
        .error (.noRepository "the Gradle properties") ↔
      ∀ candidate, ¬ Offers isSnapshot table candidate) ∧
    ∀ candidate, Offers isSnapshot table candidate →
      (∃ best, IsStrongest isSnapshot (Offers isSnapshot table) best) ∧
        ∃ chosen, IsStrongest isSnapshot (HoldsFirst (Offers isSnapshot table)) chosen := by
  have absent := @selectProperty_eq_error_iff isSnapshot table distinct
  refine ⟨⟨fun chooses best other strongest held differ => ?_, fun behind => ⟨fun best strongest => ?_,
    absent⟩⟩, fun chosen => selectProperty_of_isStrongest distinct, absent,
    fun candidate => exists_isStrongest_of_offers distinct⟩
  · obtain ⟨-, chosen, first⟩ := exists_isStrongest_of_offers distinct strongest.among
    have found := chooses.found best strongest
    rw [selectProperty_of_isStrongest distinct first] at found
    exact ⟨chosen, first.among, Except.ok.inj found, first.precedes other held⟩
  · obtain ⟨-, chosen, first⟩ := exists_isStrongest_of_offers distinct strongest.among
    rw [selectProperty_of_isStrongest distinct first]
    by_contra differ
    obtain ⟨holder, held, same, precedes⟩ :=
      behind best chosen strongest first.among fun same => differ (congrArg _ same)
    obtain rfl : chosen = holder :=
      (isOrdered_offered distinct).eq_of_precedes (mem_offered_iff.mpr first.among.among)
        (mem_offered_iff.mpr held.among) (first.precedes holder held) precedes
    exact differ (congrArg _ same)

end Properties

/-! A property that is preferred for its name, but holds the key of a weaker one before it. -/

def rivalTable : Table := ⟨[("aRepo", "libs"), ("bDeploy", "other"), ("releaseRepo", "libs")]⟩

theorem distinct_rivalTable : rivalTable.HasDistinctNames := by
  unfold Table.HasDistinctNames
  decide

theorem offered_rivalTable : offered false rivalTable =
    [⟨"libs", "aRepo"⟩, ⟨"other", "bDeploy"⟩, ⟨"libs", "releaseRepo"⟩] := by
  have sorted : (rivalTable.entries.mergeSort fun a b => Text.le a.1 b.1) = rivalTable.entries :=
    List.mergeSort_of_pairwise (by decide)
  rw [offered, sorted]
  decide

theorem isStrongest_rivalTable :
    IsStrongest false (Offers false rivalTable) ⟨"libs", "releaseRepo"⟩ := by
  have ordered : IsOrdered (offered false rivalTable) := by
    rw [offered_rivalTable]
    unfold IsOrdered
    decide
  rw [← mem_offered_eq]
  apply isStrongest_of_strongest? ordered
  rw [offered_rivalTable]
  decide

theorem choosesStrongest_iff_rivalTable : rivalTable.HasDistinctNames ∧
    IsStrongest false (HoldsFirst (Offers false rivalTable)) ⟨"other", "bDeploy"⟩ ∧
    selectProperty Settings.packaged false rivalTable = .ok "other" := by
  have distinct := distinct_rivalTable
  have strongest : IsStrongest false (HoldsFirst (Offers false rivalTable)) ⟨"other", "bDeploy"⟩ := by
    rw [← mem_distinctKeys_offered_eq distinct]
    apply isStrongest_of_strongest? (isOrdered_offered distinct).distinctKeys
    rw [offered_rivalTable]
    decide
  exact ⟨distinct, strongest, (choosesStrongest_iff distinct).2.1 _ strongest⟩

/-- The strongest property is missed when a weaker one with its key comes before it. -/
theorem not_forall_choosesStrongest : ¬ ∀ (isSnapshot : Bool) (table : Table),
    table.HasDistinctNames → ChoosesStrongest isSnapshot table := by
  intro chooses
  have found := (chooses false rivalTable distinct_rivalTable).found _ isStrongest_rivalTable
  rw [selectProperty_packaged, offered_rivalTable, select_packaged] at found
  revert found
  decide

end Repository

end GradlePublishing
