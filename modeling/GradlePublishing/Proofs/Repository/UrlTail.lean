import GradlePublishing.Proofs.Repository.Failures
import GradlePublishing.Proofs.Repository.KeyText

/-!
The key in a URL does not depend on slashes, a query or a fragment at its end. It is the last of the
segments of the path, and the marker stands somewhere before it (`keyOfUrl_append_tail`).

Slashes at the end of a path add no segments to it. At the end of a very short URL they open an
authority, but an empty one, and what is left of them is a path without segments, as it was before
(`cutAuthority_append`).
-/

namespace GradlePublishing

namespace Url

/-! The path without its empty parts. -/

theorem segments_append_slash (path rest : Text) :
    segments (path ++ '/' :: rest) = segments path ++ segments rest := by
  rw [segments, List.splitOn_append_cons_of_beq path rest (by simp), List.filter_append]
  rfl

theorem segments_slashes (n : Nat) : segments (List.replicate n '/') = [] := by
  induction n with
  | zero => rfl
  | succ n ih => exact (segments_append_slash [] _).trans ih

theorem segments_append_slashes (path : Text) (n : Nat) :
    segments (path ++ List.replicate n '/') = segments path := by
  cases n with
  | zero => rw [List.replicate_zero, List.append_nil]
  | succ n => rw [List.replicate_succ, segments_append_slash, segments_slashes, List.append_nil]

/-! What stands behind a part of a URL. -/

/-- Neither a query nor a fragment starts in this text. -/
def IsPlain (s : Text) : Prop := '?' ∉ s ∧ '#' ∉ s

/-- A path ends before this text. -/
def EndsPath (rest : Text) : Prop := ∀ c, rest.head? = some c → c = '?' ∨ c = '#'

/-- An authority ends before this text. -/
def EndsAuthority (rest : Text) : Prop := ∀ c, rest.head? = some c → c = '/' ∨ c = '?' ∨ c = '#'

theorem IsPlain.of_subset {piece s : Text} (plain : IsPlain s) (inside : piece ⊆ s) : IsPlain piece :=
  ⟨fun member => plain.1 (inside member), fun member => plain.2 (inside member)⟩

theorem IsPlain.append_slashes {s : Text} (plain : IsPlain s) (n : Nat) :
    IsPlain (s ++ List.replicate n '/') := by
  constructor
  · simpa using plain.1
  · simpa using plain.2

theorem EndsPath.slashes {rest : Text} (ends : EndsPath rest) (n : Nat) :
    EndsAuthority (List.replicate n '/' ++ rest) := by
  intro c first
  cases n with
  | zero => exact .inr (ends c first)
  | succ n => exact .inl (Option.some.inj first).symm

theorem EndsAuthority.stops {tail : Text} (ends : EndsAuthority tail) :
    ∀ c, tail.head? = some c → (!endsAuthority c) = false := by
  intro c first
  rcases ends c first with rfl | rfl | rfl <;> rfl

theorem EndsPath.of_prefix {front rest : Text} (ends : EndsPath rest) (starts : front <+: rest) :
    EndsPath front := by
  obtain ⟨more, rfl⟩ := starts
  cases front with
  | nil => exact nofun
  | cons c front => exact ends

theorem EndsPath.filter {rest : Text} (ends : EndsPath rest) {p : Char → Bool}
    (query : p '?' = true) (fragment : p '#' = true) : EndsPath (rest.filter p) := by
  cases rest with
  | nil => exact ends
  | cons c rest =>
    have kept : p c = true := by
      rcases ends c rfl with rfl | rfl
      · exact query
      · exact fragment
    rw [List.filter_cons_of_pos kept]
    exact ends

/-! A URL whose path is followed by slashes. -/

section Tail

variable {s rest : Text}

theorem clean_append (ends : EndsPath rest) (n : Nat) : ∃ tail, EndsPath tail ∧
    clean (s ++ (List.replicate n '/' ++ rest)) = clean s ++ (List.replicate n '/' ++ tail) := by
  let isKept : Char → Bool := fun c => c != '\t' && c != '\n' && c != '\r'
  refine ⟨rest.filter isKept, ends.filter rfl rfl, ?_⟩
  have stops : ∀ c, (List.replicate n '/' ++ rest).head? = some c →
      decide (c.toNat ≤ 0x20) = false := by
    intro c first
    rcases ends.slashes n c first with rfl | rfl | rfl <;> rfl
  have slashes : (List.replicate n '/').filter isKept = List.replicate n '/' := by
    rw [List.filter_replicate]
    rfl
  rw [clean, Text.dropWhile_append_of_head? stops, List.filter_append, List.filter_append, slashes]
  rfl

/-- A colon in what ends an authority stands behind a character that no scheme holds. -/
theorem exists_before_late_colon {tail front behind : Text} (colon : ':' ∉ s)
    (ends : EndsAuthority tail) (cut : s ++ tail = front ++ ':' :: behind) :
    ∃ c ∈ front, isSchemeChar c = false := by
  have outside : ∀ c, tail.head? = some c → c ≠ ':' ∧ isSchemeChar c = false := by
    intro c first
    rcases ends c first with rfl | rfl | rfl <;> decide
  rcases List.append_eq_append_iff.mp cut with ⟨more, whole, same⟩ | ⟨more, whole, same⟩
  · cases more with
    | nil => exact absurd rfl (outside ':' (by rw [same]; rfl)).1
    | cons c more =>
      have inside : c ∈ front := whole ▸ List.mem_append_right s List.mem_cons_self
      exact ⟨c, inside, (outside c (by rw [same]; rfl)).2⟩
  · cases more with
    | nil => exact absurd rfl (outside ':' (by rw [← List.nil_append tail, ← same]; rfl)).1
    | cons c more =>
      cases same
      exact absurd (whole ▸ List.mem_append_right front List.mem_cons_self) colon

theorem cutScheme_append {tail : Text} (ends : EndsAuthority tail) :
    cutScheme (s ++ tail) = ((cutScheme s).1, (cutScheme s).2 ++ tail) := by
  cases found : Text.cut? ':' s with
  | some parts =>
    obtain ⟨before, after⟩ := parts
    rw [cutScheme, cutScheme, found, Text.cut?_extend found]
    cases before with
    | nil => rfl
    | cons c scheme =>
      dsimp only
      split <;> rfl
  | none =>
    have whole : cutScheme s = ([], s) := by rw [cutScheme, found]
    rw [whole, cutScheme]
    split
    · rename_i c scheme after cut
      obtain ⟨d, member, foreign⟩ := exists_before_late_colon (Text.not_mem_of_cut?_eq_none found) ends
        (Text.cut?_eq_some cut)
      refine if_neg fun isScheme => ?_
      rw [Bool.and_eq_true, List.all_eq_true] at isScheme
      rcases List.mem_cons.mp member with rfl | later
      · simp [isSchemeChar, Char.isAlphanum, isScheme.1] at foreign
      · rw [isScheme.2 d later] at foreign
        cases foreign
    · rfl

theorem opened_of_append {behind : Text} {n : Nat} (closed : Text.after? "//" s = none)
    (ends : EndsPath rest) (opened : s ++ (List.replicate n '/' ++ rest) = "//".toList ++ behind) :
    segments s = [] ∧ ∃ more, behind = List.replicate more '/' ++ rest := by
  have first {m : Nat} {t : Text} (starts : List.replicate m '/' ++ rest = '/' :: t) :
      ∃ more, m = more + 1 ∧ t = List.replicate more '/' ++ rest := by
    cases m with
    | zero =>
      rw [List.replicate_zero, List.nil_append] at starts
      rcases ends '/' (by rw [starts]; rfl) with other | other <;> cases other
    | succ more => exact ⟨more, rfl, (List.cons.inj starts).2.symm⟩
  match s with
  | [] =>
    obtain ⟨more, rfl, next⟩ := first opened
    obtain ⟨more, rfl, same⟩ := first next.symm
    exact ⟨rfl, more, same⟩
  | [c] =>
    obtain ⟨rfl, next⟩ := List.cons.inj opened
    obtain ⟨more, rfl, same⟩ := first next
    exact ⟨rfl, more, same⟩
  | c :: d :: s =>
    obtain ⟨rfl, next⟩ := List.cons.inj opened
    obtain ⟨rfl, -⟩ := List.cons.inj next
    cases closed

/-- The slashes behind a path go to it, and may leave an empty authority before it. -/
theorem cutAuthority_append (plain : IsPlain s) (ends : EndsPath rest) (n : Nat) :
    ∃ path, cutAuthority (s ++ (List.replicate n '/' ++ rest)) = ((cutAuthority s).1, path ++ rest) ∧
      IsPlain path ∧ segments path = segments (cutAuthority s).2 := by
  cases found : Text.after? "//" s with
  | some behind =>
    obtain rfl := Text.after?_eq_some_iff.mp found
    have longer : Text.after? "//" ("//".toList ++ behind ++ (List.replicate n '/' ++ rest)) =
        some (behind ++ (List.replicate n '/' ++ rest)) :=
      Text.after?_eq_some_iff.mpr (List.append_assoc _ _ _)
    have inside : behind.dropWhile (!endsAuthority ·) ⊆ behind := (List.dropWhile_suffix _).subset
    have path : IsPlain (behind.dropWhile (!endsAuthority ·)) :=
      plain.of_subset (List.Subset.trans inside (List.subset_append_right _ _))
    refine ⟨behind.dropWhile (!endsAuthority ·) ++ List.replicate n '/', ?_, path.append_slashes n, ?_⟩
    · have stops := (ends.slashes n).stops
      rw [cutAuthority, cutAuthority, found, longer]
      dsimp only
      rw [Text.dropWhile_append_of_head? stops, Text.takeWhile_append_of_head? stops,
        List.append_assoc]
    · rw [cutAuthority, found, segments_append_slashes]
  | none =>
    have whole : cutAuthority s = ([], s) := by rw [cutAuthority, found]
    rw [whole]
    cases opened : Text.after? "//" (s ++ (List.replicate n '/' ++ rest)) with
    | none =>
      refine ⟨s ++ List.replicate n '/', ?_, plain.append_slashes n, segments_append_slashes s n⟩
      rw [cutAuthority, opened, List.append_assoc]
    | some behind =>
      obtain ⟨empty, more, rfl⟩ :=
        opened_of_append found ends (Text.after?_eq_some_iff.mp opened)
      refine ⟨List.replicate more '/', ?_, IsPlain.append_slashes (s := []) ⟨nofun, nofun⟩ more, ?_⟩
      · have stops := (ends.slashes more).stops
        have taken := Text.takeWhile_append_of_head? stops []
        have dropped := Text.dropWhile_append_of_head? stops []
        rw [List.nil_append] at taken dropped
        rw [cutAuthority, opened]
        dsimp only
        rw [taken, dropped]
        rfl
      · rw [segments_slashes, empty]

/-- The segments of the path of a URL that can be split. -/
def segments? (s : Text) : Option (List Text) := (split s).toOption.map (segments ·.path)

theorem segments?_eq_some_iff {url : Text} {parts : List Text} : segments? url = some parts ↔
    ∃ cut, split url = .ok cut ∧ segments cut.path = parts := by
  unfold segments?
  cases split url with
  | ok parts => simp [Except.toOption]
  | error fault => simp [Except.toOption]

theorem cutAt_fst (mark : Char) (s : Text) : (cutAt mark s).1 = s.takeWhile (· != mark) := by
  unfold cutAt Text.cut?
  split
  · rename_i dropped
    have whole := List.takeWhile_append_dropWhile (p := (· != mark)) (l := s)
    rw [dropped, List.append_nil] at whole
    exact whole.symm
  · rfl

theorem segments?_eq (s : Text) : segments? s =
    if (authorityFault? (cutAuthority (cutScheme (clean s)).2).1).isSome then none
    else some (segments (cutAt '?' (cutAt '#' (cutAuthority (cutScheme (clean s)).2).2).1).1) := by
  rw [segments?, split]
  dsimp only
  cases authorityFault? (cutAuthority (cutScheme (clean s)).2).1 <;> rfl

theorem cutAt_append {path : Text} (plain : IsPlain path) (ends : EndsPath rest) :
    (cutAt '?' (cutAt '#' (path ++ rest)).1).1 = path := by
  have outside : ∀ c ∈ path, (c != '#') = true ∧ (c != '?') = true := by
    intro c member
    rw [bne_iff_ne, bne_iff_ne]
    exact ⟨fun same => plain.2 (same ▸ member), fun same => plain.1 (same ▸ member)⟩
  have query : (rest.takeWhile (· != '#')).takeWhile (· != '?') = [] := by
    cases rest with
    | nil => rfl
    | cons c rest => rcases ends c rfl with rfl | rfl <;> rfl
  rw [cutAt_fst, cutAt_fst, List.takeWhile_append_of_pos fun c member => (outside c member).1,
    List.takeWhile_append_of_pos fun c member => (outside c member).2, query, List.append_nil]

theorem segments?_append (plain : IsPlain s) (ends : EndsPath rest) (n : Nat) :
    segments? (s ++ (List.replicate n '/' ++ rest)) = segments? s := by
  have cleaned : IsPlain (clean s) :=
    plain.of_subset (List.Subset.trans List.filter_sublist.subset (List.dropWhile_suffix _).subset)
  have behindScheme : IsPlain (cutScheme (clean s)).2 :=
    cleaned.of_subset (cutScheme_isSuffix (clean s)).subset
  have behindAuthority : IsPlain (cutAuthority (cutScheme (clean s)).2).2 :=
    behindScheme.of_subset (cutAuthority_isSuffix _).subset
  have bare := cutAt_append behindAuthority (show EndsPath [] from nofun)
  obtain ⟨tail, closes, extended⟩ := clean_append (s := s) ends n
  obtain ⟨path, parted, inner, same⟩ := cutAuthority_append behindScheme closes n
  rw [List.append_nil] at bare
  rw [segments?_eq, segments?_eq, extended, cutScheme_append (closes.slashes n), parted,
    cutAt_append inner closes, bare, same]

end Tail

end Url

/-- What may follow the path of a URL. If there is a `#` in the query, the fragment starts there. -/
structure UrlTail where
  slashes : Nat
  query : Option Text
  fragment : Option Text

namespace UrlTail

def part (mark : Char) : Option Text → Text
  | some text => mark :: text
  | none => []

def ending (tail : UrlTail) : Text := part '?' tail.query ++ part '#' tail.fragment

def text (tail : UrlTail) : Text := List.replicate tail.slashes '/' ++ tail.ending

theorem endsPath_ending : (tail : UrlTail) → Url.EndsPath tail.ending
  | ⟨_, some _, _⟩, _, first => .inl (Option.some.inj first).symm
  | ⟨_, none, some _⟩, _, first => .inr (Option.some.inj first).symm
  | ⟨_, none, none⟩, _, first => nomatch first

end UrlTail

namespace Repository

/-- An empty URL needs no clause of its own, since its path has no segments. -/
theorem keyOfUrl_eq_ok_iff {url key : Text} : keyOfUrl Settings.packaged url = .ok key ↔
    ∃ parts front, Url.split (Text.strip url) = .ok parts ∧
      Url.segments parts.path = front ++ [key] ∧ "artifactory".toList ∈ front := by
  have marker : Settings.packaged.text .urlMarker = .ok "artifactory" :=
    Settings.text_packaged .urlMarker (by decide)
  constructor
  · intro found
    obtain ⟨path, cut, found⟩ := bind_eq_ok_iff.mp found
    obtain ⟨given, known, found⟩ := bind_eq_ok_iff.mp found
    obtain ⟨-, parts, parted, rfl⟩ := pathOfUrl_eq_ok_iff.mp cut
    obtain ⟨front, whole, member⟩ := keyInPath_eq_ok_iff.mp found
    obtain rfl := Except.ok.inj (marker.symm.trans known)
    exact ⟨parts, front, parted, whole, member⟩
  · rintro ⟨parts, front, cut, whole, member⟩
    have filled : Text.strip url ≠ [] := by
      intro empty
      rw [empty] at cut
      obtain rfl := Except.ok.inj ((rfl : Url.split [] = .ok ⟨[], [], [], [], []⟩).symm.trans cut)
      exact List.append_ne_nil_of_right_ne_nil front (List.cons_ne_nil key []) whole.symm
    refine bind_eq_ok_iff.mpr ⟨parts.path, pathOfUrl_eq_ok_iff.mpr ⟨filled, parts, cut, rfl⟩, ?_⟩
    exact bind_eq_ok_iff.mpr ⟨_, marker, keyInPath_eq_ok_iff.mpr ⟨front, whole, member⟩⟩

theorem keyOfUrl_eq_ok_iff_segments? {url key : Text} : keyOfUrl Settings.packaged url = .ok key ↔
    ∃ front, Url.segments? (Text.strip url) = some (front ++ [key]) ∧
      "artifactory".toList ∈ front := by
  rw [keyOfUrl_eq_ok_iff]
  constructor
  · rintro ⟨parts, front, cut, whole, member⟩
    exact ⟨front, Url.segments?_eq_some_iff.mpr ⟨parts, cut, whole⟩, member⟩
  · rintro ⟨front, found, member⟩
    obtain ⟨parts, cut, whole⟩ := Url.segments?_eq_some_iff.mp found
    exact ⟨parts, front, cut, whole, member⟩

/-- Blanks at the end of a URL belong to what follows its path. -/
theorem strip_append {url rest : Text} (trimmed : url.IsTrimmed) (ends : Url.EndsPath rest) (n : Nat) :
    ∃ tail, Url.EndsPath tail ∧ Text.strip (url ++ (List.replicate n '/' ++ rest)) =
      url ++ (List.replicate n '/' ++ tail) := by
  have start : ∀ c, (url ++ (List.replicate n '/' ++ rest)).head? = some c → Text.isBlank c = false := by
    intro c first
    cases url with
    | nil => rcases ends.slashes n c first with rfl | rfl | rfl <;> rfl
    | cons d url => exact trimmed.start c first
  have slashes : Text.stripEnd (List.replicate n '/') = List.replicate n '/' := by
    refine Text.stripEnd_eq_self_iff.mpr fun c last => ?_
    obtain rfl := List.eq_of_mem_replicate (List.mem_of_getLast? last)
    rfl
  refine ⟨Text.stripEnd rest, ends.of_prefix (List.rdropWhile_prefix _ _), ?_⟩
  rw [Text.strip, Text.stripStart_eq_self_iff.mpr start,
    Text.stripEnd_append_of_kept _ (Text.stripEnd_eq_self_iff.mpr trimmed.finish),
    Text.stripEnd_append_of_kept _ slashes]

/-- What follows the path of a URL does not matter to its key, nor to whether it has one. The key is the
last segment of the path, and the marker stands before it. -/
theorem keyOfUrl_append_tail {url : Text} (trimmed : url.IsTrimmed) (query : '?' ∉ url)
    (fragment : '#' ∉ url) :
    (∀ tail : UrlTail,
      (∃ key, keyOfUrl Settings.packaged url = .ok key ∧
        keyOfUrl Settings.packaged (url ++ tail.text) = .ok key) ∨
      (∃ failure other, isKeyless failure = true ∧ isKeyless other = true ∧
        keyOfUrl Settings.packaged url = .error failure ∧
        keyOfUrl Settings.packaged (url ++ tail.text) = .error other)) ∧
    ∀ key, keyOfUrl Settings.packaged url = .ok key ↔
      ∃ parts front, Url.split url = .ok parts ∧
        Url.segments parts.path = front ++ [key] ∧ "artifactory".toList ∈ front := by
  have bare : Text.strip url = url := Text.strip_eq_self_iff.mpr trimmed
  have same (tail : UrlTail) (key : Text) :
      keyOfUrl Settings.packaged (url ++ tail.text) = .ok key ↔
        keyOfUrl Settings.packaged url = .ok key := by
    obtain ⟨rest, ends, stripped⟩ := strip_append trimmed tail.endsPath_ending tail.slashes
    have alike := Url.segments?_append ⟨query, fragment⟩ ends tail.slashes
    rw [keyOfUrl_eq_ok_iff_segments?, keyOfUrl_eq_ok_iff_segments?, UrlTail.text, stripped, alike, bare]
  constructor
  · intro tail
    cases found : keyOfUrl Settings.packaged url with
    | ok key => exact .inl ⟨key, rfl, (same tail key).mpr found⟩
    | error failure =>
      right
      cases other : keyOfUrl Settings.packaged (url ++ tail.text) with
      | ok key =>
        rw [(same tail key).mp other] at found
        cases found
      | error later =>
        exact ⟨failure, later, isKeyless_of_keyOfUrl found, isKeyless_of_keyOfUrl other, rfl, rfl⟩
  · intro key
    rw [keyOfUrl_eq_ok_iff, bare]

/-! A URL in which only the marker stands, and one that is opened by the slashes behind it. -/

def markedUrl : Text := "//artifactory/artifactory/artifactory"

def longTail : UrlTail := ⟨2, some "/artifactory/x", some "?y "⟩

theorem keyOfUrl_append_longTail :
    (markedUrl.IsTrimmed ∧ '?' ∉ markedUrl ∧ '#' ∉ markedUrl ∧
      keyOfUrl Settings.packaged (markedUrl ++ longTail.text) = .ok "artifactory") ∧
    (Text.IsTrimmed "/" ∧ '?' ∉ "/".toList ∧ '#' ∉ "/".toList ∧
      ∃ failure, isKeyless failure = true ∧
        keyOfUrl Settings.packaged ("/".toList ++ longTail.text) = .error failure) := by
  have trimmed : markedUrl.IsTrimmed ∧ Text.IsTrimmed "/" :=
    ⟨Text.strip_eq_self_iff.mp (by decide), Text.strip_eq_self_iff.mp (by decide)⟩
  have marked := keyOfUrl_append_tail trimmed.1 (by decide) (by decide)
  have opened := keyOfUrl_append_tail trimmed.2 (by decide) (by decide)
  refine ⟨⟨trimmed.1, by decide, by decide, ?_⟩, ⟨trimmed.2, by decide, by decide, ?_⟩⟩
  · have held : keyOfUrl Settings.packaged markedUrl = .ok "artifactory" :=
      (marked.2 _).mpr ⟨_, ["artifactory".toList], rfl, by decide, by decide⟩
    rcases marked.1 longTail with ⟨key, found, same⟩ | ⟨_, _, -, -, found, -⟩
    · rw [held] at found
      cases found
      exact same
    · rw [held] at found
      cases found
  · rcases opened.1 longTail with ⟨key, found, -⟩ | ⟨-, other, -, keyless, -, failed⟩
    · obtain ⟨parts, front, cut, whole, -⟩ := (opened.2 key).mp found
      obtain rfl := Except.ok.inj ((rfl : Url.split "/" = .ok ⟨[], [], "/", [], []⟩).symm.trans cut)
      exact absurd whole.symm (List.append_ne_nil_of_right_ne_nil front (List.cons_ne_nil key []))
    · exact ⟨other, keyless, failed⟩

end Repository

end GradlePublishing
