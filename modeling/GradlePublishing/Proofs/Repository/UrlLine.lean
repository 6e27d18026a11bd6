import GradlePublishing.Proofs.Script.Enclosed
import GradlePublishing.Proofs.Script.LineReader
import GradlePublishing.Proofs.Script.QuotedReader

/-!
Lines that assign a URL. Each dialect has its forms (`Assignment`), with any space between their parts;
the URL itself may hold braces, comment marks, backslashes or what looks like another assignment. Whole
lines of this kind give their URLs in order (`urlsInBlock_flatMap`), and their code keeps to a few
letters (`codeOf_text`), so that no search for blocks stops in them.
-/

namespace GradlePublishing.Repository

open Script

inductive Assignment : Dialect → Type
  /-- As in `url "…"`. -/
  | plain : Assignment .groovy
  /-- As in `url: "…"`. -/
  | colon : Assignment .groovy
  /-- As in `url = "…"`. -/
  | equals (dialect : Dialect) : Assignment dialect
  /-- As in `url("…")`. -/
  | call : Assignment .kotlin
  /-- As in `url.set("…")`. -/
  | set : Assignment .kotlin
  deriving DecidableEq, Repr

namespace Assignment

variable {dialect : Dialect}

def method : Assignment dialect → Text
  | plain | colon | equals _ | call => []
  | set => ".set"

def sign : Assignment dialect → Text
  | plain => []
  | colon => ":"
  | equals _ => "="
  | call | set => "("

def ending : Assignment dialect → Text
  | plain | colon | equals _ => []
  | call | set => ")"

end Assignment

structure UriCall where
  name : Gap
  opening : Gap
  closing : Gap

structure QuotedUrl where
  quote : Char
  url : Text
  quotes : Text.isQuote quote = true
  nonempty : url ≠ []
  stripped : Text.strip url = url
  single : '\n' ∉ url
  unquoted : quote ∉ url

def QuotedUrl.text (literal : QuotedUrl) : Text :=
  literal.quote :: (literal.url ++ [literal.quote])

/-- A line that assigns a URL, with the space between its parts. -/
structure UrlLine (dialect : Dialect) where
  indent : Gap
  assignment : Assignment dialect
  name : Gap
  sign : Gap
  call : Option UriCall
  literal : QuotedUrl
  closing : Gap

namespace UrlLine

variable {dialect : Dialect} (line : UrlLine dialect)

def uri : Text :=
  match line.call with
  | some call => "uri".toList ++ (call.name.val ++ '(' :: call.opening.val)
  | none => []

def head : Text :=
  "url".toList ++ (line.assignment.method ++ (line.name.val ++ (line.assignment.sign ++
    (line.sign.val ++ line.uri))))

def tail : Text :=
  (match line.call with
    | some call => call.closing.val ++ [')']
    | none => []) ++ (line.closing.val ++ line.assignment.ending)

def text : Text := line.indent.val ++ (line.head ++ (line.literal.text ++ (line.tail ++ ['\n'])))

def letters : Text := "urlseti.:=() \t"

theorem uri_subset : line.uri ⊆ letters := by
  have gap (gap : Gap) : gap.val ⊆ letters := Gap.subset gap (by decide) (by decide)
  unfold uri
  split
  · have word : "uri".toList ⊆ letters := by decide
    have paren : '(' ∈ letters := by decide
    exact List.append_subset.mpr ⟨word, List.append_subset.mpr
      ⟨gap _, List.cons_subset.mpr ⟨paren, gap _⟩⟩⟩
  · exact List.nil_subset _

theorem head_subset : line.head ⊆ letters := by
  have gap (gap : Gap) : gap.val ⊆ letters := Gap.subset gap (by decide) (by decide)
  have word : "url".toList ⊆ letters := by decide
  have parts (assignment : Assignment dialect) :
      assignment.method ⊆ letters ∧ assignment.sign ⊆ letters := by
    cases dialect <;> cases assignment <;> decide
  obtain ⟨method, sign⟩ := parts line.assignment
  exact List.append_subset.mpr ⟨word, List.append_subset.mpr ⟨method, List.append_subset.mpr ⟨gap _,
    List.append_subset.mpr ⟨sign, List.append_subset.mpr ⟨gap _, line.uri_subset⟩⟩⟩⟩⟩

theorem tail_subset : line.tail ⊆ [')', ' ', '\t'] := by
  have gap (gap : Gap) : gap.val ⊆ [')', ' ', '\t'] := Gap.subset gap (by decide) (by decide)
  have ending (assignment : Assignment dialect) : assignment.ending ⊆ [')', ' ', '\t'] := by
    cases dialect <;> cases assignment <;> decide
  refine List.append_subset.mpr ⟨?_, List.append_subset.mpr ⟨gap _, ending _⟩⟩
  split
  · exact List.append_subset.mpr ⟨gap _, by decide⟩
  · exact List.nil_subset _

theorem mark_text : ∃ literal rest, mark line.text =
    asCode (line.indent.val ++ line.head) ++ (literal ++ (asCode rest ++ [('\n', .code)])) ∧
      codeOf literal = [] ∧ rest ⊆ line.tail := by
  have plain : ∀ c ∈ line.indent.val ++ line.head, isPlain c = true := by
    have all : ∀ c ∈ letters, isPlain c = true := List.all_eq_true.mp (by decide)
    intro c member
    rcases List.mem_append.mp member with member | member
    · exact line.indent.isPlain c member
    · exact all c (line.head_subset member)
  obtain ⟨literal, rest, marked, empty, within⟩ := mark_quoted line.literal.quotes
    line.literal.nonempty line.literal.single line.literal.unquoted line.tail_subset
  refine ⟨literal, rest, ?_, empty, within⟩
  have text : line.text = (line.indent.val ++ line.head) ++
      line.literal.quote :: (line.literal.url ++ line.literal.quote :: (line.tail ++ ['\n'])) := by
    simp [UrlLine.text, QuotedUrl.text]
  rw [text, mark_plain_append plain, marked]

theorem codeOf_text : codeOf (mark line.text) ⊆ '\n' :: letters := by
  obtain ⟨literal, rest, marked, empty, within⟩ := line.mark_text
  have closing : [')', ' ', '\t'] ⊆ '\n' :: letters := by decide
  have indent : line.indent.val ⊆ '\n' :: letters := Gap.subset line.indent (by decide) (by decide)
  have head : line.head ⊆ '\n' :: letters := fun c member => List.mem_cons_of_mem _ (line.head_subset member)
  have tail : rest ⊆ '\n' :: letters := fun c member => closing (line.tail_subset (within member))
  simp only [marked, codeOf_append, codeOf_asCode, empty, List.nil_append, codeOf_cons_code, codeOf_nil]
  exact List.append_subset.mpr ⟨List.append_subset.mpr ⟨indent, head⟩,
    List.append_subset.mpr ⟨tail, by decide⟩⟩

theorem isWhole_text : IsWhole line.text where
  ends := by
    obtain ⟨literal, rest, marked, -⟩ := line.mark_text
    exact .inr ⟨asCode (line.indent.val ++ line.head) ++ (literal ++ asCode rest), by
      rw [marked, List.append_assoc, List.append_assoc]⟩
  balanced := by
    have absent {c : Char} (other : c ∉ '\n' :: letters) : c ∉ codeOf (mark line.text) :=
      fun member => other (line.codeOf_text member)
    exact .of_no_brace (absent (by decide)) (absent (by decide))

end UrlLine

/-! Reading the URL of a line back. -/

theorem quotedValue?_text (literal : QuotedUrl) (behind : Text) :
    quotedValue? (literal.text ++ behind) = some (literal.url, behind) := by
  rw [QuotedUrl.text, List.cons_append, List.append_assoc, List.singleton_append]
  exact quotedValue?_quoted literal.quotes literal.nonempty literal.single literal.unquoted behind

theorem QuotedUrl.quote_eq (literal : QuotedUrl) : literal.quote = '"' ∨ literal.quote = '\'' := by
  simpa [Text.isQuote] using literal.quotes

namespace UrlLine

variable {dialect : Dialect} (line : UrlLine dialect)

/-- What stands behind the sign of an assignment: a literal, perhaps in `uri(…)`. -/
theorem exists_uri_append (behind : Text) : ∃ c more,
    line.uri ++ (line.literal.text ++ behind) = c :: more ∧ isGap c = false ∧ c ≠ ':' ∧ c ≠ '=' := by
  cases called : line.call with
  | some call => exact ⟨'u', _, by rw [uri, called]; rfl, by decide⟩
  | none =>
    refine ⟨line.literal.quote, _, by rw [uri, called]; rfl, ?_⟩
    rcases line.literal.quote_eq with same | same
    all_goals
      rw [same]
      decide

theorem skipGap_uri (gap : Gap) (behind : Text) :
    skipGap (gap.val ++ (line.uri ++ (line.literal.text ++ behind))) =
      line.uri ++ (line.literal.text ++ behind) := by
  obtain ⟨c, more, start, solid, -⟩ := line.exists_uri_append behind
  rw [skipGap_append, start, skipGap_cons solid]

theorem skipAssign_uri (behind : Text) :
    skipAssign (line.uri ++ (line.literal.text ++ behind)) =
      line.uri ++ (line.literal.text ++ behind) := by
  obtain ⟨c, more, start, -, colon, equals⟩ := line.exists_uri_append behind
  rw [start, skipAssign]
  exact if_neg (by simp [colon, equals])

theorem skipUriCall_uri (behind : Text) :
    skipUriCall (line.uri ++ (line.literal.text ++ behind)) = line.literal.text ++ behind := by
  have solid : isGap line.literal.quote = false ∧ 'u' ≠ line.literal.quote := by
    rcases line.literal.quote_eq with same | same
    all_goals
      rw [same]
      decide
  cases called : line.call with
  | none =>
    have absent : Text.after? "uri" (line.literal.text ++ behind) = none := by
      rw [QuotedUrl.text, List.cons_append]
      exact if_neg solid.2
    rw [uri, called, List.nil_append, skipUriCall, absent]
    rfl
  | some call =>
    have name : Text.after? "uri" ("uri".toList ++ (call.name.val ++ '(' :: call.opening.val) ++
        (line.literal.text ++ behind)) =
          some (call.name.val ++ '(' :: (call.opening.val ++ (line.literal.text ++ behind))) :=
      Text.after?_eq_some_iff.mpr (by simp)
    have paren : Text.after? "(" (skipGap (call.name.val ++
        '(' :: (call.opening.val ++ (line.literal.text ++ behind)))) =
          some (call.opening.val ++ (line.literal.text ++ behind)) := by
      rw [skipGap_append, skipGap_cons rfl]
      rfl
    rw [uri, called]
    dsimp only
    rw [skipUriCall, name, Option.bind_some, paren]
    dsimp only
    rw [skipGap_append, QuotedUrl.text, List.cons_append, skipGap_cons solid.1]

theorem after?_head (s : Text) : Text.after? "url" (line.head ++ s) =
    some (line.assignment.method ++ (line.name.val ++ (line.assignment.sign ++
      (line.sign.val ++ (line.uri ++ s))))) :=
  Text.after?_eq_some_iff.mpr (by simp [head])

theorem groovyUrl?_head (line : UrlLine .groovy) (behind : Text) :
    groovyUrl? (line.head ++ (line.literal.text ++ behind)) = some (line.literal.url, behind) := by
  have assigned : skipAssign (skipGap (line.assignment.method ++ (line.name.val ++
      (line.assignment.sign ++ (line.sign.val ++ (line.uri ++ (line.literal.text ++ behind))))))) =
        line.uri ++ (line.literal.text ++ behind) := by
    cases line.assignment with
    | plain =>
      rw [Assignment.method, List.nil_append, skipGap_append, Assignment.sign, List.nil_append,
        skipGap_uri, skipAssign_uri]
    | colon =>
      rw [Assignment.method, List.nil_append, skipGap_append]
      exact line.skipGap_uri line.sign behind
    | equals =>
      rw [Assignment.method, List.nil_append, skipGap_append]
      exact line.skipGap_uri line.sign behind
  rw [groovyUrl?, after?_head, Option.bind_eq_bind, Option.bind_some, assigned, skipUriCall_uri,
    quotedValue?_text]

theorem skipOptional_set (gap : Gap) {sign : Char} (dot : '.' ≠ sign) (rest : Text) :
    skipOptional ".set" (gap.val ++ sign :: rest) = gap.val ++ sign :: rest := by
  have absent : Text.after? ".set" (gap.val ++ sign :: rest) = none := by
    obtain ⟨gap, gaps⟩ := gap
    cases gap with
    | nil => exact if_neg dot
    | cons c gap =>
      have other : '.' ≠ c := by
        rintro rfl
        exact absurd (gaps _ List.mem_cons_self) (by decide)
      exact if_neg other
  rw [skipOptional, absent, Option.getD_none]

theorem kotlinUrl?_head (line : UrlLine .kotlin) (behind : Text) :
    kotlinUrl? (line.head ++ (line.literal.text ++ behind)) = some (line.literal.url, behind) := by
  have direct {sign : Char} (dot : '.' ≠ sign) (rest : Text) :
      skipGap (skipOptional ".set" (line.name.val ++ sign :: rest)) = skipGap (sign :: rest) := by
    rw [skipOptional_set line.name dot, skipGap_append]
  have signed : ∃ sign, (sign == '(' || sign == '=') = true ∧
      skipGap (skipOptional ".set" (line.assignment.method ++ (line.name.val ++ (line.assignment.sign ++
        (line.sign.val ++ (line.uri ++ (line.literal.text ++ behind))))))) =
          sign :: (line.sign.val ++ (line.uri ++ (line.literal.text ++ behind))) := by
    cases line.assignment with
    | equals => exact ⟨'=', rfl, direct (by decide) _⟩
    | call => exact ⟨'(', rfl, direct (by decide) _⟩
    | set => exact ⟨'(', rfl, skipGap_append _ _⟩
  obtain ⟨sign, opens, passed⟩ := signed
  rw [kotlinUrl?, after?_head, Option.bind_eq_bind, Option.bind_some, passed]
  dsimp only
  rw [if_pos opens, skipGap_uri, skipUriCall_uri, quotedValue?_text]

theorem assignedUrl?_head {before : Option Char} (starts : Text.startsWord before = true)
    (behind : Text) : assignedUrl? dialect before (line.head ++ (line.literal.text ++ behind)) =
      some (line.literal.url, behind) := by
  unfold assignedUrl?
  rw [if_pos starts]
  cases dialect with
  | groovy => exact line.groovyUrl?_head behind
  | kotlin => exact line.kotlinUrl?_head behind

end UrlLine

theorem startsWith_assignedUrl? (dialect : Dialect) : StartsWith 'u' (assignedUrl? dialect) :=
  (isQuotedReader_assignedUrl? dialect).startsWith rfl

namespace UrlLine

variable {dialect : Dialect} (line : UrlLine dialect)

theorem occurrences_text : occurrences (assignedUrl? dialect) line.text =
    [⟨line.indent.val.length, line.literal.url⟩] := by
  have closing : 'u' ∉ line.tail ++ ['\n'] := by
    have other : 'u' ∉ [')', ' ', '\t'] ∧ 'u' ∉ ['\n'] := by decide
    rw [List.mem_append, not_or]
    exact ⟨fun member => other.1 (line.tail_subset member), other.2⟩
  obtain ⟨more, start⟩ : ∃ more, line.head = 'u' :: more := ⟨_, rfl⟩
  have text : line.text = line.indent.val ++ 'u' :: ((more ++ line.literal.text) ++ (line.tail ++ ['\n'])) := by
    rw [UrlLine.text, start, List.cons_append, List.append_assoc]
  rw [text]
  apply occurrences_single (startsWith_assignedUrl? dialect) rfl line.indent _ closing
  intro before free
  have read := line.assignedUrl?_head free (line.tail ++ ['\n'])
  rwa [start, List.cons_append, ← List.append_assoc] at read

end UrlLine

def codeAssignments (dialect : Dialect) (body : Text) : List (Found Text) :=
  (occurrences (assignedUrl? dialect) body).filter fun found =>
    (Script.classify body)[found.offset]? == some .code

theorem urlsInBlock_eq (dialect : Dialect) (body : Text) : urlsInBlock dialect body =
    (((codeAssignments dialect body).map Found.value).map Text.strip).filter (!·.isEmpty) := by
  rw [List.map_map]
  rfl

theorem urlsInBlock_append (dialect : Dialect) {front : Text} (ends : EndsLine front) (behind : Text) :
    urlsInBlock dialect (front ++ behind) = urlsInBlock dialect front ++ urlsInBlock dialect behind := by
  have split : codeAssignments dialect (front ++ behind) = codeAssignments dialect front ++
      (codeAssignments dialect behind).map (Found.shift front.length) :=
    (readsByLine_assignedUrl? dialect).append ends behind
  have values : ((codeAssignments dialect behind).map (Found.shift front.length)).map Found.value =
      (codeAssignments dialect behind).map Found.value := by
    rw [List.map_map]
    rfl
  rw [urlsInBlock_eq, split, List.map_append, values, List.map_append, List.filter_append,
    ← urlsInBlock_eq, ← urlsInBlock_eq]

theorem urlsInBlock_eq_nil (dialect : Dialect) {body : Text} (absent : 'u' ∉ body) :
    urlsInBlock dialect body = [] := by
  rw [urlsInBlock_eq, codeAssignments, occurrences, occurrencesFrom_eq_nil (startsWith_assignedUrl? dialect) absent]
  rfl

namespace UrlLine

variable {dialect : Dialect}

theorem urlsInBlock_text (line : UrlLine dialect) :
    urlsInBlock dialect line.text = [line.literal.url] := by
  have kind : (Script.classify line.text)[line.indent.val.length]? = some .code := by
    obtain ⟨literal, rest, marked, -⟩ := line.mark_text
    rw [Script.classify, marked]
    simp [asCode, head]
  have kept : codeAssignments dialect line.text = [⟨line.indent.val.length, line.literal.url⟩] := by
    rw [codeAssignments, line.occurrences_text]
    exact List.filter_cons_of_pos (by simp [kind])
  rw [urlsInBlock_eq, kept, List.map_singleton, List.map_singleton, line.literal.stripped]
  exact List.filter_cons_of_pos (by simp [line.literal.nonempty])

theorem urlsInBlock_flatMap (lines : List (UrlLine dialect)) :
    urlsInBlock dialect (lines.flatMap text) = lines.map fun line => line.literal.url := by
  induction lines with
  | nil => exact urlsInBlock_eq_nil dialect List.not_mem_nil
  | cons line lines ih =>
    rw [List.flatMap_cons, urlsInBlock_append dialect line.isWhole_text.ends, line.urlsInBlock_text, ih]
    rfl

end UrlLine

end GradlePublishing.Repository
