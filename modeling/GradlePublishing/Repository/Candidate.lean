import GradlePublishing.Repository.Key
import GradlePublishing.Text.Case

/-!
Choosing among several repositories. One that names the kind of version being deployed comes before
one whose property speaks of deployment, and that before all others; among equals the first wins.
-/

namespace GradlePublishing.Repository

/-- A repository key, with the name of the property that holds it or nothing. -/
structure Candidate where
  key : Text
  name : Text := []
  deriving DecidableEq, Repr

/-- Why a candidate is chosen, from the strongest reason to the weakest. -/
inductive Selection
  | preferred
  | deploy
  | fallback
  deriving DecidableEq, Repr

def kindKeyword (settings : Settings) (isSnapshot : Bool) : Except Failure Text :=
  settings.text (if isSnapshot then .snapshotKeyword else .releaseKeyword)

/-- How strongly a candidate matches, for keywords in lower case. -/
def Candidate.rank (kind deploy : Text) (candidate : Candidate) : Selection :=
  if Text.has kind (Text.lower candidate.key) || Text.has kind (Text.lower candidate.name) then
    .preferred
  else if Text.has deploy (Text.lower candidate.name) then .deploy
  else .fallback

def classify (settings : Settings) (isSnapshot : Bool) (candidate : Candidate) :
    Except Failure Selection := do
  let kind ← kindKeyword settings isSnapshot
  let deploy ← settings.text .deployKeyword
  return candidate.rank (Text.lower kind) (Text.lower deploy)

def strongest? (ranked : List (Selection × Candidate)) : Option Candidate :=
  ([.preferred, .deploy, .fallback].findSome? fun selection =>
    ranked.find? (·.1 == selection)).map (·.2)

/-- The key of the best candidate. `source` says where the candidates come from. -/
def select (settings : Settings) (isSnapshot : Bool) (source : Text) (candidates : List Candidate) :
    Except Failure Text := do
  let ranked ← candidates.mapM fun candidate =>
    return (← classify settings isSnapshot candidate, candidate)
  match strongest? ranked with
  | some candidate => return candidate.key
  | none => throw (.noRepository source)

/-- The best key among those in URLs. A URL without a key is passed over. -/
def selectUrl (settings : Settings) (isSnapshot : Bool) (source : Text) (urls : List Text) :
    Except Failure Text := do
  let distinct := (urls.map Text.strip).eraseDups
  if distinct.isEmpty then throw (.noRepositoryUrl source)
  let keys := (← distinct.mapM (keyOfUrl? settings)).filterMap id
  if keys.isEmpty then throw (.noKeyInUrls source distinct)
  select settings isSnapshot source (keys.map ({ key := · }))

end GradlePublishing.Repository
