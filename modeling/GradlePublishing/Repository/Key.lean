import GradlePublishing.Settings.Known

/-!
The repository key in a URL: the last path segment, provided that the marker segment stands
somewhere before it.
-/

namespace GradlePublishing.Repository

def pathOfUrl (url : Text) : Except Failure Text :=
  if url.isEmpty then .error .emptyUrl
  else
    match Url.split url with
    | .ok parts => .ok parts.path
    | .error fault => .error (.malformedUrl url fault)

def afterMarker? (marker : Text) (segments : List Text) : Option (List Text) :=
  match segments.dropWhile (· != marker) with
  | [] => none
  | _ :: rest => some rest

def keyInPath (marker url path : Text) : Except Failure Text :=
  match afterMarker? marker (Url.segments path) with
  | none => .error (.noMarker url marker)
  | some rest =>
    match rest.getLast? with
    | none => .error (.noKeyAfterMarker url)
    | some key => .ok key

def keyOfUrl (settings : Settings) (url : Text) : Except Failure Text := do
  let url := Text.strip url
  let path ← pathOfUrl url
  keyInPath (← settings.text .urlMarker) url path

/-- Whether a URL holds no key, as opposed to the settings being at fault. -/
def isKeyless : Failure → Bool
  | .emptyUrl | .malformedUrl _ _ | .noMarker _ _ | .noKeyAfterMarker _ => true
  | _ => false

def keyOfUrl? (settings : Settings) (url : Text) : Except Failure (Option Text) :=
  match keyOfUrl settings url with
  | .ok key => .ok (some key)
  | .error failure => if isKeyless failure then .ok none else .error failure

end GradlePublishing.Repository
