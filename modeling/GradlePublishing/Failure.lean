import GradlePublishing.Url

/-!
Everything that can go wrong while a publication is worked out, by cause, and the words for it.
-/

namespace GradlePublishing

inductive CompositionFault
  | malformedReference
  | unknownOption (name : Text)
  | tooDeep
  | unfinished
  | unfinishedReference
  deriving DecidableEq, Repr

inductive Failure
  | composition (fault : CompositionFault) (heading option : Text)
  | depthNotInteger
  | malformedFamily (entry : Text)
  | emptyWorkingDirectory
  | notADirectory (path : Text)
  | noBuildScript (directory : Text)
  | missingCoordinates (fields : List Text) (directory : Text)
  | noRepository (source : Text)
  | noRepositoryUrl (source : Text)
  | noDeployRepository (directory : Text)
  | noKeyInUrls (source : Text) (urls : List Text)
  | emptyUrl
  | malformedUrl (url : Text) (fault : UrlFault)
  | noMarker (url marker : Text)
  | noKeyAfterMarker (url : Text)
  | unresolvedUrl (url script : Text)
  | nullInPath
  | emptySeparator
  | indexOutOfRange
  /-- A library that a run uses refuses what it is given. -/
  | foreign (reason : Text)
  deriving DecidableEq, Repr

namespace Failure

def message : Failure → Text
  | composition .malformedReference heading option =>
    "The value of option " ++ Text.quoted option ++ " in section " ++ Text.quoted heading ++
      " holds a malformed reference."
  | composition (.unknownOption name) heading option =>
    "The value of option " ++ Text.quoted option ++ " in section " ++ Text.quoted heading ++
      " refers to the unknown option " ++ Text.quoted name ++ "."
  | composition .tooDeep heading option =>
    "The value of option " ++ Text.quoted option ++ " in section " ++ Text.quoted heading ++
      " nests references too deeply."
  | composition .unfinished heading option =>
    "The value of option " ++ Text.quoted option ++ " in section " ++ Text.quoted heading ++
      " was not read to its end."
  | composition .unfinishedReference heading option =>
    "The value of option " ++ Text.quoted option ++ " in section " ++ Text.quoted heading ++
      " refers to a value that was not read to its end."
  | depthNotInteger =>
    "The max_property_depth in section [gradle] of the .ini configuration file must be an integer."
  | malformedFamily entry =>
    "The repository block family \"" ++ entry ++ "\" in section [gradle.repository] of the .ini " ++
      "configuration file must be of the form <parent block>:<repository block>."
  | emptyWorkingDirectory => "The working directory cannot be empty."
  | notADirectory path =>
    "The working directory " ++ path ++ " does not exist or is not a directory."
  | noBuildScript directory => "No Gradle build script found in " ++ directory ++ "."
  | missingCoordinates fields directory =>
    "The " ++ Text.joinWith " and " fields ++ " of the project in " ++ directory ++
      " cannot be found."
  | noRepository source => "No repository found in " ++ source ++ "."
  | noRepositoryUrl source => "No repository URL found in " ++ source ++ "."
  | noDeployRepository directory =>
    "No deploy repository found in the Gradle configuration of " ++ directory ++ "."
  | noKeyInUrls source urls =>
    "None of the repository URLs found in " ++ source ++ " contains a repository key: " ++
      Text.joinWith ", " urls ++ "."
  | emptyUrl => "The repository URL is empty."
  | malformedUrl url fault =>
    "The repository URL " ++ url ++ " cannot be parsed: " ++ fault.message
  | noMarker url marker =>
    "The repository URL " ++ url ++ " does not contain an /" ++ marker ++ "/ path segment."
  | noKeyAfterMarker url =>
    "Unable to extract the repository key from " ++ url ++ " (check the repository URL)."
  | unresolvedUrl url script =>
    "The repository URL " ++ url ++ " in " ++ script ++
      " references a property that cannot be resolved."
  | nullInPath => "A path holds a null character."
  | emptySeparator => "The separator of a list is empty."
  | indexOutOfRange => "There is nothing at this index."
  | foreign reason => reason

/-- Whether a source was searched and holds no usable repository, so that the next one is tried. -/
def isAbsence : Failure → Bool
  | noRepository _ | noRepositoryUrl _ | noDeployRepository _ | noKeyInUrls _ _ => true
  | _ => false

end Failure

end GradlePublishing
