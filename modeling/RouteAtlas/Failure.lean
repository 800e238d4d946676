import RouteAtlas.Naming
import RouteAtlas.FileSystem.Resolution

/-!
# Failures

Everything that can go wrong between a directory and its routes module, told by
its cause. The wording is in one place, `Failure.message`; two of the causes lie
in the names of the files and are told apart by `Failure.isConfiguration`.
-/

set_option autoImplicit false

namespace RouteAtlas

/-- Why there is no answer. -/
inductive Failure where
  /-- The operating system refused to read or write a path. -/
  | io (path : Path) (cause : OsError)
  /-- The root of an app is not a directory. -/
  | rootNotDirectory (path : Path)
  /-- Two files of one directory claim the same role. -/
  | roleClaimedTwice (role : Role) (directory first second : String)
  /-- Two entry points would be imported under the same name. -/
  | nameBoundTwice (name first second : String)
  /-- A layout or an index stands among the children of a directory. -/
  | strayRole (role : Role) (id directory : String)
  /-- A path leaves the root of the app it was reported for. -/
  | pathEscapes (path : Path)
  /-- There is no app at all. -/
  | noApps
  /-- There is no app of this name. -/
  | unknownApp (name : String)
  deriving DecidableEq, Repr

namespace Failure

/-- The text shown for a failure. -/
def message : Failure → String
  | .io path cause => "IO error at " ++ path.text ++ ": " ++ cause.text
  | .rootNotDirectory path => "Not a directory: " ++ path.text
  | .roleClaimedTwice role directory first second =>
    "Directory '" ++ directory ++ "' has more than one " ++ role.word ++ " file: '" ++ first ++
      "' and '" ++ second ++ "'"
  | .nameBoundTwice name first second =>
    "Import identifier `" ++ name ++ "` is generated by both '" ++ first ++ "' and '" ++ second ++
      "'"
  | .strayRole role id directory =>
    "Unexpected " ++ role.word ++ " route '" ++ id ++ "' in the children of '" ++ directory ++ "'"
  | .pathEscapes path => "Invalid event path: " ++ path.text
  | .noApps => "No apps configured"
  | .unknownApp name => "Unknown app: " ++ name

/-- Whether renaming files would mend a failure. -/
def isConfiguration : Failure → Bool
  | .roleClaimedTwice .. => true
  | .nameBoundTwice .. => true
  | _ => false

end Failure

end RouteAtlas
