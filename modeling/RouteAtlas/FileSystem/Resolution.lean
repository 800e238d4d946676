import RouteAtlas.FileSystem.Basic

/-!
# Path resolution

A path is resolved one step at a time. `.` stays, `..` goes up, a name goes to
the item of that name, and a symbolic link continues with the steps of its
target. At most forty links are followed on the way. Every step but the last
must end in a directory, and a slash at the end asks for a directory as well.

What happens at the last step depends on what the path is resolved for: a link
is followed or kept, and a missing entry is an error unless it is to be created.

Paths are limited in length. As a rule the limit is on the path that is given;
when its canonical spelling is asked for, the limit is on the canonical paths of
the steps instead.
-/

set_option autoImplicit false

namespace RouteAtlas

/-- Why the file system refuses an operation. -/
inductive OsError where
  | notFound
  | alreadyExists
  | notADirectory
  | isADirectory
  | invalidArgument
  | nameTooLong
  | notEmpty
  | tooManyLinks
  /-- The path ends in a step that is no name. -/
  | busy
  /-- The path holds a character that no path may hold. -/
  | nulInPath
  deriving DecidableEq, Repr

/-- The text of an error, with the number the operating system gives it. -/
def OsError.text : OsError → String
  | .notFound => "No such file or directory (os error 2)"
  | .alreadyExists => "File exists (os error 17)"
  | .notADirectory => "Not a directory (os error 20)"
  | .isADirectory => "Is a directory (os error 21)"
  | .invalidArgument => "Invalid argument (os error 22)"
  | .nameTooLong => "File name too long (os error 36)"
  | .notEmpty => "Directory not empty (os error 39)"
  | .tooManyLinks => "Too many levels of symbolic links (os error 40)"
  | .busy => "Device or resource busy (os error 16)"
  | .nulInPath => "file name contained an unexpected NUL byte"

/-- What a path is resolved for. -/
inductive LastStep where
  /-- A link at the last step is followed. -/
  | follow
  /-- A link at the last step is the answer itself. -/
  | keepLink
  /-- As `follow`, but nothing has to be there yet. -/
  | create
  /-- As `follow`, for a path of any length to be spelled without links. -/
  | canonical
  deriving DecidableEq, Repr

/-- Whether a path ends in a slash and so asks for a directory. -/
def Path.endsInSlash (path : Path) : Bool :=
  path.text.toList.getLast? = some '/'

/-- The texts between the slashes of a path that are not empty, in order. -/
def Path.texts (path : Path) : List String :=
  ((Path.pieces path.text.toList).filter fun piece => !piece.isEmpty).map String.ofList

/-- The steps of a path, in order. A slash at the end gives an empty step. -/
def Path.steps (path : Path) : List String :=
  if path.endsInSlash then path.texts ++ [""] else path.texts

namespace FileSystem

/-- The most bytes a name may have. -/
def nameLimit : Nat := 255

/-- The number of bytes that makes a path too long. -/
def pathLimit : Nat := 4096

/-- The most links followed in one resolution. -/
def linkLimit : Nat := 40

/-- Whether a step is too long to be looked up in a directory. For a canonical
path it is looked up by the canonical path so far, which is limited as well. -/
def isTooLong (last : LastStep) (here : Location) (step : String) : Bool :=
  nameLimit < step.utf8ByteSize ||
    (last == .canonical && pathLimit ≤ (pathOf (here ++ [step])).text.utf8ByteSize)

/-- Takes the given steps from a directory. A link is handed to `followLink`,
with the directory it stands in and the steps that come after it. -/
def walkWith (fs : FileSystem) (last : LastStep)
    (followLink : Location → Path → List String → Except OsError Location) :
    Location → List String → Except OsError Location
  | here, [] => .ok here
  | here, step :: rest =>
    if step = "" ∨ step = "." then walkWith fs last followLink here rest
    else if step = ".." then walkWith fs last followLink here.dropLast rest
    else if last = .create ∧ rest = [""] then .error .isADirectory
    else if isTooLong last here step then .error .nameTooLong
    else
      match fs.item? (here ++ [step]) with
      | none => if last = .create ∧ rest = [] then .ok (here ++ [step]) else .error .notFound
      | some (.directory _) => walkWith fs last followLink (here ++ [step]) rest
      | some (.file _) => if rest = [] then .ok (here ++ [step]) else .error .notADirectory
      | some (.link target) =>
        if last = .keepLink ∧ rest = [] then .ok (here ++ [step])
        else followLink here target rest

/-- Where a path starts when it is read in a directory. -/
def start (path : Path) (here : Location) : Location :=
  if path.isAbsolute then [] else here

/-- Takes the given steps from a directory and follows at most `links` links. -/
def walk (fs : FileSystem) (last : LastStep) (links : Nat) :
    Location → List String → Except OsError Location :=
  match links with
  | 0 => walkWith fs last fun _ _ _ => .error .tooManyLinks
  | links + 1 => walkWith fs last fun here target rest =>
      if target.text.isEmpty then .error .notFound
      else walk fs last links (start target here) (target.steps ++ rest)

/-- Why a path is refused for its text alone. -/
def textError? (last : LastStep) (path : Path) : Option OsError :=
  if path.text.toList.contains '\x00' then some .nulInPath
  else if path.text.isEmpty then some .notFound
  else if last ≠ .canonical ∧ pathLimit ≤ path.text.utf8ByteSize then some .nameTooLong
  else none

/-- The location that a path names. -/
def resolve (fs : FileSystem) (last : LastStep) (path : Path) : Except OsError Location :=
  match textError? last path with
  | some cause => .error cause
  | none => walk fs last linkLimit (start path fs.workingDirectory) path.steps

/-- Where the last name of a path stands in its directory, whether or not
anything has that name. A link of that name is not followed, not even for a
slash at the end. -/
def entry (fs : FileSystem) (path : Path) : Except OsError Location :=
  match textError? .keepLink path, path.texts.getLast? with
  | some cause, _ => .error cause
  | none, none => .error .busy
  | none, some name =>
    if name = "." ∨ name = ".." then .error .busy
    else if nameLimit < name.utf8ByteSize then .error .nameTooLong
    else
      (walk fs .follow linkLimit (start path fs.workingDirectory)
        (path.texts.dropLast ++ [""])).map (· ++ [name])

/-- The item that a path names. -/
def lookUp (fs : FileSystem) (last : LastStep) (path : Path) : Except OsError Item := do
  let location ← fs.resolve last path
  match fs.item? location with
  | some item => .ok item
  | none => .error .notFound

/-- Whether a path leads anywhere, links followed. -/
def exists? (fs : FileSystem) (path : Path) : Bool :=
  (fs.lookUp .follow path).toBool

/-- The contents of the file that a path names. -/
def read (fs : FileSystem) (path : Path) : Except OsError String := do
  match ← fs.lookUp .follow path with
  | .file contents => .ok contents
  | _ => .error .isADirectory

/-- The path of the same item that holds no link, no `.` and no `..`. -/
def canonical (fs : FileSystem) (path : Path) : Except OsError Path := do
  .ok (pathOf (← fs.resolve .canonical path))

end FileSystem

end RouteAtlas
