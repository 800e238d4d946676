import RouteAtlas.FileSystem.Resolution

/-!
# Changes of a file system

The changes that a file system can undergo while its apps are watched, and the
one change that the program makes itself: writing a file. A change that the
operating system would refuse is refused with the same error and changes
nothing.
-/

set_option autoImplicit false

namespace RouteAtlas

/-- A change of a file system. -/
inductive Change where
  /-- Writes a file; missing parents are made. -/
  | write (path : Path) (contents : String)
  /-- Makes a directory and its missing parents. -/
  | makeDirectory (path : Path)
  /-- Makes a symbolic link. -/
  | link (path target : Path)
  /-- Removes a file, a link or a whole directory. -/
  | remove (path : Path)
  /-- Moves an item; missing parents of the new path are made. -/
  | rename (source target : Path)
  deriving DecidableEq, Repr

namespace FileSystem

/-- Opens the file that a path leads to for writing, and tells where it is. A file that is
there is emptied, a missing one is made in a directory that must be there. -/
def openFile (fs : FileSystem) (path : Path) : Except OsError (FileSystem × Location) := do
  let location ← fs.resolve .create path
  match fs.item? location with
  | some (.directory _) => .error .isADirectory
  | _ => .ok (fs.place location (.file ""), location)

/-- Puts a text into an open file. -/
def putText (fs : FileSystem) (location : Location) (text : String) : FileSystem :=
  fs.place location (.file text)

/-- Writes a file where a path leads; the directory must be there. -/
def write (fs : FileSystem) (path : Path) (contents : String) : Except OsError FileSystem := do
  let location ← fs.resolve .create path
  match fs.item? location with
  | some (.directory _) => .error .isADirectory
  | _ => .ok (fs.place location (.file contents))

/-- Takes the given steps from a directory and makes the directories that are
missing. -/
def makeAlong (fs : FileSystem) (here : Location) : List String → Except OsError FileSystem
  | [] => .ok fs
  | step :: rest =>
    match fs.walk .follow linkLimit here [step, ""] with
    | .ok next => fs.makeAlong next rest
    | .error .notFound =>
      match fs.item? (here ++ [step]) with
      | some _ => .error .alreadyExists
      | none => (fs.place (here ++ [step]) (.directory [])).makeAlong (here ++ [step]) rest
    | .error e => .error e

/-- Makes the directories above the last name of a path. -/
def makeParents (fs : FileSystem) (path : Path) : Except OsError FileSystem :=
  fs.makeAlong (start path fs.workingDirectory) path.texts.dropLast

/-- Makes a symbolic link where nothing is yet. -/
def makeLink (fs : FileSystem) (path target : Path) : Except OsError FileSystem := do
  if target.text.isEmpty then .error .notFound
  match fs.resolve .keepLink path with
  | .ok _ => .error .alreadyExists
  | .error .notFound => .ok (fs.place (← fs.resolve .create path) (.link target))
  | .error e => .error e

/-- Whether the item at `source` may take the place of what is at `target`. -/
def admitRename (fs : FileSystem) (source target : Location) : Except OsError Unit :=
  match fs.item? source, fs.item? target with
  | some (.directory _), some (.directory slots) =>
    if slots.isEmpty then .ok () else .error .notEmpty
  | some (.directory _), some _ => .error .notADirectory
  | some _, some (.directory _) => .error .isADirectory
  | _, _ => .ok ()

/-- Checks that a path which ends in a slash stands for a directory. -/
def admitSlash (path : Path) (item : Item) : Except OsError Unit :=
  match item with
  | .directory _ => .ok ()
  | _ => if path.endsInSlash then .error .notADirectory else .ok ()

/-- The place of the last name of a path and the item that has the name. -/
def entryItem (fs : FileSystem) (path : Path) : Except OsError (Location × Item) := do
  let location ← fs.entry path
  match fs.item? location with
  | none => .error .notFound
  | some item => do
    admitSlash path item
    .ok (location, item)

/-- Moves the item at one location to another one. -/
def move (fs : FileSystem) (source target : Location) : Except OsError FileSystem := do
  if source = target then return fs
  if source.isPrefixOf target then .error .invalidArgument
  fs.admitRename source target
  match fs.item? source with
  | some item => .ok ((fs.clear source).place target item)
  | none => .error .notFound

/-- The file system after a change. -/
def apply (fs : FileSystem) : Change → Except OsError FileSystem
  | .write path contents => do
    (← fs.makeParents path).write path contents
  | .makeDirectory path =>
    fs.makeAlong (start path fs.workingDirectory) path.texts
  | .link path target => do
    (← fs.makeParents path).makeLink path target
  | .remove path => do
    .ok (fs.clear (← fs.entryItem path).1)
  | .rename source target => do
    let fs ← fs.makeParents target
    let (location, item) ← fs.entryItem source
    admitSlash target item
    fs.move location (← fs.entry target)

end FileSystem

end RouteAtlas
