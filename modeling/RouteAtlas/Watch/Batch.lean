import RouteAtlas.Registry
import RouteAtlas.Watch.Notice

/-!
# Batches of notices

Notices arrive in batches and are handed to the registry in order. A created
path is looked at first, as the scanner would look at it: a file is an event of
its own, a directory stands for all entry points in it, and links or vanished
paths are dropped. Reports of a watch that failed and events that are refused
do not stop the batch.

The outcome is the registry afterwards and the names of the apps that changed on
the way, in order and each once. The lines that go to the log are left out.
-/

set_option autoImplicit false

namespace RouteAtlas

/-- An element of a batch. -/
inductive Report where
  | notice (notice : Notice)
  /-- The watch itself failed. -/
  | trouble (text : String)
  deriving DecidableEq, Repr

/-- The files that the creation of a path adds. -/
def FileSystem.createdFiles (fs : FileSystem) (patterns : List String) (path : Path) : List Path :=
  match fs.lookUp .keepLink path with
  | .ok (.file _) => [path]
  | .ok (.directory _) =>
    match fs.scan patterns path with
    | .ok folder => folder.files.map (·.path)
    | .error _ => []
  | _ => []

/-- The paths that an event is applied to. -/
def FileSystem.affected (fs : FileSystem) (patterns : List String) (path : Path) :
    Event → List Path
  | .create => fs.createdFiles patterns path
  | .delete => [path]
  | .update => [path]

/-- Puts a name into a list of names in increasing order, if it is not there. -/
def insertName (name : String) : List String → List String
  | [] => [name]
  | other :: rest =>
    if name < other then name :: other :: rest
    else if name = other then other :: rest
    else other :: insertName name rest

/-- A registry and the names of the apps that have changed. -/
structure Progress where
  registry : Registry
  changed : List String

namespace Progress

/-- Applies an event to one path; a refused event changes nothing. -/
def applyOne (progress : Progress) (event : Event) (path : Path) : Progress :=
  match progress.registry.apply path event with
  | .ok (registry, some name) => ⟨registry, insertName name progress.changed⟩
  | .ok (registry, none) => ⟨registry, progress.changed⟩
  | .error _ => progress

/-- Applies an event to every path that it affects. -/
def applyEvent (fs : FileSystem) (progress : Progress) (event : Path × Event) : Progress :=
  (fs.affected progress.registry.patterns event.1 event.2).foldl
    (fun progress path => progress.applyOne event.2 path) progress

/-- Applies all events of a report. -/
def applyReport (fs : FileSystem) (progress : Progress) : Report → Progress
  | .trouble _ => progress
  | .notice notice => (notice.events fs).foldl (applyEvent fs) progress

end Progress

/-- Handles a batch against the file system as it is now. -/
def Registry.process (registry : Registry) (fs : FileSystem) (batch : List Report) : Progress :=
  batch.foldl (Progress.applyReport fs) ⟨registry, []⟩

end RouteAtlas
