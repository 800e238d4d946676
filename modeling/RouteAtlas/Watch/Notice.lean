import RouteAtlas.FileSystem.Resolution
import RouteAtlas.FileTree.Event

/-!
# Notices of the operating system

The operating system reports what it saw as notices, each with a kind and the
paths concerned. A notice stands for events on its paths, in the order in which
they happened. Of a rename, one side may be reported, both may, or the system
may not tell the sides apart; then whether a path still leads anywhere decides.
-/

set_option autoImplicit false

namespace RouteAtlas

/-- What a notice reports. -/
inductive NoticeKind where
  /-- Nothing that concerns a route, such as an access. -/
  | unrelated
  | created
  | removed
  /-- Other contents or attributes. -/
  | modified
  | renamedFrom
  | renamedTo
  /-- The old path first, then the new one. -/
  | renamedBoth
  /-- A rename of which the side is not known. -/
  | renamed
  deriving DecidableEq, Repr

/-- A notice of the operating system. -/
structure Notice where
  kind : NoticeKind
  paths : List Path
  deriving DecidableEq, Repr

/-- The events that a notice stands for. -/
def Notice.events (notice : Notice) (fs : FileSystem) : List (Path × Event) :=
  let each (event : Event) := notice.paths.map (·, event)
  match notice.kind with
  | .unrelated => []
  | .created => each .create
  | .removed => each .delete
  | .modified => each .update
  | .renamedFrom => each .delete
  | .renamedTo => each .create
  | .renamedBoth =>
    match notice.paths with
    | [] => []
    | old :: new => (old, .delete) :: new.map (·, .create)
  | .renamed =>
    notice.paths.map fun path => (path, if fs.exists? path then .create else .delete)

end RouteAtlas
