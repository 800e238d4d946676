import RouteAtlas.Naming
import RouteAtlas.Path

/-!
# Route trees

A route tree says which entry point is shown at which path and which layouts
wrap it. A branch stands for a directory: it may have a layout and an index of
its own, and its children are leaves and further branches. A child can also be
an entry point that plays a role; such a child is out of place, and only the
check before the routes are written out will find it.
-/

set_option autoImplicit false

namespace RouteAtlas

/-- A module that a route shows. -/
structure EntryPoint where
  /-- The path relative to the app's root. -/
  id : String
  /-- The path it is imported from. -/
  source : Path
  deriving DecidableEq, Repr

mutual

/-- A child of a branch. -/
inductive RouteNode where
  | leaf (entry : EntryPoint) (path : String)
  | special (role : Role) (entry : EntryPoint)
  | branch (branch : Branch)

/-- The routes of a directory. -/
structure Branch where
  id : String
  /-- What the directory adds to the path; the root adds nothing. -/
  path : Option String
  layout : Option EntryPoint
  index : Option EntryPoint
  children : List RouteNode

end

namespace RouteNode

/-- The word for the kind of a node. -/
def kind : RouteNode → String
  | .leaf .. => "leaf"
  | .special role _ => role.word
  | .branch _ => "directory"

/-- The id of a node. -/
def id : RouteNode → String
  | .leaf entry _ => entry.id
  | .special _ entry => entry.id
  | .branch inner => inner.id

/-- What a node adds to the path. -/
def path? : RouteNode → Option String
  | .leaf _ path => some path
  | .special .. => none
  | .branch inner => inner.path

end RouteNode

namespace Branch

/-- The root without any route. -/
def bare : Branch := ⟨"", none, none, none, []⟩

instance : Inhabited Branch := ⟨bare⟩

instance : Inhabited RouteNode := ⟨.branch bare⟩

/-- Whether a branch only groups its children and adds to their paths. -/
def isPassThrough (branch : Branch) : Bool :=
  branch.layout.isNone && branch.index.isNone

/-- Whether a branch has no route of its own and no children. -/
def isEmpty (branch : Branch) : Bool :=
  branch.children.isEmpty && branch.isPassThrough

end Branch

/-- The outcome of a pass over a tree, and whether it differs from the input. -/
structure Pass (α : Type) where
  value : α
  changed : Bool
  deriving DecidableEq, Repr

/-- Joins the parts of a path with slashes; absent and empty parts add nothing,
and without any part there is no path. -/
def joinParts (parts : List (Option String)) : Option String :=
  match parts.filterMap (fun part => part.filter (fun text => !text.isEmpty)) with
  | [] => none
  | present => some ("/".intercalate present)

/-- Joins the path of a branch with that of a child. -/
def joinPaths (parent child : Option String) : Option String :=
  joinParts [parent, child]

end RouteAtlas
