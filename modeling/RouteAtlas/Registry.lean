import RouteAtlas.FileTree.Scan
import RouteAtlas.FileTree.Event
import RouteAtlas.RoutesModule.OfFileTree

/-!
# The registry of apps

A registry holds the apps that are served together, each with its root and its
current file tree. An event goes to the app that owns its path: of all apps
whose root the path is below, the one whose root is the longest, and among roots
of equal length the one that is named last. Roots may lie inside one another and
names may repeat; a name stands for the first app that has it.

The apps are scanned at the same time, by however many workers. That makes no difference
to the tree of an app (`FileSystem.scanWith_eq_scan`).
-/

set_option autoImplicit false

namespace RouteAtlas

/-- An app and the entry points found in it. -/
structure App where
  name : String
  root : Path
  tree : Folder

/-- The apps in the order of their configuration, and the ignore patterns that
they share. -/
structure Registry where
  apps : List App
  patterns : List String

/-- The number of components of a path. -/
def Path.depth (path : Path) : Nat := path.components.length

namespace Registry

/-- Scans the given apps. Where several scans fail, this gives the failure of the first;
as they run at the same time, it may in fact be that of any of them. -/
def scanApps (fs : FileSystem) (patterns : List String) :
    List (String × Path) → Except Failure (List App)
  | [] => .ok []
  | (name, root) :: rest =>
    match fs.scan patterns root with
    | .error failure => .error failure
    | .ok tree => (scanApps fs patterns rest).map (⟨name, root, tree⟩ :: ·)

/-- A registry of freshly scanned apps; there must be one at least. -/
def scan (fs : FileSystem) (patterns : List String) (roots : List (String × Path)) :
    Except Failure Registry :=
  if roots.isEmpty then .error .noApps
  else (scanApps fs patterns roots).map (⟨·, patterns⟩)

/-- The names of the apps. -/
def names (registry : Registry) : List String := registry.apps.map (·.name)

/-- The app that a name stands for. -/
def find (registry : Registry) (name : String) : Except Failure App :=
  match registry.apps.find? fun app => app.name == name with
  | some app => .ok app
  | none => .error (.unknownApp name)

/-- The position of the app that owns a path, and the depth of its root. -/
def ownerAmong (path : Path) : List App → Option (Nat × Nat)
  | [] => none
  | app :: rest =>
    match ownerAmong path rest with
    | none => if app.root.isBelow path then some (0, app.root.depth) else none
    | some (position, depth) =>
      if app.root.isBelow path && depth < app.root.depth then some (0, app.root.depth)
      else some (position + 1, depth)

/-- The position of the app that owns a path. -/
def ownerPosition? (registry : Registry) (path : Path) : Option Nat :=
  (ownerAmong path registry.apps).map (·.1)

/-- The app that owns a path. -/
def owner? (registry : Registry) (path : Path) : Option App :=
  (registry.ownerPosition? path).bind (registry.apps[·]?)

/-- Gives the app at a position another tree. -/
def withTree (registry : Registry) (position : Nat) (tree : Folder) : Registry :=
  { registry with apps := registry.apps.modify position fun app => { app with tree := tree } }

/-- Hands an event to the owner of its path. Tells the owner's name if its tree
has changed. -/
def apply (registry : Registry) (path : Path) (event : Event) :
    Except Failure (Registry × Option String) :=
  match registry.ownerPosition? path with
  | none => .ok (registry, none)
  | some position =>
    match registry.apps[position]? with
    | none => .ok (registry, none)
    | some app =>
      (app.tree.apply registry.patterns path event).map fun (tree, changed) =>
        (registry.withTree position tree, if changed then some app.name else none)

/-- The current file tree of an app. -/
def snapshot (registry : Registry) (name : String) : Except Failure Folder :=
  (registry.find name).map (·.tree)

/-- The routes module of an app. -/
def render (registry : Registry) (name : String) : Except Failure RoutesModule :=
  match registry.snapshot name with
  | .ok tree => RoutesModule.ofFileTree tree
  | .error failure => .error failure

end Registry

end RouteAtlas
