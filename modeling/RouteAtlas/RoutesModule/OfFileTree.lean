import RouteAtlas.Route.OfFileTree
import RouteAtlas.Route.Prune
import RouteAtlas.Route.Compress
import RouteAtlas.RoutesModule.OfRoutes

/-!
# The routes module of an app

The file tree of an app becomes a route tree, is pruned and compressed, and is
written out as a routes module.
-/

set_option autoImplicit false

namespace RouteAtlas

/-- A route tree without branches that carry no route or only pass through. -/
def Branch.normalize (root : Branch) : Branch :=
  match root.prune with
  | some kept => kept.value.compress.value
  | none => .bare

/-- The normalized route tree of an app. -/
def Branch.normalizedOf (tree : Folder) : Except Failure Branch :=
  (Branch.ofFileTree tree).map Branch.normalize

/-- The routes module of an app. -/
def RoutesModule.ofFileTree (tree : Folder) : Except Failure RoutesModule :=
  match Branch.normalizedOf tree with
  | .ok root => RoutesModule.ofRoutes root
  | .error failure => .error failure

end RouteAtlas
