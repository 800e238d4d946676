import RouteAtlas.Route.Basic

/-!
# Compression

A branch without layout and index adds nothing but a part of the path. Its
children move up into its place, and that part is put in front of their own
paths. The root stays whatever it has.
-/

set_option autoImplicit false

namespace RouteAtlas

/-- A node with a part put in front of its path. Nodes that play a role have no
path. -/
def RouteNode.under (parent : Option String) : RouteNode → RouteNode
  | .leaf entry path => .leaf entry ((joinPaths parent (some path)).getD "")
  | .special role entry => .special role entry
  | .branch inner => .branch { inner with path := joinPaths parent inner.path }

mutual

/-- Compresses the branches among some nodes and splices those that only pass
through. -/
def RouteNode.compressAll : List RouteNode → Pass (List RouteNode)
  | [] => ⟨[], false⟩
  | .branch inner :: rest =>
    let others := RouteNode.compressAll rest
    let kept := inner.compress
    if kept.value.isPassThrough then
      ⟨kept.value.children.map (RouteNode.under inner.path) ++ others.value, true⟩
    else ⟨.branch kept.value :: others.value, kept.changed || others.changed⟩
  | node :: rest =>
    let others := RouteNode.compressAll rest
    ⟨node :: others.value, others.changed⟩
  termination_by structural nodes => nodes

/-- The branch with no branch below it that only passes through. -/
def Branch.compress : Branch → Pass Branch
  | ⟨id, path, layout, index, children⟩ =>
    let kept := RouteNode.compressAll children
    ⟨⟨id, path, layout, index, kept.value⟩, kept.changed⟩
  termination_by structural branch => branch

end

end RouteAtlas
