import RouteAtlas.Route.Basic

/-!
# Pruning

A branch without layout, index and children carries no route. Pruning removes
such branches from the bottom up, so that a branch which only held removed ones
is removed as well. A tree in which nothing is removed is handed back as it is.
-/

set_option autoImplicit false

namespace RouteAtlas

mutual

/-- Prunes the branches among some nodes. -/
def RouteNode.pruneAll : List RouteNode → Pass (List RouteNode)
  | [] => ⟨[], false⟩
  | .branch inner :: rest =>
    let others := RouteNode.pruneAll rest
    match inner.prune with
    | none => ⟨others.value, true⟩
    | some kept => ⟨.branch kept.value :: others.value, kept.changed || others.changed⟩
  | node :: rest =>
    let others := RouteNode.pruneAll rest
    ⟨node :: others.value, others.changed⟩
  termination_by structural nodes => nodes

/-- The branch without the branches below it that carry no route, or nothing if
it carries none itself. -/
def Branch.prune : Branch → Option (Pass Branch)
  | ⟨id, path, layout, index, children⟩ =>
    let kept := RouteNode.pruneAll children
    if kept.value.isEmpty && layout.isNone && index.isNone then none
    else some ⟨⟨id, path, layout, index, kept.value⟩, kept.changed⟩
  termination_by structural branch => branch

end

end RouteAtlas
