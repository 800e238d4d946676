import RouteAtlas.Identifier
import RouteAtlas.Failure
import RouteAtlas.Route.Basic
import RouteAtlas.RoutesModule.Basic

/-!
# From route trees to routes modules

A route tree is written out in one go, from the root down: the layout of a branch, its
children, its index. The generator remembers which entry points it has imported and
under which names. It stops at the first entry point whose name is taken, or at the first
node that is out of place.

A tree without any route gives a module with a single route for every path,
which shows a message.
-/

set_option autoImplicit false

namespace RouteAtlas

/-- The name under which an entry point is imported. -/
def EntryPoint.localName (entry : EntryPoint) : String := Identifier.ofId entry.id

/-- What the generator remembers. -/
structure Imported where
  /-- The imports, in the order in which they are written. -/
  imports : List Import
  /-- The names that are taken, each with the id of its entry point. -/
  bindings : List (String × String)
  deriving DecidableEq, Repr

/-- A part of the generator. -/
abbrev Generator := StateT Imported (Except Failure)

/-- A route object with one more property at its end. -/
def RouteObject.push (object : RouteObject) (key : Key) (value : Value) : RouteObject :=
  ⟨object.properties ++ [⟨key, value⟩]⟩

/-- Imports an entry point and starts the route object that shows it. -/
def EntryPoint.generate (entry : EntryPoint) : Generator RouteObject := do
  let imported ← get
  let name := entry.localName
  match imported.bindings.lookup name with
  | some id => throw (.nameBoundTwice name id entry.id)
  | none =>
    set (⟨imported.imports ++ [⟨name, entry.source.text⟩],
      imported.bindings ++ [(name, entry.id)]⟩ : Imported)
    return ⟨[⟨.entryPoint, .binding name⟩]⟩

/-- Starts the object of a branch, which shows the layout if there is one. -/
def EntryPoint.generateLayout : Option EntryPoint → Generator RouteObject
  | some layout => layout.generate
  | none => return ⟨[]⟩

/-- Writes out the index of a branch, if there is one. -/
def EntryPoint.generateIndex : Option EntryPoint → Generator (List RouteObject)
  | some index => do return [(← index.generate).push .index (.flag true)]
  | none => return []

/-- A route object with its path, if it has one, at its end. -/
def RouteObject.pushPath (object : RouteObject) : Option String → RouteObject
  | some path => object.push .path (.text path)
  | none => object

mutual

/-- Writes out the nodes among the children of the branch with the given id. -/
def RouteNode.generateAll (directory : String) : List RouteNode → Generator (List RouteObject)
  | [] => return []
  | node :: rest => do
    let object ← node.generate directory
    let others ← RouteNode.generateAll directory rest
    return object :: others
  termination_by structural nodes => nodes

/-- Writes out a node among the children of the branch with the given id. A layout and an
index have no place there. -/
def RouteNode.generate (directory : String) : RouteNode → Generator RouteObject
  | .leaf entry path => do return (← entry.generate).push .path (.text path)
  | .special role entry => throw (.strayRole role entry.id directory)
  | .branch inner => inner.generate
  termination_by structural node => node

/-- Writes out a branch. The properties of its layout are those of its own object, and its
index comes last among its children. -/
def Branch.generate : Branch → Generator RouteObject
  | ⟨id, path, layout, index, children⟩ => do
    let start ← EntryPoint.generateLayout layout
    let object := start.pushPath path
    let routes ← RouteNode.generateAll id children
    let last ← EntryPoint.generateIndex index
    return object.push .children (.routes (routes ++ last))
  termination_by structural branch => branch

end

/-- The text shown by an app without routes. -/
def noRoutesMessage : String := "ERROR: No routes are defined."

/-- The module of an app without routes. -/
def RoutesModule.fallback : RoutesModule :=
  ⟨[], [⟨[⟨.path, .text "*"⟩, ⟨.element, .text noRoutesMessage⟩]⟩]⟩

/-- The routes module of a route tree. -/
def RoutesModule.ofRoutes (root : Branch) : Except Failure RoutesModule :=
  if root.isEmpty then .ok .fallback
  else (root.generate.run ⟨[], []⟩).map fun (route, imported) => ⟨imported.imports, [route]⟩

end RouteAtlas
