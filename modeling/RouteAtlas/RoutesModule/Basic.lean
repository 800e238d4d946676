/-!
# Routes modules

A routes module imports entry points and exports a list of route objects. A
route object is a list of properties in the order in which they are written; a
key may occur more than once, and readers take the first one.
-/

set_option autoImplicit false

namespace RouteAtlas

/-- The import of an entry point under a local name. -/
structure Import where
  localName : String
  source : String
  deriving DecidableEq, Repr

/-- The keys that a route object may have. -/
inductive Key where
  | entryPoint
  | path
  | index
  | children
  | element
  deriving DecidableEq, Repr

/-- How a key is written. -/
def Key.text : Key → String
  | .entryPoint => "entryPoint"
  | .path => "path"
  | .index => "index"
  | .children => "children"
  | .element => "element"

mutual

/-- The value of a property. -/
inductive Value where
  /-- An imported name. -/
  | binding (name : String)
  | text (text : String)
  | flag (flag : Bool)
  | routes (routes : List RouteObject)

/-- A key with its value. -/
structure Property where
  key : Key
  value : Value

/-- An object of the route list. -/
structure RouteObject where
  properties : List Property

end

instance : Inhabited RouteObject := ⟨⟨[]⟩⟩

instance : Inhabited Value := ⟨.routes []⟩

namespace RouteObject

/-- The value of the first property with a key. -/
def get? (object : RouteObject) (key : Key) : Option Value :=
  (object.properties.find? fun property => property.key == key).map (·.value)

/-- The path of a route, if it is a text. -/
def path? (object : RouteObject) : Option String :=
  match object.get? .path with
  | some (.text path) => some path
  | _ => none

/-- The name of the entry point that a route shows, if it is an imported one. -/
def entryPoint? (object : RouteObject) : Option String :=
  match object.get? .entryPoint with
  | some (.binding name) => some name
  | _ => none

/-- The routes below a route. -/
def children (object : RouteObject) : List RouteObject :=
  match object.get? .children with
  | some (.routes routes) => routes
  | _ => []

/-- Whether a route stands for its parent's own path. -/
def isIndex (object : RouteObject) : Bool :=
  match object.get? .index with
  | some (.flag true) => true
  | _ => false

end RouteObject

/-- The imports and the exported routes of a routes module. -/
structure RoutesModule where
  imports : List Import
  routes : List RouteObject

end RouteAtlas
