import RouteAtlas.Json
import RouteAtlas.RoutesModule.Basic

/-!
# Routes modules as JSON

The structure of a routes module as a JSON value. An imported name is an object
with the one field `identifier`, so that it differs from any text.
-/

set_option autoImplicit false

namespace RouteAtlas

mutual

/-- The JSON value of a property's value. -/
def Value.toJson : Value → Json
  | .binding name => .object [⟨"identifier", .text name⟩]
  | .text text => .text text
  | .flag flag => .flag flag
  | .routes routes => .list (RouteObject.toJsonList routes)
  termination_by structural value => value

/-- The fields of some properties, in order. -/
def Property.toFields : List Property → List JsonField
  | [] => []
  | property :: rest => property.toField :: Property.toFields rest
  termination_by structural properties => properties

/-- The field of a property. -/
def Property.toField : Property → JsonField
  | ⟨key, value⟩ => ⟨key.text, value.toJson⟩
  termination_by structural property => property

/-- The JSON object of a route object. -/
def RouteObject.toJson : RouteObject → Json
  | ⟨properties⟩ => .object (Property.toFields properties)
  termination_by structural object => object

/-- The JSON objects of some route objects. -/
def RouteObject.toJsonList : List RouteObject → List Json
  | [] => []
  | object :: rest => object.toJson :: RouteObject.toJsonList rest
  termination_by structural objects => objects

end

/-- The JSON object of an import. -/
def Import.toJson (declaration : Import) : Json :=
  .object [⟨"local", .text declaration.localName⟩, ⟨"source", .text declaration.source⟩]

namespace RoutesModule

/-- The JSON object of a routes module. -/
def toJson (program : RoutesModule) : Json :=
  .object [⟨"imports", .list (program.imports.map Import.toJson)⟩,
    ⟨"routes", .list (RouteObject.toJsonList program.routes)⟩]

/-- The JSON text of a routes module. -/
def jsonText (program : RoutesModule) : String :=
  String.ofList (program.toJson.pretty 0 ++ ['\n'])

end RoutesModule

end RouteAtlas
