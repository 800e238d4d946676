import RouteAtlas.Text.StringLiteral
import RouteAtlas.RoutesModule.Basic

/-!
# Routes modules as ES modules

The text of a routes module. Its imports come first, one a line, then an empty
line, then the list:

    const routes = [
      {
        "children": [
          {
            "entryPoint": about_entrypoint_tsx,
            "path": "about"
          }
        ]
      }
    ];

    export default routes;

Every depth of brackets indents by the same number of spaces, which may be none.
-/

set_option autoImplicit false

namespace RouteAtlas.JavaScript

/-- The indentation of a line at the given depth. -/
def indentation (width depth : Nat) : List Char := List.replicate (width * depth) ' '

mutual

/-- The expression of a value inside a property at the given depth. -/
def expression (width depth : Nat) : Value → List Char
  | .binding name => name.toList
  | .text text => Text.quote text
  | .flag flag => if flag then "true".toList else "false".toList
  | .routes routes =>
    if routes.isEmpty then "[]".toList
    else '[' :: '\n' :: (elements width (depth + 1) routes ++ (indentation width depth ++ [']']))
  termination_by structural value => value

/-- The lines of some route objects, with a comma behind all but the last. -/
def elements (width depth : Nat) : List RouteObject → List Char
  | [] => []
  | object :: rest =>
    indentation width depth ++ (literal width depth object ++
      ((if rest.isEmpty then "\n".toList else ",\n".toList) ++ elements width depth rest))
  termination_by structural objects => objects

/-- The object literal of a route object. -/
def literal (width depth : Nat) : RouteObject → List Char
  | ⟨properties⟩ =>
    if properties.isEmpty then "{}".toList
    else '{' :: '\n' :: (members width (depth + 1) properties ++
      (indentation width depth ++ ['}']))
  termination_by structural object => object

/-- The lines of some properties, with a comma behind all but the last. -/
def members (width depth : Nat) : List Property → List Char
  | [] => []
  | property :: rest =>
    indentation width depth ++ (member width depth property ++
      ((if rest.isEmpty then "\n".toList else ",\n".toList) ++ members width depth rest))
  termination_by structural properties => properties

/-- The key and the value of a property. -/
def member (width depth : Nat) : Property → List Char
  | ⟨key, value⟩ => Text.quote key.text ++ (": ".toList ++ expression width depth value)
  termination_by structural property => property

end

/-- The line that imports an entry point. -/
def importLine (declaration : Import) : List Char :=
  "import ".toList ++ (declaration.localName.toList ++
    (" from ".toList ++ (Text.quote declaration.source ++ ";\n".toList)))

/-- The import lines, with an empty line behind them if there are any. -/
def importLines (imports : List Import) : List Char :=
  imports.flatMap importLine ++ if imports.isEmpty then [] else ['\n']

end RouteAtlas.JavaScript

namespace RouteAtlas

/-- The first width that is too large for an indentation to be written. -/
def RoutesModule.indentLimit : Nat := 9223372036854775808

/-- The characters of the ES module of a routes module. -/
def RoutesModule.moduleChars (width : Nat) (program : RoutesModule) : List Char :=
  JavaScript.importLines program.imports ++ ("const routes = ".toList ++
    (JavaScript.expression width 0 (.routes program.routes) ++
      ";\n\nexport default routes;\n".toList))

/-- The ES module of a routes module, indented by the given number of spaces. -/
def RoutesModule.moduleText (width : Nat) (program : RoutesModule) : String :=
  String.ofList (program.moduleChars width)

end RouteAtlas
