import RouteAtlas.Text.WordCharacter
import RouteAtlas.Text.UpperCase

/-!
# Import identifiers

Every entry point is imported under a name made from its id. Dashes turn the
next character into upper case, whatever is not legal in a name becomes an
underscore, and a name that would start with a digit or be a reserved word gets
an underscore in front. Two ids can end up with the same name; whoever binds the
names has to look out for that.
-/

set_option autoImplicit false

namespace RouteAtlas.Identifier

/-- The words that cannot be bound, or that would hide a global. -/
def reservedWords : List String :=
  ["arguments", "await", "break", "case", "catch", "class", "const", "continue", "debugger",
   "default", "delete", "do", "else", "enum", "eval", "export", "extends", "false", "finally",
   "for", "function", "if", "implements", "import", "in", "instanceof", "interface", "let",
   "new", "null", "package", "private", "protected", "public", "return", "static", "super",
   "switch", "this", "throw", "true", "try", "typeof", "undefined", "var", "void", "while",
   "with", "yield", "Infinity", "NaN", "Object", "Function", "Array", "String", "Number",
   "Boolean", "Symbol", "Error", "Math", "Date", "RegExp", "JSON", "Promise", "Map", "Set",
   "Proxy", "Reflect"]

/-- The characters a name may hold. -/
def isNameCharacter (c : Char) : Bool :=
  c.isAlphanum || c == '_' || c == '$'

/-- Reads from left to right and takes a dash together with the word character
behind it, which it puts into upper case. -/
def camelCase : List Char → List Char
  | [] => []
  | '-' :: c :: rest =>
    if Text.isWordCharacter c then Text.upperCase c ++ camelCase rest
    else '-' :: camelCase (c :: rest)
  | c :: rest => c :: camelCase rest

/-- Keeps the characters a name may hold and writes an underscore for any other. -/
def legalize (text : List Char) : List Char :=
  text.map fun c => if isNameCharacter c then c else '_'

/-- Whether a text of name characters needs an underscore in front. -/
def needsGuard (body : List Char) : Bool :=
  (body.head?.any Char.isDigit) || reservedWords.any (·.toList == body)

/-- The name made from the characters of an id. -/
def ofIdChars (id : List Char) : List Char :=
  let body := legalize (camelCase id)
  if body.isEmpty || needsGuard body then '_' :: body else body

/-- The name under which the entry point with this id is imported. -/
def ofId (id : String) : String :=
  String.ofList (ofIdChars id.toList)

end RouteAtlas.Identifier
