import RouteAtlas.Text.StringLiteral

/-!
# JSON texts

The JSON values that the program writes, and their two spellings: `Json.compact`
leaves no space, `Json.pretty` gives every member of a list and every field of
an object a line of its own, two spaces deeper than the bracket around it. Empty
lists and objects are a pair of brackets in both.
-/

set_option autoImplicit false

namespace RouteAtlas

mutual

/-- A JSON value. -/
inductive Json where
  | text (text : String)
  | flag (flag : Bool)
  | list (members : List Json)
  | object (fields : List JsonField)

/-- A field of a JSON object. -/
structure JsonField where
  key : String
  value : Json

end

namespace Json

/-- How a truth value is written. -/
def flagText (truth : Bool) : List Char :=
  if truth then "true".toList else "false".toList

mutual

/-- The spelling of a value without any space. -/
def compact : Json → List Char
  | .text content => Text.quote content
  | .flag truth => flagText truth
  | .list members => '[' :: compactMembers members
  | .object fields => '{' :: compactFields fields
  termination_by structural value => value

/-- The members of a list, with the closing bracket. -/
def compactMembers : List Json → List Char
  | [] => [']']
  | member :: rest =>
    compact member ++ (if rest.isEmpty then [] else [',']) ++ compactMembers rest
  termination_by structural members => members

/-- The fields of an object, with the closing brace. -/
def compactFields : List JsonField → List Char
  | [] => ['}']
  | field :: rest =>
    compactField field ++ (if rest.isEmpty then [] else [',']) ++ compactFields rest
  termination_by structural fields => fields

/-- A key, a colon and a value. -/
def compactField : JsonField → List Char
  | ⟨key, value⟩ => Text.quote key ++ ':' :: compact value
  termination_by structural field => field

end

/-- A line break and the indentation of the given depth. -/
def newLine (depth : Nat) : List Char :=
  '\n' :: List.replicate (2 * depth) ' '

mutual

/-- The spelling of a value over several lines, at the given depth. -/
def pretty (depth : Nat) : Json → List Char
  | .text content => Text.quote content
  | .flag truth => flagText truth
  | .list members =>
    if members.isEmpty then ['[', ']']
    else '[' :: (prettyMembers (depth + 1) members ++ newLine depth ++ [']'])
  | .object fields =>
    if fields.isEmpty then ['{', '}']
    else '{' :: (prettyFields (depth + 1) fields ++ newLine depth ++ ['}'])
  termination_by structural value => value

/-- The members of a list, each on a new line. -/
def prettyMembers (depth : Nat) : List Json → List Char
  | [] => []
  | member :: rest =>
    newLine depth ++ pretty depth member ++ (if rest.isEmpty then [] else [',']) ++
      prettyMembers depth rest
  termination_by structural members => members

/-- The fields of an object, each on a new line. -/
def prettyFields (depth : Nat) : List JsonField → List Char
  | [] => []
  | field :: rest =>
    newLine depth ++ prettyField depth field ++ (if rest.isEmpty then [] else [',']) ++
      prettyFields depth rest
  termination_by structural fields => fields

/-- A key, a colon with a space behind it, and a value. -/
def prettyField (depth : Nat) : JsonField → List Char
  | ⟨key, value⟩ => Text.quote key ++ ':' :: ' ' :: pretty depth value
  termination_by structural field => field

end

end Json

end RouteAtlas
