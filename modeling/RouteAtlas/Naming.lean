/-!
# File names and route segments

An app's files are turned into routes by their names alone. A script whose name
carries the `.entrypoint` marker is an entry point; what is left of the name
without marker and extension is its base name, and the base name spells a route
segment:

| base name  | segment  |
|------------|----------|
| `_private` | none     |
| `$`        | `*`      |
| `$id`      | `:id`    |
| `(lang)`   | `lang?`  |
| `($id)`    | `:id?`   |
| `about`    | `about`  |

The rules are stated over lists of characters; the functions on `String` at the
end of the file only convert.
-/

set_option autoImplicit false

namespace RouteAtlas

/-- The extensions of a script. -/
def scriptExtensions : List (List Char) :=
  [".js".toList, ".jsx".toList, ".ts".toList, ".tsx".toList]

/-- The endings that make a script an entry point. -/
def entryPointSuffixes : List (List Char) :=
  scriptExtensions.map (".entrypoint".toList ++ ·)

/-- What precedes the first of the endings that `name` has. No two endings of
`scriptExtensions`, or of `entryPointSuffixes`, fit the same name, so the order
of the list does not matter. -/
def beforeSuffix? (suffixes : List (List Char)) (name : List Char) : Option (List Char) :=
  suffixes.findSome? fun suffix => suffix.isSuffixOf? name

/-- The text between an opening parenthesis at the front and a closing one at
the end: an optional group. A lone parenthesis is no group. -/
def ungroup? : List Char → Option (List Char)
  | '(' :: rest => if rest.getLast? = some ')' then some rest.dropLast else none
  | _ => none

/-- What a group holds is shorter than the group. -/
theorem ungroup?_length {name inner : List Char} (h : ungroup? name = some inner) :
    inner.length < name.length := by
  unfold ungroup? at h
  split at h
  · split at h
    · cases h
      simp only [List.length_dropLast, List.length_cons]
      omega
    · cases h
  · cases h

/-- The segment of a base name that is no group: a reserved name has none, `$`
is a splat, `$x` a parameter, and any other name stands for itself. -/
def plainSegment : List Char → Option (List Char)
  | '_' :: _ => none
  | ['$'] => some ['*']
  | '$' :: parameter => some (':' :: parameter)
  | name => some name

/-- The segment of a base name. Each group around the core adds a question
mark, and a reserved core makes the whole name reserved. -/
def segmentChars (name : List Char) : Option (List Char) :=
  match _h : ungroup? name with
  | some inner => (segmentChars inner).map (· ++ ['?'])
  | none => plainSegment name
termination_by name.length
decreasing_by exact ungroup?_length _h

/-- A file or directory name taken apart. -/
structure ParsedName where
  /-- The name without its entry point ending or script extension. -/
  base : String
  /-- The route segment of the base name, absent for reserved names. -/
  segment : Option String
  /-- Whether the name carries the entry point marker. -/
  isEntryPoint : Bool
  deriving DecidableEq, Repr

/-- The route segment that a base name spells. -/
def routeSegment (base : String) : Option String :=
  (segmentChars base.toList).map String.ofList

/-- Whether a file of this name takes part in routing. -/
def isEntryPointName (name : String) : Bool :=
  (beforeSuffix? entryPointSuffixes name.toList).isSome

/-- The base name with the segment it spells. -/
def ParsedName.ofBase (base : String) (isEntryPoint : Bool) : ParsedName :=
  ⟨base, routeSegment base, isEntryPoint⟩

/-- Strips the entry point ending or, failing that, a script extension; at most
one of them is stripped. -/
def ParsedName.ofName (name : String) : ParsedName :=
  match beforeSuffix? entryPointSuffixes name.toList with
  | some base => .ofBase (String.ofList base) true
  | none =>
    match beforeSuffix? scriptExtensions name.toList with
    | some base => .ofBase (String.ofList base) false
    | none => .ofBase name false

/-- The reserved roles that a directory hands out at most once. -/
inductive Role where
  /-- The entry point that wraps its directory. -/
  | layout
  /-- The entry point shown at the directory's own path. -/
  | index
  deriving DecidableEq, Repr

/-- The word for a role in messages. -/
def Role.word : Role → String
  | .layout => "layout"
  | .index => "index"

/-- The role that a base name claims. -/
def Role.ofBase? (base : String) : Option Role :=
  if base = "_layout" then some .layout
  else if base = "_index" then some .index
  else none

end RouteAtlas
