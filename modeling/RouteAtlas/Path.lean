/-!
# Paths

A path keeps the text it was given and is compared by its components. Repeated
slashes, a trailing slash and `.` add no component; only a `.` at the front of a
relative path counts.

`Path.below?` takes the components of a base off the front of a path, and
`Path.isBelow` only tells whether that is possible. `Path.child` puts one name
behind a path.

Paths are texts: those whose bytes are not UTF-8 are left out.
-/

set_option autoImplicit false

namespace RouteAtlas

/-- A path as it was written. -/
structure Path where
  text : String
  deriving DecidableEq, Repr

/-- One step of a path. -/
inductive Component where
  /-- The slash at the front of an absolute path. -/
  | root
  /-- The `.` at the front of a relative path. -/
  | current
  /-- A step up, written `..`. -/
  | parent
  /-- A step to the entry of this name. -/
  | name (name : String)
  deriving DecidableEq, Repr

namespace Path

/-- The texts between the slashes; there is always at least one. -/
def pieces : List Char → List (List Char)
  | [] => [[]]
  | c :: rest =>
    if c = '/' then [] :: pieces rest
    else
      match pieces rest with
      | [] => [[c]]
      | piece :: others => (c :: piece) :: others

/-- The component that a piece adds behind the front of a path. -/
def componentOf? (piece : List Char) : Option Component :=
  if piece = [] ∨ piece = ['.'] then none
  else if piece = ['.', '.'] then some .parent
  else some (.name (String.ofList piece))

/-- Whether a path starts at the root of the file system. -/
def isAbsolute (path : Path) : Bool :=
  path.text.toList.head? = some '/'

/-- What the front of a path adds before its pieces are read. -/
def lead (path : Path) : List Component :=
  if path.isAbsolute then [.root]
  else if (pieces path.text.toList).head? = some ['.'] then [.current]
  else []

/-- The components of a path from left to right. -/
def components (path : Path) : List Component :=
  path.lead ++ (pieces path.text.toList).filterMap componentOf?

/-- The path with `name` as its last step. A slash is added only where the left
side needs one, and an absolute `name` replaces the left side. -/
def child (path : Path) (name : String) : Path :=
  if name.toList.head? = some '/' then ⟨name⟩
  else
    match path.text.toList.getLast? with
    | none => ⟨name⟩
    | some '/' => ⟨path.text ++ name⟩
    | some _ => ⟨path.text ++ "/" ++ name⟩

/-- The name that a path ends in, unless it ends in a step up or is a root. -/
def fileName? (path : Path) : Option String :=
  match path.components.getLast? with
  | some (.name name) => some name
  | _ => none

/-- The components of `path` behind those of `base`, if it starts with them. -/
def below? (base path : Path) : Option (List Component) :=
  base.components.isPrefixOf? path.components

/-- Whether the components of `path` start with those of `base`. -/
def isBelow (base path : Path) : Bool :=
  base.components.isPrefixOf path.components

end Path

end RouteAtlas
