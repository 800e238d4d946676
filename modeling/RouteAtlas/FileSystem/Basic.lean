import RouteAtlas.Path

/-!
# The file system

A file system is a tree of directories that hold files, symbolic links and more
directories, together with the directory that relative paths start from. A
location is the list of names that leads from the root to an item through
directories only; `FileSystem.item?` looks one up, and `FileSystem.place` and
`FileSystem.clear` change what is there.

The slots of a directory are in no particular order: whoever lists a directory
has to bring its names into one.

Every name is a text. The names that an operating system knows are bytes, and only
those that are UTF-8 have a place here; what a scan makes of others is told in
`RouteAtlas.FileTree.Scanner`. Permissions and special files are left out too.
-/

set_option autoImplicit false

namespace RouteAtlas

mutual

/-- What a directory can hold under a name. -/
inductive Item where
  | file (contents : String)
  | link (target : Path)
  | directory (slots : List Slot)

/-- A name in a directory and what it stands for. -/
structure Slot where
  name : String
  item : Item

end

/-- The names that lead from the root of the file system to an item. -/
abbrev Location := List String

namespace Slot

/-- What the first slot of this name holds. -/
def find? (name : String) : List Slot → Option Item
  | [] => none
  | slot :: rest => if slot.name = name then some slot.item else find? name rest

/-- Puts an item under a name, in the place of the item that had the name. -/
def put (name : String) (item : Item) : List Slot → List Slot
  | [] => [⟨name, item⟩]
  | slot :: rest =>
    if slot.name = name then ⟨name, item⟩ :: rest else slot :: put name item rest

/-- The slots with any other name. -/
def remove (name : String) (slots : List Slot) : List Slot :=
  slots.filter fun slot => slot.name != name

/-- Changes the listing of the directory at a location; without a directory
there, nothing changes. -/
def editAt (edit : List Slot → List Slot) : Location → List Slot → List Slot
  | [], slots => edit slots
  | name :: rest, slots =>
    match find? name slots with
    | some (.directory inner) => put name (.directory (editAt edit rest inner)) slots
    | _ => slots

end Slot

/-- The item that a location leads to from here, through directories only. -/
def Item.at? : Item → Location → Option Item
  | item, [] => some item
  | .directory slots, name :: rest =>
    match Slot.find? name slots with
    | some inner => inner.at? rest
    | none => none
  | _, _ :: _ => none

/-- A file system and the directory that relative paths start from. -/
structure FileSystem where
  /-- What the root directory holds. -/
  top : List Slot
  /-- Where the working directory is. -/
  workingDirectory : Location

namespace FileSystem

/-- The item at a location. -/
def item? (fs : FileSystem) (location : Location) : Option Item :=
  (Item.directory fs.top).at? location

/-- Puts an item at a location whose parent is a directory. -/
def place (fs : FileSystem) (location : Location) (item : Item) : FileSystem :=
  match location.getLast? with
  | some name => { fs with top := Slot.editAt (Slot.put name item) location.dropLast fs.top }
  | none => fs

/-- Removes the item at a location, with all it holds. -/
def clear (fs : FileSystem) (location : Location) : FileSystem :=
  match location.getLast? with
  | some name => { fs with top := Slot.editAt (Slot.remove name) location.dropLast fs.top }
  | none => fs

/-- The absolute path that spells a location. -/
def pathOf (location : Location) : Path :=
  ⟨"/" ++ "/".intercalate location⟩

end FileSystem

end RouteAtlas
