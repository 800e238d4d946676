import RouteAtlas.Path

/-!
# File trees

A file tree records the entry points of an app and the folders that lead to
them. Every entry carries its label: the id, which is its path relative to the
app's root, the path under which the operating system knows it, and its name.
The entries of a folder stand in increasing order of their names, each name
once; `Entry.insert`, `Entry.remove` and `Entry.find?` treat the list as a map
from names.
-/

set_option autoImplicit false

namespace RouteAtlas

/-- Joins a relative id with the name of a child. -/
def childId (parent name : String) : String :=
  if parent.isEmpty then name else parent ++ "/" ++ name

/-- What a file tree knows about an entry. -/
structure Label where
  /-- The path relative to the root, empty for the root itself. -/
  id : String
  path : Path
  name : String
  deriving DecidableEq, Repr

/-- The label of the entry called `name` in the folder labelled `parent`. -/
def Label.child (parent : Label) (name : String) : Label :=
  ⟨childId parent.id name, parent.path.child name, name⟩

mutual

/-- An entry of a folder. -/
inductive Entry where
  | file (label : Label)
  | folder (folder : Folder)

/-- A folder with its entries; the root of an app is one too. -/
structure Folder where
  label : Label
  entries : List Entry

end

namespace Entry

/-- The label of an entry. -/
def label : Entry → Label
  | .file label => label
  | .folder inner => inner.label

/-- The name an entry is found by. -/
def name (entry : Entry) : String := entry.label.name

/-- The entry of the given name. -/
def find? (name : String) : List Entry → Option Entry
  | [] => none
  | entry :: rest => if entry.name = name then some entry else find? name rest

/-- Puts an entry where its name belongs, in place of the one that had it. -/
def insert (entry : Entry) : List Entry → List Entry
  | [] => [entry]
  | other :: rest =>
    if entry.name < other.name then entry :: other :: rest
    else if entry.name = other.name then entry :: rest
    else other :: insert entry rest

/-- Removes the entry of the given name. -/
def remove (name : String) : List Entry → List Entry
  | [] => []
  | entry :: rest => if entry.name = name then rest else entry :: remove name rest

end Entry

namespace Folder

/-- The folder of an app's root before anything is recorded in it. -/
def root (path : Path) : Folder :=
  ⟨⟨"", path, path.fileName?.getD "."⟩, []⟩

/-- An empty folder called `name` in the folder labelled `parent`. -/
def empty (parent : Label) (name : String) : Folder :=
  ⟨parent.child name, []⟩

/-- Whether nothing is recorded in a folder. -/
def isEmpty (folder : Folder) : Bool := folder.entries.isEmpty

end Folder

mutual

/-- The files among some entries and below them, in order. -/
def Entry.files : List Entry → List Label
  | [] => []
  | .file label :: rest => label :: Entry.files rest
  | .folder inner :: rest => inner.files ++ Entry.files rest
  termination_by structural entries => entries

/-- The files below a folder, in order. -/
def Folder.files : Folder → List Label
  | ⟨_, entries⟩ => Entry.files entries
  termination_by structural folder => folder

end

mutual

/-- Equality of entries can be decided. -/
def Entry.decEq : (a b : Entry) → Decidable (a = b)
  | .file a, .file b =>
    if h : a = b then isTrue (by rw [h]) else isFalse (by intro e; cases e; exact h rfl)
  | .folder a, .folder b =>
    match Folder.decEq a b with
    | isTrue h => isTrue (by rw [h])
    | isFalse h => isFalse (by intro e; cases e; exact h rfl)
  | .file _, .folder _ => isFalse (by intro e; cases e)
  | .folder _, .file _ => isFalse (by intro e; cases e)
  termination_by structural a => a

/-- Equality of folders can be decided. -/
def Folder.decEq : (a b : Folder) → Decidable (a = b)
  | ⟨a, as⟩, ⟨b, bs⟩ =>
    if h : a = b then
      match Entry.decEqList as bs with
      | isTrue hs => isTrue (by rw [h, hs])
      | isFalse hs => isFalse (by intro e; cases e; exact hs rfl)
    else isFalse (by intro e; cases e; exact h rfl)
  termination_by structural a => a

/-- Equality of lists of entries can be decided. -/
def Entry.decEqList : (as bs : List Entry) → Decidable (as = bs)
  | [], [] => isTrue rfl
  | a :: as, b :: bs =>
    match Entry.decEq a b with
    | isTrue h =>
      match Entry.decEqList as bs with
      | isTrue hs => isTrue (by rw [h, hs])
      | isFalse hs => isFalse (by intro e; cases e; exact hs rfl)
    | isFalse h => isFalse (by intro e; cases e; exact h rfl)
  | [], _ :: _ => isFalse (by intro e; cases e)
  | _ :: _, [] => isFalse (by intro e; cases e)
  termination_by structural as => as

end

instance : DecidableEq Entry := Entry.decEq

instance : DecidableEq Folder := Folder.decEq

end RouteAtlas
