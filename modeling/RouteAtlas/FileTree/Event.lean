import RouteAtlas.FileTree.Basic
import RouteAtlas.Failure
import RouteAtlas.Glob

/-!
# Events on a file tree

A file tree is kept current by events instead of being scanned again. Creating
a file adds it together with the folders it needs; deleting an entry also
removes the folders that it leaves empty. An event for a path that the tree does
not watch changes nothing, and a path that leaves the root is refused. The names in a
path are texts; bytes that are no text are read as a scan reads them (`Text.lossy`).
-/

set_option autoImplicit false

namespace RouteAtlas

/-- What happened to a path. -/
inductive Event where
  | create
  | delete
  /-- A change of contents, which no route depends on. -/
  | update
  deriving DecidableEq, Repr

namespace Folder

/-- Records a file below a folder, with the folders on the way to it. A file
that stands where a folder is needed gives way. The flag tells whether anything
changed. -/
def create (folder : Folder) : List String → Folder × Bool
  | [] => (folder, false)
  | [name] =>
    match Entry.find? name folder.entries with
    | some _ => (folder, false)
    | none =>
      ({ folder with
          entries := Entry.insert (.file (folder.label.child name)) folder.entries }, true)
  | name :: rest =>
    match Entry.find? name folder.entries with
    | some (.folder inner) =>
      let (inner, changed) := inner.create rest
      ({ folder with entries := Entry.insert (.folder inner) folder.entries }, changed)
    | _ =>
      let (inner, _) := (Folder.empty folder.label name).create rest
      ({ folder with entries := Entry.insert (.folder inner) folder.entries }, true)

/-- Removes an entry below a folder, and the folders that it leaves empty. The
flag tells whether anything was removed. -/
def delete (folder : Folder) : List String → Folder × Bool
  | [] => (folder, false)
  | [name] =>
    match Entry.find? name folder.entries with
    | some _ => ({ folder with entries := Entry.remove name folder.entries }, true)
    | none => (folder, false)
  | name :: rest =>
    match Entry.find? name folder.entries with
    | some (.folder inner) =>
      match inner.delete rest with
      | (_, false) => (folder, false)
      | (inner, true) =>
        let entries :=
          if inner.isEmpty then Entry.remove name folder.entries
          else Entry.insert (.folder inner) folder.entries
        ({ folder with entries := entries }, true)
    | _ => (folder, false)

/-- The names of components that only go down, `.` left out. -/
def namesBelow? : List Component → Option (List String)
  | [] => some []
  | .name name :: rest => (namesBelow? rest).map (name :: ·)
  | .current :: rest => namesBelow? rest
  | _ :: _ => none

/-- The names that lead from the root of a tree to a path. A path that is not
below the root, is the root, or has an ignored name is not watched. -/
def watched? (tree : Folder) (patterns : List String) (path : Path) :
    Except Failure (Option (List String)) :=
  match tree.label.path.below? path with
  | none => .ok none
  | some components =>
    match namesBelow? components with
    | none => .error (.pathEscapes path)
    | some names =>
      if names.isEmpty || names.any (isIgnored patterns) then .ok none else .ok (some names)

/-- The tree after an event, and whether it changed. -/
def apply (tree : Folder) (patterns : List String) (path : Path) (event : Event) :
    Except Failure (Folder × Bool) := do
  match ← tree.watched? patterns path with
  | none => .ok (tree, false)
  | some names =>
    match event with
    | .create =>
      if names.getLast?.any isEntryPointName then .ok (tree.create names) else .ok (tree, false)
    | .delete => .ok (tree.delete names)
    | .update => .ok (tree, false)

end Folder

end RouteAtlas
