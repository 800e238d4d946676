import RouteAtlas.FileSystem.Change

/-!
# Listings

A file system can be written down as a list of lines, one for each item. A line
is a path; a slash at its end makes it a directory, ` -> ` and a target behind
it a symbolic link, and anything else is a file. Parents need no line of their
own, and a line that cannot be put into effect is passed over.
-/

set_option autoImplicit false

namespace RouteAtlas

/-- The text before the first arrow of a line and the text behind it. -/
def splitArrow? : List Char → Option (List Char × List Char)
  | ' ' :: '-' :: '>' :: ' ' :: target => some ([], target)
  | c :: rest => (splitArrow? rest).map fun (before, target) => (c :: before, target)
  | [] => none

/-- The change that makes the item of a line. -/
def Change.ofLine (line : String) : Change :=
  match splitArrow? line.toList with
  | some (path, target) => .link ⟨String.ofList path⟩ ⟨String.ofList target⟩
  | none =>
    if line.toList.getLast? = some '/' then .makeDirectory ⟨line⟩ else .write ⟨line⟩ ""

namespace FileSystem

/-- A file system with nothing but its working directory. -/
def bare (workingDirectory : Location) : FileSystem :=
  ⟨workingDirectory.foldr (fun name slots => [⟨name, .directory slots⟩]) [], workingDirectory⟩

/-- The file system after the changes that are possible, in order. -/
def applyAll (fs : FileSystem) (changes : List Change) : FileSystem :=
  changes.foldl (fun fs change => (fs.apply change).toOption.getD fs) fs

/-- The file system that a listing describes. -/
def ofListing (workingDirectory : Location) (lines : List String) : FileSystem :=
  (bare workingDirectory).applyAll (lines.map Change.ofLine)

end FileSystem

end RouteAtlas
