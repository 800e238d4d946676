import RouteAtlas.Json
import RouteAtlas.FileTree.Basic

/-!
# File trees as JSON

A folder is an object with its label and its children by name; a child tells by
its `type` whether it is a file or a directory.
-/

set_option autoImplicit false

namespace RouteAtlas

/-- The fields of a label. -/
def Label.toFields (label : Label) : List JsonField :=
  [⟨"id", .text label.id⟩, ⟨"path", .text label.path.text⟩, ⟨"name", .text label.name⟩]

mutual

/-- The JSON object of an entry. -/
def Entry.toJson : Entry → Json
  | .file label => .object (⟨"type", .text "file"⟩ :: label.toFields)
  | .folder inner => .object (⟨"type", .text "directory"⟩ :: inner.toFields)
  termination_by structural entry => entry

/-- The fields of a folder. -/
def Folder.toFields : Folder → List JsonField
  | ⟨label, entries⟩ => label.toFields ++ [⟨"children", .object (Entry.toNamedFields entries)⟩]
  termination_by structural folder => folder

/-- The fields of some entries, each under the name of the entry. -/
def Entry.toNamedFields : List Entry → List JsonField
  | [] => []
  | entry :: rest => ⟨entry.name, entry.toJson⟩ :: Entry.toNamedFields rest
  termination_by structural entries => entries

end

/-- The JSON text of a folder. -/
def Folder.jsonText (folder : Folder) : String :=
  String.ofList (Json.object folder.toFields).compact

end RouteAtlas
