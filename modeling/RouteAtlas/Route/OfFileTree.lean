import RouteAtlas.Route.Basic
import RouteAtlas.FileTree.Basic
import RouteAtlas.Failure

/-!
# From file trees to route trees

Every folder becomes a branch. Among its files, a `_layout` and an `_index` take
their roles, a file whose base name spells a segment becomes a leaf, and the
other reserved files are left out. The names are read in order, and the first
file that claims a role for a second time is reported.
-/

set_option autoImplicit false

namespace RouteAtlas

/-- The module that a recorded file provides. -/
def EntryPoint.ofLabel (label : Label) : EntryPoint := ⟨label.id, label.path⟩

/-- The node that a file becomes, if it is a route at all. -/
def RouteNode.ofFile? (label : Label) : Option RouteNode :=
  let parsed := ParsedName.ofName label.name
  match Role.ofBase? parsed.base with
  | some role => some (.special role (.ofLabel label))
  | none => parsed.segment.map (.leaf (.ofLabel label) ·)

/-- How messages call the folder with this id. -/
def folderTitle (id : String) : String := if id.isEmpty then "." else id

namespace Branch

/-- The branch with an entry point in the given role. -/
def withRole (branch : Branch) (role : Role) (entry : EntryPoint) : Branch :=
  match role with
  | .layout => { branch with layout := some entry }
  | .index => { branch with index := some entry }

/-- The entry point that plays a role in a branch. -/
def role? (branch : Branch) : Role → Option EntryPoint
  | .layout => branch.layout
  | .index => branch.index

/-- The branch with a node in front of its children. -/
def cons (node : RouteNode) (branch : Branch) : Branch :=
  { branch with children := node :: branch.children }

mutual

/-- Reads the entries of a folder in order. `seen` is the branch with the roles
that earlier entries have claimed and no children yet. -/
def ofEntries (seen : Branch) : List Entry → Except Failure Branch
  | [] => .ok seen
  | .file label :: rest =>
    match RouteNode.ofFile? label with
    | none => ofEntries seen rest
    | some (.special role entry) =>
      match seen.role? role with
      | some first =>
        .error (.roleClaimedTwice role (folderTitle seen.id) first.id entry.id)
      | none => ofEntries (seen.withRole role entry) rest
    | some node => (ofEntries seen rest).map (cons node)
  | .folder inner :: rest =>
    match ofFolder inner with
    | .error failure => .error failure
    | .ok branch => (ofEntries seen rest).map (cons (.branch branch))
  termination_by structural entries => entries

/-- The branch of a folder, with the segment that the folder's name spells. -/
def ofFolder : Folder → Except Failure Branch
  | ⟨label, entries⟩ =>
    ofEntries ⟨label.id, (ParsedName.ofName label.name).segment, none, none, []⟩ entries
  termination_by structural folder => folder

end

/-- The route tree of an app. Its root has no id and adds nothing to the path. -/
def ofFileTree (tree : Folder) : Except Failure Branch :=
  (ofFolder tree).map fun branch => { branch with id := "", path := none }

end Branch

end RouteAtlas
