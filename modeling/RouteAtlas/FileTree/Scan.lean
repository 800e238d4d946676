import RouteAtlas.FileTree.Basic
import RouteAtlas.FileSystem.Resolution
import RouteAtlas.Failure
import RouteAtlas.Glob

/-!
# Scanning an app

A scan records what a directory of the file system holds: every regular file
with the name of an entry point, and the directories on the way to one. Symbolic
links and ignored names are passed over, at every depth. The root itself is
always recorded, and it is the one path that may lead through links.

A directory is read by the path that its folder gets. Where that path is too
long the scan fails, and it reports the first such directory in the order of
names.

What is told here is the outcome, for names that are texts. How a scan comes to it, by
listings and with any number of workers, is told in `RouteAtlas.FileTree.Scanner`.
-/

set_option autoImplicit false

namespace RouteAtlas

mutual

/-- The entries that the slots of a directory give to the folder labelled
`parent`. -/
def Slot.record (patterns : List String) (parent : Label) : List Slot → List Entry
  | [] => []
  | slot :: rest =>
    let others := Slot.record patterns parent rest
    if isIgnored patterns slot.name then others
    else
      match slot.recordOne patterns parent with
      | some entry => Entry.insert entry others
      | none => others
  termination_by structural slots => slots

/-- The entry that a slot gives, whether or not its name is ignored. -/
def Slot.recordOne (patterns : List String) (parent : Label) : Slot → Option Entry
  | ⟨name, item⟩ => item.record patterns parent name
  termination_by structural slot => slot

/-- The entry that an item gives under a name. A directory without entry points
gives none. -/
def Item.record (patterns : List String) (parent : Label) (name : String) : Item → Option Entry
  | .file _ => if isEntryPointName name then some (.file (parent.child name)) else none
  | .link _ => none
  | .directory slots =>
    let inner := Slot.record patterns (parent.child name) slots
    if inner.isEmpty then none else some (.folder ⟨parent.child name, inner⟩)
  termination_by structural item => item

end

mutual

/-- Where, below the directory at `parent`, its slots hold directories that a
scan cannot read. -/
def Slot.outOfReach (patterns : List String) (parent : Path) : List Slot → List Location
  | [] => []
  | slot :: rest =>
    let others := Slot.outOfReach patterns parent rest
    if isIgnored patterns slot.name then others
    else (slot.outOfReachOne patterns parent).map (slot.name :: ·) ++ others
  termination_by structural slots => slots

/-- Where a slot holds directories that a scan cannot read, whether or not its
name is ignored. -/
def Slot.outOfReachOne (patterns : List String) (parent : Path) : Slot → List Location
  | ⟨name, item⟩ => item.outOfReach patterns (parent.child name)
  termination_by structural slot => slot

/-- Where an item, which stands at `path`, holds directories that a scan cannot
read. What such a directory holds is not looked at. -/
def Item.outOfReach (patterns : List String) (path : Path) : Item → List Location
  | .file _ => []
  | .link _ => []
  | .directory slots =>
    if FileSystem.pathLimit ≤ path.text.utf8ByteSize then [[]]
    else Slot.outOfReach patterns path slots
  termination_by structural item => item

end

/-- The first of the given locations, where names are compared one after the
other and a directory comes before what it holds. -/
def Location.first? : List Location → Option Location
  | [] => none
  | location :: rest =>
    match first? rest with
    | none => some location
    | some other => if other < location then some other else some location

/-- Scans the directory that `root` leads to. -/
def FileSystem.scan (fs : FileSystem) (patterns : List String) (root : Path) :
    Except Failure Folder :=
  match fs.lookUp .follow root with
  | .error cause => .error (.io root cause)
  | .ok (.directory slots) =>
    match Location.first? (Item.outOfReach patterns root (.directory slots)) with
    | some location => .error (.io (location.foldl Path.child root) .nameTooLong)
    | none =>
      let folder := Folder.root root
      .ok ⟨folder.label, Slot.record patterns folder.label slots⟩
  | .ok _ => .error (.rootNotDirectory root)

end RouteAtlas
