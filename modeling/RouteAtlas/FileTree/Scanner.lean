import RouteAtlas.FileTree.Scan
import RouteAtlas.Text.Utf8

/-!
# The scanner

How a scan is carried out. A directory is opened by its path, and its entries are listed in
no particular order, each with the bytes of its name and its kind. Links and special files
are passed over. The names are read as texts, which may be lossy; ignored ones are dropped,
and the others are brought into order. First the entry points are recorded, then the
directories are scanned, and those that hold entry points are recorded as well. A path that
is made from a name is spelled with the text of the name.

The directories that lie in one directory are scanned one after the other, or by several
workers at the same time. All of them are scanned, also behind one that fails; what they
give is taken in their order.

Where all names are texts, `FileSystem.scan` tells the same without going through paths and
listings; `FileSystem.scanWith_eq_scan` says that the number of workers and the order of
their work make no difference. Permissions are not modelled: whatever has a path can be
read.
-/

set_option autoImplicit false

namespace RouteAtlas

/-- What a listing tells of the kind of an entry. -/
inductive ListedKind where
  | file
  | directory
  /-- A symbolic link or a special file. -/
  | other
  deriving DecidableEq, Repr

/-- An entry of a directory as it is listed. -/
structure Listed where
  /-- The bytes of the name. -/
  name : List UInt8
  kind : ListedKind
  deriving DecidableEq, Repr

/-- What a scan asks of the operating system. -/
structure Host where
  /-- Whether a path leads to a directory. -/
  isDirectory : Path → Except OsError Bool
  /-- What the directory holds that a path leads to. -/
  list : Path → Except OsError (List Listed)

/-- Who scans the directories that lie in one directory. -/
structure Workers where
  /-- How many work at the same time; 0 leaves the number open. -/
  count : Nat
  /-- The order in which they take so many directories below a path. -/
  turns : Path → Nat → List Nat
  /-- Every directory is taken once. -/
  perm : ∀ path tasks, (turns path tasks).Perm (List.range tasks)

namespace Workers

/-- Workers that take the last directory first. -/
def lastFirst (count : Nat) : Workers where
  count := count
  turns _ tasks := (List.range tasks).reverse
  perm _ _ := List.reverse_perm _

/-- Does a task for each of the inputs, which lie below a path. A single worker takes them
in order. Several leave each result at the place of its input, whichever is done first. -/
def run {α β : Type} (workers : Workers) (path : Path) (task : α → β) (inputs : List α) :
    List β :=
  if workers.count = 1 then inputs.map task
  else
    let done := (workers.turns path inputs.length).filterMap fun place =>
      inputs[place]?.map fun input => (place, task input)
    (List.range inputs.length).filterMap fun place => done.lookup place

end Workers

/-- Puts the folders that have entries where their names belong, unless a scan failed. -/
def Entry.insertScanned : List Entry → List (Except Failure Folder) → Except Failure (List Entry)
  | entries, [] => .ok entries
  | _, .error failure :: _ => .error failure
  | entries, .ok inner :: rest =>
    insertScanned (if inner.isEmpty then entries else Entry.insert (.folder inner) entries) rest

namespace Host

/-- What the directory at a path holds for a scan, by the texts of the names in their
order. -/
def entries (host : Host) (patterns : List String) (path : Path) :
    Except Failure (List (String × ListedKind)) :=
  match host.list path with
  | .error cause => .error (.io path cause)
  | .ok listed =>
    let read := (listed.filter fun entry => entry.kind ≠ .other).map fun entry =>
      (Text.lossy entry.name, entry.kind)
    let kept := read.filter fun entry => !isIgnored patterns entry.1
    .ok (kept.mergeSort fun entry other => entry.1 ≤ other.1)

/-- Scans the directory of a label and at most so many levels of directories. Each level
makes the paths longer, so no path can be opened behind the last one. -/
def scanBelow (host : Host) (workers : Workers) (patterns : List String) :
    Nat → Label → Except Failure Folder
  | 0, label => .error (.io label.path .nameTooLong)
  | levels + 1, label =>
    match host.entries patterns label.path with
    | .error failure => .error failure
    | .ok listed =>
      let files := (listed.filter fun entry => entry.2 = .file ∧ isEntryPointName entry.1).map
        fun entry => Entry.file (label.child entry.1)
      let folders := (listed.filter fun entry => entry.2 = .directory).map (·.1)
      let scanned := workers.run label.path
        (fun name => scanBelow host workers patterns levels (label.child name)) folders
      (Entry.insertScanned (files.foldl (fun entries file => Entry.insert file entries) [])
        scanned).map fun entries => ⟨label, entries⟩

/-- Scans the directory that `root` leads to. -/
def scan (host : Host) (workers : Workers) (patterns : List String) (root : Path) :
    Except Failure Folder :=
  match host.isDirectory root with
  | .error cause => .error (.io root cause)
  | .ok false => .error (.rootNotDirectory root)
  | .ok true => host.scanBelow workers patterns FileSystem.pathLimit (Folder.root root).label

end Host

/-- The kind with which an item is listed. -/
def Item.listedKind : Item → ListedKind
  | .file _ => .file
  | .link _ => .other
  | .directory _ => .directory

/-- A slot as it is listed. -/
def Slot.listed (slot : Slot) : Listed := ⟨Text.bytes slot.name, slot.item.listedKind⟩

namespace FileSystem

/-- A file system as a scan sees it. -/
def host (fs : FileSystem) : Host where
  isDirectory path := (fs.lookUp .follow path).map fun item => item.listedKind = .directory
  list path :=
    match fs.lookUp .follow path with
    | .error cause => .error cause
    | .ok (.directory slots) => .ok (slots.map Slot.listed)
    | .ok _ => .error .notADirectory

/-- Scans the directory that `root` leads to by its listings. -/
def scanWith (fs : FileSystem) (workers : Workers) (patterns : List String) (root : Path) :
    Except Failure Folder :=
  fs.host.scan workers patterns root

end FileSystem

end RouteAtlas
