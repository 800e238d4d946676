import RouteAtlas.RoutesModule.OfFileTree

/-!
# Route tables

What an app serves is a table: one row for each layout, index and leaf, with the
module that is shown, the full path it is shown at and the layouts around it,
outermost first. The table can be read off in three places, and each reading is
written without regard to the others.

* `Folder.table` reads the file tree: the layout of a folder, its entries in
  order, its index.
* `Branch.table` reads a route tree the same way.
* `RoutesModule.table` reads the route objects that are written out, and looks
  the imported names up among the imports.

A full path is made of the parts met on the way down. `fullPath` leaves out the
empty ones, so only the full path of the parts so far decides what a further
part makes of it (`fullPath_append_congr`).
-/

set_option autoImplicit false

namespace RouteAtlas

/-- What a row of a route table is about. -/
inductive RowKind where
  | layout
  | leaf
  | index
  deriving DecidableEq, Repr

/-- A row of a route table, with modules given in the form `μ`. -/
structure Row (μ : Type) where
  kind : RowKind
  /-- The module that is shown. -/
  shown : μ
  /-- The full path it is shown at. -/
  path : String
  /-- The layouts around it, outermost first. -/
  layouts : List μ
  deriving DecidableEq, Repr

/-- The same row with modules in another form. -/
def Row.map {μ ν : Type} (f : μ → ν) (row : Row μ) : Row ν :=
  ⟨row.kind, f row.shown, row.path, row.layouts.map f⟩

/-- The path made of some parts: those that are not empty, joined with
slashes. -/
def fullPath (parts : List String) : String :=
  "/".intercalate (parts.filter (· ≠ ""))

/-! ## The table of a file tree -/

/-- The segment that the name of an entry adds to the path. -/
def Label.segment (label : Label) : Option String := (ParsedName.ofName label.name).segment

/-- Whether a file claims a role. -/
def Label.claims (role : Role) (label : Label) : Bool :=
  Role.ofBase? (ParsedName.ofName label.name).base == some role

/-- The first file among some entries that claims a role. -/
def Entry.claimant? (role : Role) : List Entry → Option EntryPoint
  | [] => none
  | .file label :: rest =>
    if label.claims role then some (.ofLabel label) else Entry.claimant? role rest
  | .folder _ :: rest => Entry.claimant? role rest

mutual

/-- The rows of the entries of a folder, in order: files with a segment are
leaves, and other files make no row of their own. -/
def Entry.rows (parts : List String) (layouts : List EntryPoint) :
    List Entry → List (Row EntryPoint)
  | [] => []
  | .file label :: rest =>
    (label.segment.toList.map fun segment =>
      ⟨.leaf, .ofLabel label, fullPath (parts ++ [segment]), layouts⟩) ++
      Entry.rows parts layouts rest
  | .folder inner :: rest =>
    inner.rows (parts ++ inner.label.segment.toList) layouts ++ Entry.rows parts layouts rest
  termination_by structural entries => entries

/-- The rows of a folder that is reached by the given parts: its layout, its
entries, its index. -/
def Folder.rows (parts : List String) (layouts : List EntryPoint) :
    Folder → List (Row EntryPoint)
  | ⟨_, entries⟩ =>
    let layout := (Entry.claimant? .layout entries).toList
    let index := (Entry.claimant? .index entries).toList
    layout.map (⟨.layout, ·, fullPath parts, layouts⟩) ++
      (Entry.rows parts (layouts ++ layout) entries ++
        index.map (⟨.index, ·, fullPath parts, layouts ++ layout⟩))
  termination_by structural folder => folder

end

/-- The route table of a file tree. The root adds nothing to the path. -/
def Folder.table (tree : Folder) : List (Row EntryPoint) := tree.rows [] []

/-! ## The table of a route tree -/

mutual

/-- The rows of the children of a branch, in order. Nodes out of place make
none. -/
def RouteNode.rows (parts : List String) (layouts : List EntryPoint) :
    List RouteNode → List (Row EntryPoint)
  | [] => []
  | .leaf entry path :: rest =>
    ⟨.leaf, entry, fullPath (parts ++ [path]), layouts⟩ :: RouteNode.rows parts layouts rest
  | .special _ _ :: rest => RouteNode.rows parts layouts rest
  | .branch inner :: rest => inner.rows parts layouts ++ RouteNode.rows parts layouts rest
  termination_by structural nodes => nodes

/-- The rows of a branch: its layout, its children, its index. -/
def Branch.rows (parts : List String) (layouts : List EntryPoint) :
    Branch → List (Row EntryPoint)
  | ⟨_, path, layout, index, children⟩ =>
    let here := parts ++ path.toList
    layout.toList.map (⟨.layout, ·, fullPath here, layouts⟩) ++
      (RouteNode.rows here (layouts ++ layout.toList) children ++
        index.toList.map (⟨.index, ·, fullPath here, layouts ++ layout.toList⟩))
  termination_by structural branch => branch

end

/-- The route table of a route tree. -/
def Branch.table (root : Branch) : List (Row EntryPoint) := root.rows [] []

/-! ## The table of a routes module -/

mutual

/-- The rows of a route object. With children it is a directory and its entry
point, if any, a layout; without, it is an index or a leaf. Its path, if any,
extends the path so far. `source?` tells which module a name stands for. -/
def RouteObject.rows (source? : String → Option String) (parts layouts : List String) :
    RouteObject → List (Row String)
  | ⟨properties⟩ =>
    let object : RouteObject := ⟨properties⟩
    let here := parts ++ object.path?.toList
    let shown := (object.entryPoint?.bind source?).toList
    match Property.rowsBelow source? here (layouts ++ shown) properties with
    | some below => shown.map (⟨.layout, ·, fullPath here, layouts⟩) ++ below
    | none =>
      shown.map (⟨if object.isIndex then .index else .leaf, ·, fullPath here, layouts⟩)
  termination_by structural object => object

/-- The rows below a route object: those of its first `children` property, if it
has one. -/
def Property.rowsBelow (source? : String → Option String) (parts layouts : List String) :
    List Property → Option (List (Row String))
  | [] => none
  | property :: rest =>
    if property.key = .children then some (property.rowsOf source? parts layouts)
    else Property.rowsBelow source? parts layouts rest
  termination_by structural properties => properties

/-- The rows of the value of a property. -/
def Property.rowsOf (source? : String → Option String) (parts layouts : List String) :
    Property → List (Row String)
  | ⟨_, value⟩ => value.rows source? parts layouts
  termination_by structural property => property

/-- The rows of a value: only a list of route objects has any. -/
def Value.rows (source? : String → Option String) (parts layouts : List String) :
    Value → List (Row String)
  | .routes routes => RouteObject.allRows source? parts layouts routes
  | .binding _ => []
  | .text _ => []
  | .flag _ => []
  termination_by structural value => value

/-- The rows of some route objects, in order. -/
def RouteObject.allRows (source? : String → Option String) (parts layouts : List String) :
    List RouteObject → List (Row String)
  | [] => []
  | object :: rest =>
    object.rows source? parts layouts ++ RouteObject.allRows source? parts layouts rest
  termination_by structural objects => objects

end

/-- The module that a name is imported from. -/
def RoutesModule.source? (written : RoutesModule) (name : String) : Option String :=
  (written.imports.find? fun declared => declared.localName == name).map (·.source)

/-- The route table of a routes module. -/
def RoutesModule.table (written : RoutesModule) : List (Row String) :=
  RouteObject.allRows written.source? [] [] written.routes

/-! ## Full paths -/

/-- Two texts with a slash between them, unless one is empty. -/
def slashed (left right : String) : String :=
  if left = "" then right else if right = "" then left else left ++ "/" ++ right

/-- Nothing behind a path leaves it as it is. -/
@[simp] theorem slashed_empty (left : String) : slashed left "" = left := by
  by_cases h : left = "" <;> simp [slashed, h]

/-- Nothing in front of a path leaves it as it is. -/
@[simp] theorem empty_slashed (right : String) : slashed "" right = right := by
  simp [slashed]

/-- The path of no parts is empty. -/
@[simp] theorem fullPath_nil : fullPath [] = "" := by
  simp [fullPath]

/-- The path of a single part is the part. -/
@[simp] theorem fullPath_singleton (part : String) : fullPath [part] = part := by
  by_cases h : part = "" <;> simp [fullPath, h]

/-- A full path is empty exactly if all parts are. -/
theorem fullPath_eq_empty_iff (parts : List String) :
    fullPath parts = "" ↔ parts.filter (· ≠ "") = [] := by
  constructor
  · intro h
    match present : parts.filter (· ≠ "") with
    | [] => rfl
    | first :: others =>
      have member : first ∈ parts.filter (· ≠ "") := present ▸ List.mem_cons_self
      have notEmpty : first ≠ "" := by simpa using (List.mem_filter.1 member).2
      rw [fullPath, present] at h
      cases others <;> simp [notEmpty] at h
  · intro h
    rw [fullPath, h, String.intercalate_nil]

/-- The full path of two runs of parts joins their full paths. -/
theorem fullPath_append (before after : List String) :
    fullPath (before ++ after) = slashed (fullPath before) (fullPath after) := by
  by_cases left : fullPath before = ""
  · rw [left, empty_slashed]
    rw [fullPath_eq_empty_iff] at left
    rw [fullPath, fullPath, List.filter_append, left, List.nil_append]
  · by_cases right : fullPath after = ""
    · rw [right, slashed_empty]
      rw [fullPath_eq_empty_iff] at right
      rw [fullPath, fullPath, List.filter_append, right, List.append_nil]
    · rw [slashed, if_neg left, if_neg right]
      rw [fullPath_eq_empty_iff] at left right
      rw [fullPath, List.filter_append, String.intercalate_append_of_ne_nil left right]
      rfl

/-- Parts with the same path have the same path with others behind them. -/
theorem fullPath_append_congr {parts others : List String} (same : fullPath parts = fullPath others)
    (after : List String) : fullPath (parts ++ after) = fullPath (others ++ after) := by
  rw [fullPath_append, fullPath_append, same]

/-- The path of an optional part is the part, or empty. -/
theorem fullPath_toList (part : Option String) : fullPath part.toList = part.getD "" := by
  cases part <;> simp

/-- Joining optional parts makes the full path of those that are there. -/
theorem joinParts_getD (parts : List (Option String)) :
    (joinParts parts).getD "" = fullPath (parts.filterMap id) := by
  have present : parts.filterMap (fun part => part.filter fun text => !text.isEmpty) =
      (parts.filterMap id).filter (· ≠ "") := by
    induction parts with
    | nil => rfl
    | cons part rest ih =>
      match part with
      | none => simpa using ih
      | some text =>
        rw [List.filterMap_cons, List.filterMap_cons, ih]
        by_cases h : text = "" <;> simp [Option.filter_some, h]
  rw [joinParts, present, fullPath]
  split
  next none => rw [none, String.intercalate_nil]; rfl
  next => rfl

/-- Two optional paths are joined as two parts are. -/
theorem joinPaths_getD (parent child : Option String) :
    (joinPaths parent child).getD "" = fullPath (parent.toList ++ child.toList) := by
  rw [joinPaths, joinParts_getD]
  cases parent <;> cases child <;> rfl

end RouteAtlas
