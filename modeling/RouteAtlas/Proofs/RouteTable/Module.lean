import RouteAtlas.Proofs.RouteTable.Passes
import RouteAtlas.Proofs.RoutesModule.Bindings

/-!
# The routes module serves the file tree

The route objects of a route tree have the table of the tree, as long as every
name in them leads to the module of its entry point (`Branch.rows_object`). The
imports of a module that is written out see to that, since no name is bound
twice. With what the passes keep, the table of the module is the table of the
file tree: `RoutesModule.table_ofFileTree`.
-/

set_option autoImplicit false

namespace RouteAtlas

/-- The text under which an entry point is imported from. -/
def EntryPoint.module (entry : EntryPoint) : String := entry.source.text

/-- Whether the names of some entry points lead to their modules. -/
def Resolves (source? : String → Option String) (entries : List EntryPoint) : Prop :=
  ∀ entry ∈ entries, source? entry.localName = some entry.module

/-! ## The rows of single objects -/

/-- The object of a leaf makes the row of the leaf. -/
theorem rows_leafObject (source? : String → Option String) (parts : List String)
    (layouts : List EntryPoint) (entry : EntryPoint) (path : String)
    (known : source? entry.localName = some entry.module) :
    RouteObject.rows source? parts (layouts.map EntryPoint.module)
        ⟨[entry.property, pathProperty path]⟩ =
      [Row.map EntryPoint.module ⟨.leaf, entry, fullPath (parts ++ [path]), layouts⟩] := by
  simp [RouteObject.rows, Property.rowsBelow, RouteObject.path?, RouteObject.entryPoint?,
    RouteObject.isIndex, RouteObject.get?, EntryPoint.property, pathProperty, known, Row.map]

/-- The object of an index makes the row of the index. -/
theorem rows_indexObject (source? : String → Option String) (parts : List String)
    (layouts : List EntryPoint) (entry : EntryPoint)
    (known : source? entry.localName = some entry.module) :
    entry.indexObject.rows source? parts (layouts.map EntryPoint.module) =
      [Row.map EntryPoint.module ⟨.index, entry, fullPath parts, layouts⟩] := by
  simp [EntryPoint.indexObject, RouteObject.rows, Property.rowsBelow, RouteObject.path?,
    RouteObject.entryPoint?, RouteObject.isIndex, RouteObject.get?, EntryPoint.property, known,
    Row.map]

/-- The object of a branch makes a row for its layout and the rows of its
children under the path of the branch. -/
theorem rows_branchObject (source? : String → Option String) (parts layouts : List String)
    (path : Option String) (layout : Option EntryPoint) (objects : List RouteObject)
    (known : Resolves source? layout.toList) :
    RouteObject.rows source? parts layouts
        ⟨layout.toList.map EntryPoint.property ++
          (path.toList.map pathProperty ++ [⟨.children, .routes objects⟩])⟩ =
      (layout.toList.map EntryPoint.module).map
          (⟨.layout, ·, fullPath (parts ++ path.toList), layouts⟩) ++
        RouteObject.allRows source? (parts ++ path.toList)
          (layouts ++ layout.toList.map EntryPoint.module) objects := by
  cases layout with
  | none =>
    cases path <;>
      simp [RouteObject.rows, Property.rowsBelow, Property.rowsOf, Value.rows, RouteObject.path?,
        RouteObject.entryPoint?, RouteObject.get?, pathProperty]
  | some entry =>
    have isKnown := known entry (by simp)
    cases path <;>
      simp [RouteObject.rows, Property.rowsBelow, Property.rowsOf, Value.rows, RouteObject.path?,
        RouteObject.entryPoint?, RouteObject.get?, EntryPoint.property, pathProperty, isKnown]

/-! ## The rows of a route tree -/

/-- The rows of two lists of objects come one after the other. -/
theorem RouteObject.allRows_append (source? : String → Option String)
    (parts layouts : List String) (before after : List RouteObject) :
    RouteObject.allRows source? parts layouts (before ++ after) =
      RouteObject.allRows source? parts layouts before ++
        RouteObject.allRows source? parts layouts after := by
  induction before with
  | nil => rfl
  | cons object rest ih => simp [RouteObject.allRows, ih]

/-- The object of an index, if there is one, makes its row. -/
theorem allRows_index (source? : String → Option String) (parts : List String)
    (layouts : List EntryPoint) (index : Option EntryPoint)
    (known : Resolves source? index.toList) :
    RouteObject.allRows source? parts (layouts.map EntryPoint.module)
        (index.toList.map EntryPoint.indexObject) =
      (index.toList.map fun entry => (⟨.index, entry, fullPath parts, layouts⟩ : Row _)).map
        (Row.map EntryPoint.module) := by
  cases index with
  | none => rfl
  | some entry =>
    have row := rows_indexObject source? parts layouts entry (known entry (by simp))
    simp [RouteObject.allRows, row]

mutual

/-- The objects of some nodes have the rows of the nodes, if no node is out of
place and all names lead to their modules. -/
theorem RouteNode.allRows_objects (source? : String → Option String) (directory : String)
    (parts : List String) (layouts : List EntryPoint) (nodes : List RouteNode)
    (clean : Visit.AllEntries (RouteNode.visits directory nodes))
    (known : Resolves source? (RouteNode.entryPoints nodes)) :
    RouteObject.allRows source? parts (layouts.map EntryPoint.module) (RouteNode.objects nodes) =
      (RouteNode.rows parts layouts nodes).map (Row.map EntryPoint.module) := by
  match nodes with
  | [] => rfl
  | .leaf entry path :: rest =>
    have ih := RouteNode.allRows_objects source? directory parts layouts rest
      (by simpa [RouteNode.visits] using clean)
      (fun later member => known later (List.mem_cons_of_mem _ member))
    have row := rows_leafObject source? parts layouts entry path
      (known entry List.mem_cons_self)
    simp only [RouteNode.objects, RouteObject.allRows, RouteNode.rows, List.map_cons, ih, row,
      List.singleton_append]
  | .special role entry :: rest =>
    exact absurd clean (Visit.not_allEntries_cons_stray _ _ _ _)
  | .branch inner :: rest =>
    rw [RouteNode.visits, Visit.allEntries_append] at clean
    have ih := RouteNode.allRows_objects source? directory parts layouts rest clean.2
      (fun later member => known later (List.mem_append_right _ member))
    have below := Branch.rows_object source? parts layouts inner clean.1
      (fun earlier member => known earlier (List.mem_append_left _ member))
    simp only [RouteNode.objects, RouteObject.allRows, RouteNode.rows, List.map_append, ih, below]
  termination_by structural nodes

/-- The object of a branch has the rows of the branch, if no node is out of place
and all names lead to their modules. -/
theorem Branch.rows_object (source? : String → Option String) (parts : List String)
    (layouts : List EntryPoint) (branch : Branch) (clean : Visit.AllEntries branch.visits)
    (known : Resolves source? branch.entryPoints) :
    branch.object.rows source? parts (layouts.map EntryPoint.module) =
      (branch.rows parts layouts).map (Row.map EntryPoint.module) := by
  match branch with
  | ⟨id, path, layout, index, children⟩ =>
    simp only [Branch.visits, Visit.allEntries_append] at clean
    simp only [Branch.entryPoints, Resolves, List.forall_mem_append] at known
    have ih := RouteNode.allRows_objects source? id (parts ++ path.toList)
      (layouts ++ layout.toList) children clean.2.1 known.2.1
    have last := allRows_index source? (parts ++ path.toList) (layouts ++ layout.toList) index
      known.2.2
    rw [Branch.object, rows_branchObject source? _ _ _ _ _ known.1, RouteObject.allRows_append,
      ← List.map_append, ih, last, Branch.rows]
    simp only [List.map_append, List.map_map]
    rfl
  termination_by structural branch

end

/-! ## The table of the module -/

/-- The imports of entry points with different names lead every name to its
module. -/
theorem resolves_source? (entries : List EntryPoint) (routes : List RouteObject)
    (distinct : (entries.map EntryPoint.localName).Nodup) :
    Resolves (RoutesModule.source? ⟨entries.map EntryPoint.toImport, routes⟩) entries := by
  intro entry member
  rw [RoutesModule.source?, List.find?_map]
  cases found : entries.find? ((fun declared => declared.localName == entry.localName) ∘
      EntryPoint.toImport) with
  | none =>
    have := List.find?_eq_none.1 found entry member
    simp [EntryPoint.toImport] at this
  | some other =>
    have same : other.localName = entry.localName := by
      simpa [EntryPoint.toImport] using List.find?_some found
    have isEntry : other = entry :=
      List.inj_on_of_nodup_map distinct (List.mem_of_find?_eq_some found) member same
    rw [isEntry]
    rfl

/-- An empty branch has no routes. -/
theorem Branch.table_of_isEmpty (root : Branch) (empty : root.isEmpty = true) :
    root.table = [] := by
  obtain ⟨id, path, layout, index, children⟩ := root
  simp only [Branch.isEmpty, Branch.isPassThrough, Bool.and_eq_true, List.isEmpty_iff,
    Option.isNone_iff_eq_none] at empty
  obtain ⟨rfl, rfl, rfl⟩ := empty
  rfl

/-- The module of an app serves exactly what its file tree says: every layout,
leaf and index with its module, its full path and the layouts around it, in the
same order. -/
theorem RoutesModule.table_ofFileTree (tree : Folder) (written : RoutesModule)
    (isWritten : RoutesModule.ofFileTree tree = .ok written) :
    written.table = tree.table.map (Row.map EntryPoint.module) := by
  rw [RoutesModule.ofFileTree] at isWritten
  split at isWritten
  next root isRoot =>
    rw [← Branch.table_normalizedOf tree root isRoot]
    cases filled : root.isEmpty with
    | true =>
      rw [Branch.table_of_isEmpty root filled]
      rw [RoutesModule.ofRoutes_of_isEmpty filled] at isWritten
      cases isWritten
      rfl
    | false =>
      obtain ⟨clean, distinct, rfl⟩ :=
        (RoutesModule.ofRoutes_eq_ok_iff root filled written).1 isWritten
      have known := resolves_source? root.entryPoints [root.object] distinct
      have rows := Branch.rows_object _ [] [] root ((Branch.noStray_iff root).1 clean) known
      rw [RoutesModule.table, RouteObject.allRows, RouteObject.allRows, List.append_nil]
      exact rows
  next => cases isWritten

/-- A directory with a layout stands in one that only groups its entries; the
layout is a row of its own and wraps the leaf below it. -/
theorem RoutesModule.table_ofFileTree_layout :
    let leaf : Label :=
      ⟨"(shop)/$id/a.entrypoint.ts", ⟨"/app/(shop)/$id/a.entrypoint.ts"⟩, "a.entrypoint.ts"⟩
    let layout : Label :=
      ⟨"(shop)/$id/_layout.entrypoint.ts", ⟨"/app/(shop)/$id/_layout.entrypoint.ts"⟩,
        "_layout.entrypoint.ts"⟩
    let tree : Folder := ⟨⟨"", ⟨"/app"⟩, "app"⟩, [.folder ⟨⟨"(shop)", ⟨"/app/(shop)"⟩, "(shop)"⟩,
      [.folder ⟨⟨"(shop)/$id", ⟨"/app/(shop)/$id"⟩, "$id"⟩, [.file layout, .file leaf]⟩]⟩]⟩
    ∃ written, RoutesModule.ofFileTree tree = .ok written ∧
      written.table =
        [⟨.layout, layout.path.text, "shop?/:id", []⟩,
          ⟨.leaf, leaf.path.text, "shop?/:id/a", [layout.path.text]⟩] := by
  intro leaf layout tree
  have succeeds : (RoutesModule.ofFileTree tree).toOption.isSome = true := by decide +kernel
  have tableOfTree : tree.table.map (Row.map EntryPoint.module) =
      [⟨.layout, layout.path.text, "shop?/:id", []⟩,
        ⟨.leaf, leaf.path.text, "shop?/:id/a", [layout.path.text]⟩] := by decide +kernel
  cases isWritten : RoutesModule.ofFileTree tree with
  | error failure =>
    rw [isWritten] at succeeds
    cases succeeds
  | ok written =>
    exact ⟨written, rfl, (RoutesModule.table_ofFileTree tree written isWritten).trans tableOfTree⟩

end RouteAtlas
