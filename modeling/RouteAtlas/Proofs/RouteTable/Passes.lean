import RouteAtlas.Proofs.Outcome
import RouteAtlas.Proofs.RouteTable.Basic

/-!
# The passes keep the route table

On the way from a file tree to its normalized route tree nothing is lost, added,
moved or put under another layout. Building gives the table of the file tree
(`Branch.rows_ofFolder`), pruning takes away branches without rows
(`Branch.rows_prune`), and compressing moves rows into the parent branch together
with the part of the path that they leave behind (`Branch.rows_compress`).

The three statements are about rows under any parts and layouts, so that they go
through the trees by induction; `Branch.table_normalizedOf` puts them together
at the root.
-/

set_option autoImplicit false

namespace RouteAtlas

/-! ## Rows under other parts -/

mutual

/-- The rows of some nodes depend on the parts so far only through the path they
make. -/
theorem RouteNode.rows_congr {parts others : List String}
    (same : fullPath parts = fullPath others) (layouts : List EntryPoint)
    (nodes : List RouteNode) :
    RouteNode.rows parts layouts nodes = RouteNode.rows others layouts nodes := by
  match nodes with
  | [] => rfl
  | .leaf entry path :: rest =>
    simp only [RouteNode.rows, fullPath_append_congr same, RouteNode.rows_congr same layouts rest]
  | .special _ _ :: rest =>
    simp only [RouteNode.rows, RouteNode.rows_congr same layouts rest]
  | .branch inner :: rest =>
    simp only [RouteNode.rows, Branch.rows_congr same layouts inner,
      RouteNode.rows_congr same layouts rest]
  termination_by structural nodes

/-- The rows of a branch depend on the parts above it only by their path. -/
theorem Branch.rows_congr {parts others : List String}
    (same : fullPath parts = fullPath others) (layouts : List EntryPoint) (branch : Branch) :
    branch.rows parts layouts = branch.rows others layouts := by
  match branch with
  | ⟨_, path, layout, _, children⟩ =>
    have here := fullPath_append_congr same path.toList
    simp only [Branch.rows, here,
      RouteNode.rows_congr here (layouts ++ layout.toList) children]
  termination_by structural branch

end

/-- The rows of two lists of nodes come one after the other. -/
@[simp] theorem RouteNode.rows_append (parts : List String) (layouts : List EntryPoint)
    (before after : List RouteNode) :
    RouteNode.rows parts layouts (before ++ after) =
      RouteNode.rows parts layouts before ++ RouteNode.rows parts layouts after := by
  induction before with
  | nil => rfl
  | cons node rest ih => cases node <;> simp [RouteNode.rows, ih]

/-! ## Compression -/

/-- Putting a part in front of the paths of some nodes makes the rows that the
nodes have behind that part. -/
theorem RouteNode.rows_map_under (parts : List String) (layouts : List EntryPoint)
    (path : Option String) (nodes : List RouteNode) :
    RouteNode.rows parts layouts (nodes.map (RouteNode.under path)) =
      RouteNode.rows (parts ++ path.toList) layouts nodes := by
  have joined : ∀ inner : Option String, fullPath (parts ++ (joinPaths path inner).toList) =
      fullPath (parts ++ path.toList ++ inner.toList) := by
    intro inner
    rw [List.append_assoc, fullPath_append, fullPath_append, fullPath_toList, joinPaths_getD]
  induction nodes with
  | nil => rfl
  | cons node rest ih =>
    match node with
    | .leaf entry text =>
      have leaf : fullPath (parts ++ [(joinPaths path (some text)).getD ""]) =
          fullPath (parts ++ path.toList ++ [text]) := by
        rw [List.append_assoc, fullPath_append, fullPath_append, fullPath_singleton,
          joinPaths_getD]
        rfl
      simp only [List.map_cons, RouteNode.under, RouteNode.rows, leaf, ih]
    | .special _ _ => simp only [List.map_cons, RouteNode.under, RouteNode.rows, ih]
    | .branch ⟨_, inner, layout, _, children⟩ =>
      simp only [List.map_cons, RouteNode.under, RouteNode.rows, Branch.rows, joined inner,
        RouteNode.rows_congr (joined inner) (layouts ++ layout.toList) children, ih]

/-- Compression changes only the children of a branch. -/
theorem Branch.compress_value (branch : Branch) :
    branch.compress.value =
      { branch with children := (RouteNode.compressAll branch.children).value } := by
  cases branch
  rfl

/-- A branch that only passes through has the rows of its children. -/
theorem Branch.rows_of_isPassThrough (branch : Branch) (through : branch.isPassThrough = true)
    (parts : List String) (layouts : List EntryPoint) :
    branch.rows parts layouts =
      RouteNode.rows (parts ++ branch.path.toList) layouts branch.children := by
  match branch, through with
  | ⟨_, _, none, none, _⟩, _ => simp [Branch.rows]

mutual

/-- Compressing some nodes keeps their rows. -/
theorem RouteNode.rows_compressAll (parts : List String) (layouts : List EntryPoint)
    (nodes : List RouteNode) :
    RouteNode.rows parts layouts (RouteNode.compressAll nodes).value =
      RouteNode.rows parts layouts nodes := by
  match nodes with
  | [] => rfl
  | .leaf _ _ :: rest =>
    simp only [RouteNode.compressAll, RouteNode.rows,
      RouteNode.rows_compressAll parts layouts rest]
  | .special _ _ :: rest =>
    simp only [RouteNode.compressAll, RouteNode.rows,
      RouteNode.rows_compressAll parts layouts rest]
  | .branch inner :: rest =>
    have others := RouteNode.rows_compressAll parts layouts rest
    have kept := Branch.rows_compress parts layouts inner
    simp only [RouteNode.compressAll]
    split
    next through =>
      rw [Branch.rows_of_isPassThrough _ through, Branch.compress_value] at kept
      rw [RouteNode.rows_append, RouteNode.rows_map_under, others, RouteNode.rows, ← kept,
        Branch.compress_value]
    next =>
      rw [RouteNode.rows, RouteNode.rows, kept, others]
  termination_by structural nodes

/-- Compressing a branch keeps its rows. -/
theorem Branch.rows_compress (parts : List String) (layouts : List EntryPoint)
    (branch : Branch) :
    branch.compress.value.rows parts layouts = branch.rows parts layouts := by
  match branch with
  | ⟨_, _, layout, _, children⟩ =>
    simp only [Branch.compress, Branch.rows, RouteNode.rows_compressAll]
  termination_by structural branch

end

/-! ## Pruning -/

mutual

/-- Pruning some nodes keeps their rows. -/
theorem RouteNode.rows_pruneAll (parts : List String) (layouts : List EntryPoint)
    (nodes : List RouteNode) :
    RouteNode.rows parts layouts (RouteNode.pruneAll nodes).value =
      RouteNode.rows parts layouts nodes := by
  match nodes with
  | [] => rfl
  | .leaf _ _ :: rest =>
    simp only [RouteNode.pruneAll, RouteNode.rows, RouteNode.rows_pruneAll parts layouts rest]
  | .special _ _ :: rest =>
    simp only [RouteNode.pruneAll, RouteNode.rows, RouteNode.rows_pruneAll parts layouts rest]
  | .branch inner :: rest =>
    have others := RouteNode.rows_pruneAll parts layouts rest
    have kept := Branch.rows_prune parts layouts inner
    simp only [RouteNode.pruneAll]
    cases pruned : inner.prune with
    | none =>
      simp only [pruned] at kept
      simp only [RouteNode.rows, kept, others, List.nil_append]
    | some pass =>
      simp only [pruned] at kept
      simp only [RouteNode.rows, kept, others]
  termination_by structural nodes

/-- Pruning a branch keeps its rows, and what is pruned away has none. -/
theorem Branch.rows_prune (parts : List String) (layouts : List EntryPoint) (branch : Branch) :
    match branch.prune with
    | some kept => kept.value.rows parts layouts = branch.rows parts layouts
    | none => branch.rows parts layouts = [] := by
  match branch with
  | ⟨id, path, layout, index, children⟩ =>
    have below := RouteNode.rows_pruneAll (parts ++ path.toList) (layouts ++ layout.toList) children
    simp only [Branch.prune]
    split
    next kept isKept =>
      split at isKept
      · cases isKept
      · cases isKept
        simp only [Branch.rows, below]
    next isGone =>
      split at isGone
      next empty =>
        simp only [Bool.and_eq_true, List.isEmpty_iff, Option.isNone_iff_eq_none] at empty
        obtain ⟨⟨noChild, rfl⟩, rfl⟩ := empty
        rw [noChild] at below
        simpa [Branch.rows, RouteNode.rows] using below.symm
      · cases isGone
  termination_by structural branch

end

/-- Normalizing a route tree keeps its table. -/
theorem Branch.table_normalize (root : Branch) : root.normalize.table = root.table := by
  have kept := Branch.rows_prune [] [] root
  rw [Branch.normalize, Branch.table, Branch.table]
  cases pruned : root.prune with
  | none =>
    simp only [pruned] at kept
    rw [kept]
    rfl
  | some pass =>
    simp only [pruned] at kept
    rw [Branch.rows_compress, kept]

/-! ## Building -/

/-- The segment of a name is that of its base name. -/
theorem ParsedName.segment_ofName (name : String) :
    (ParsedName.ofName name).segment = routeSegment (ParsedName.ofName name).base := by
  rw [ParsedName.ofName]
  split
  · rfl
  · split <;> rfl

/-- A name behind an underscore has no segment. -/
theorem segmentChars_underscore (rest : List Char) : segmentChars ('_' :: rest) = none := by
  rw [segmentChars]
  split
  next isGroup => simp [ungroup?] at isGroup
  next => rfl

/-- A base name that claims a role spells no segment. -/
theorem routeSegment_of_role {base : String} {role : Role}
    (claims : Role.ofBase? base = some role) :
    routeSegment base = none := by
  have reserved : base = "_layout" ∨ base = "_index" := by
    rw [Role.ofBase?] at claims
    split at claims
    next h => exact .inl h
    next =>
      split at claims
      next h => exact .inr h
      next => cases claims
  rcases reserved with rfl | rfl
  · exact congrArg (Option.map String.ofList) (segmentChars_underscore "layout".toList)
  · exact congrArg (Option.map String.ofList) (segmentChars_underscore "index".toList)

/-- What a file becomes: a role, which it alone claims and which leaves it
without a segment; a leaf, if it has a segment and claims no role; or nothing. -/
inductive RouteNode.OfFile (label : Label) : Option RouteNode → Prop where
  | role (role : Role) (claims : ∀ other, label.claims other = decide (other = role))
      (noSegment : label.segment = none) : OfFile label (some (.special role (.ofLabel label)))
  | leaf (segment : String) (claims : ∀ other, label.claims other = false)
      (isSegment : label.segment = some segment) :
      OfFile label (some (.leaf (.ofLabel label) segment))
  | none (claims : ∀ other, label.claims other = false) (noSegment : label.segment = none) :
      OfFile label none

/-- A file gives a leaf, a node for a role or no node. -/
theorem RouteNode.ofFile?_cases (label : Label) : OfFile label (RouteNode.ofFile? label) := by
  rw [RouteNode.ofFile?]
  cases claimed : Role.ofBase? (ParsedName.ofName label.name).base with
  | some role =>
    refine .role role ?_ ?_
    · intro other
      rw [Label.claims, claimed]
      cases role <;> cases other <;> rfl
    · rw [Label.segment, ParsedName.segment_ofName, routeSegment_of_role claimed]
  | none =>
    have claims : ∀ other, label.claims other = false := by
      intro other
      rw [Label.claims, claimed]
      rfl
    cases segment : (ParsedName.ofName label.name).segment with
    | some text => exact .leaf text claims segment
    | none => exact .none claims segment

/-- What reading entries makes of the branch that was read before them: roles are
filled by the first claimants, and the rows of the entries come before those of
the children. -/
structure Branch.Reads (seen : Branch) (entries : List Entry) (read : Branch) : Prop where
  path : read.path = seen.path
  role : ∀ role, read.role? role = (seen.role? role).or (Entry.claimant? role entries)
  rows : ∀ parts layouts, RouteNode.rows parts layouts read.children =
    Entry.rows parts layouts entries ++ RouteNode.rows parts layouts seen.children

/-- A branch that is given a role has it, and its other roles as before. -/
theorem Branch.role?_withRole (branch : Branch) (role : Role) (entry : EntryPoint)
    (other : Role) :
    (branch.withRole role entry).role? other =
      if other = role then some entry else branch.role? other := by
  cases role <;> cases other <;> rfl

/-- A child more does not change the roles of a branch. -/
theorem Branch.role?_cons (node : RouteNode) (branch : Branch) (role : Role) :
    (branch.cons node).role? role = branch.role? role := by
  cases role <;> rfl

/-- A branch has the rows of its layout, its children and its index. -/
theorem Branch.rows_eq (branch : Branch) (parts : List String) (layouts : List EntryPoint) :
    branch.rows parts layouts =
      (branch.role? .layout).toList.map
          (⟨.layout, ·, fullPath (parts ++ branch.path.toList), layouts⟩) ++
        (RouteNode.rows (parts ++ branch.path.toList)
            (layouts ++ (branch.role? .layout).toList) branch.children ++
          (branch.role? .index).toList.map
            (⟨.index, ·, fullPath (parts ++ branch.path.toList),
              layouts ++ (branch.role? .layout).toList⟩)) := by
  cases branch
  rfl

/-- A folder has the rows of its layout, its entries and its index. -/
theorem Folder.rows_eq (folder : Folder) (parts : List String) (layouts : List EntryPoint) :
    folder.rows parts layouts =
      (Entry.claimant? .layout folder.entries).toList.map
          (⟨.layout, ·, fullPath parts, layouts⟩) ++
        (Entry.rows parts (layouts ++ (Entry.claimant? .layout folder.entries).toList)
            folder.entries ++
          (Entry.claimant? .index folder.entries).toList.map
            (⟨.index, ·, fullPath parts,
              layouts ++ (Entry.claimant? .layout folder.entries).toList⟩)) := by
  cases folder
  rfl

mutual

/-- The branch that is read from some entries has their rows. -/
theorem Branch.reads_ofEntries (seen : Branch) (entries : List Entry) (read : Branch)
    (isRead : Branch.ofEntries seen entries = .ok read) : Branch.Reads seen entries read := by
  match entries with
  | [] =>
    cases isRead
    exact ⟨rfl, by simp [Entry.claimant?], by simp [Entry.rows]⟩
  | .file label :: rest =>
    have cases := RouteNode.ofFile?_cases label
    rw [Branch.ofEntries] at isRead
    generalize RouteNode.ofFile? label = made at cases isRead
    cases cases with
    | role role claims noSegment =>
      simp only at isRead
      split at isRead
      next => cases isRead
      next free =>
        have ih := Branch.reads_ofEntries _ rest read isRead
        refine ⟨ih.path.trans (by cases role <;> rfl), ?_, ?_⟩
        · intro other
          rw [ih.role, Branch.role?_withRole, Entry.claimant?, claims]
          by_cases h : other = role
          · subst h
            simp [free]
          · simp [h]
        · intro parts layouts
          rw [ih.rows, Entry.rows, noSegment]
          cases role <;> rfl
    | leaf segment claims isSegment =>
      obtain ⟨others, readRest, rfl⟩ := map_eq_ok_iff.1 isRead
      have ih := Branch.reads_ofEntries _ rest others readRest
      refine ⟨ih.path, ?_, ?_⟩
      · intro other
        rw [Branch.role?_cons, ih.role, Entry.claimant?, claims]
        rfl
      · intro parts layouts
        rw [Entry.rows, isSegment, Branch.cons, RouteNode.rows, ih.rows]
        rfl
    | none claims noSegment =>
      have ih := Branch.reads_ofEntries seen rest read isRead
      refine ⟨ih.path, ?_, ?_⟩
      · intro other
        rw [ih.role, Entry.claimant?, claims]
        rfl
      · intro parts layouts
        rw [ih.rows, Entry.rows, noSegment]
        rfl
  | .folder inner :: rest =>
    rw [Branch.ofEntries] at isRead
    split at isRead
    next => cases isRead
    next branch readInner =>
      obtain ⟨others, readRest, rfl⟩ := map_eq_ok_iff.1 isRead
      have ih := Branch.reads_ofEntries _ rest others readRest
      have below := Branch.rows_ofFolder inner branch readInner
      refine ⟨ih.path, ?_, ?_⟩
      · intro other
        rw [Branch.role?_cons, ih.role, Entry.claimant?]
      · intro parts layouts
        rw [Entry.rows, Branch.cons, RouteNode.rows, ih.rows, below, List.append_assoc]
  termination_by structural entries

/-- The branch of a folder has the rows of the folder, with the segment of the
folder's name in front. -/
theorem Branch.rows_ofFolder (folder : Folder) (branch : Branch)
    (isRead : Branch.ofFolder folder = .ok branch) (parts : List String)
    (layouts : List EntryPoint) :
    branch.rows parts layouts = folder.rows (parts ++ folder.label.segment.toList) layouts := by
  match folder with
  | ⟨label, entries⟩ =>
    have read := Branch.reads_ofEntries _ entries branch isRead
    rw [Branch.rows_eq, Folder.rows_eq, read.role, read.role, read.path, read.rows]
    simp [Label.segment, Branch.role?, RouteNode.rows]
  termination_by structural folder

end

/-- The normalized route tree of an app has the table of its file tree. -/
theorem Branch.table_normalizedOf (tree : Folder) (root : Branch)
    (isRoot : Branch.normalizedOf tree = .ok root) : root.table = tree.table := by
  rw [Branch.normalizedOf, Branch.ofFileTree] at isRoot
  obtain ⟨raw, isRaw, rfl⟩ := map_eq_ok_iff.1 isRoot
  obtain ⟨read, isRead, rfl⟩ := map_eq_ok_iff.1 isRaw
  rw [Branch.table_normalize]
  match tree with
  | ⟨label, entries⟩ =>
    have reads := Branch.reads_ofEntries _ entries read isRead
    have roles : ∀ role, ({ read with id := "", path := none } : Branch).role? role =
        Entry.claimant? role entries := by
      intro role
      cases role
      · exact reads.role .layout
      · exact reads.role .index
    rw [Branch.table, Branch.rows_eq, Folder.table, Folder.rows_eq, roles, roles, reads.rows]
    simp [RouteNode.rows]

end RouteAtlas
