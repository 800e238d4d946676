import RouteAtlas.Proofs.RoutesModule.Bindings
import RouteAtlas.Proofs.RouteTable.Passes

/-!
# Compact route trees

A route tree is compact if every branch below its root has a layout or an index of its
own. Compressing makes any tree compact and keeps its table
(`Branch.compress_keeps_table_and_compacts`). It tells that it changed something exactly
if the tree was not compact, and then the outcome is another tree; so a second pass
changes nothing.

A branch that only passes through is replaced by its compressed children, with a part
put in front of their paths. Neither compressing nor that part shows in the layout and
the index of a branch, so the local test of the pass is the test on the original tree
(`Branch.isPassThrough_compress`, `RouteNode.compact_map_under`).
-/

set_option autoImplicit false

namespace RouteAtlas

/-- Whether no branch among some nodes and below them only passes through. -/
def RouteNode.Compact (nodes : List RouteNode) : Prop :=
  ∀ inner ∈ RouteNode.branches nodes, inner.isPassThrough = false

/-- Whether no branch below a branch only passes through. -/
def Branch.Compact (branch : Branch) : Prop := RouteNode.Compact branch.children

/-- The route table of a branch, with full paths that start below it. -/
def Branch.tableBelow (branch : Branch) : List (Row EntryPoint) :=
  { branch with path := none }.table

/-! ## Compact nodes -/

namespace RouteNode

variable {nodes rest : List RouteNode}

/-- An empty list of nodes is compact. -/
@[simp] theorem compact_nil : Compact [] :=
  List.forall_mem_nil _

/-- A leaf does not count against other nodes being compact. -/
@[simp] theorem compact_cons_leaf {entry : EntryPoint} {path : String} :
    Compact (.leaf entry path :: rest) ↔ Compact rest := Iff.rfl

/-- Neither does a node out of place. -/
@[simp] theorem compact_cons_special {role : Role} {entry : EntryPoint} :
    Compact (.special role entry :: rest) ↔ Compact rest := Iff.rfl

/-- A branch among compact nodes does not only pass through, and nothing below it does. -/
@[simp] theorem compact_cons_branch {inner : Branch} :
    Compact (.branch inner :: rest) ↔
      inner.isPassThrough = false ∧ inner.Compact ∧ Compact rest := by
  cases inner
  simp only [Compact, Branch.Compact, branches, Branch.branches, List.cons_append,
    List.forall_mem_cons, List.forall_mem_append]

/-- Two lists of nodes are compact together if each is. -/
theorem compact_append {before after : List RouteNode} :
    Compact (before ++ after) ↔ Compact before ∧ Compact after := by
  induction before with
  | nil => simp
  | cons node before ih => cases node <;> simp [ih, and_assoc]

/-- A part in front of the paths of some nodes does not show in their layouts and
indexes. -/
theorem compact_map_under (path : Option String) :
    Compact (nodes.map (under path)) ↔ Compact nodes := by
  induction nodes with
  | nil => exact Iff.rfl
  | cons node rest ih =>
    cases node with
    | leaf => simpa [under] using ih
    | special => simpa [under] using ih
    | branch inner =>
      rw [List.map_cons, under, compact_cons_branch, compact_cons_branch, ih]
      exact Iff.rfl

end RouteNode

/-! ## Compressing -/

/-- Compressing keeps the layout and the index of a branch. -/
theorem Branch.isPassThrough_compress (branch : Branch) :
    branch.compress.value.isPassThrough = branch.isPassThrough := by
  rw [Branch.compress_value]
  rfl

mutual

/-- Compressed nodes are compact. -/
theorem RouteNode.compact_compressAll (nodes : List RouteNode) :
    RouteNode.Compact (RouteNode.compressAll nodes).value := by
  match nodes with
  | [] => exact RouteNode.compact_nil
  | .leaf _ _ :: rest => exact RouteNode.compact_compressAll rest
  | .special _ _ :: rest => exact RouteNode.compact_compressAll rest
  | .branch inner :: rest =>
    have others := RouteNode.compact_compressAll rest
    have kept := Branch.compact_compress inner
    simp only [RouteNode.compressAll]
    split
    next =>
      exact RouteNode.compact_append.2 ⟨(RouteNode.compact_map_under inner.path).2 kept, others⟩
    next stays =>
      exact RouteNode.compact_cons_branch.2 ⟨Bool.eq_false_iff.2 stays, kept, others⟩
  termination_by structural nodes

/-- A compressed branch is compact. -/
theorem Branch.compact_compress (branch : Branch) : branch.compress.value.Compact := by
  match branch with
  | ⟨_, _, _, _, children⟩ => exact RouteNode.compact_compressAll children
  termination_by structural branch

end

mutual

/-- Compressing some nodes changes them exactly if they are not compact. -/
theorem RouteNode.compressAll_unchanged_iff (nodes : List RouteNode) :
    (RouteNode.compressAll nodes).changed = false ↔ RouteNode.Compact nodes := by
  match nodes with
  | [] => simp [RouteNode.compressAll]
  | .leaf _ _ :: rest => exact RouteNode.compressAll_unchanged_iff rest
  | .special _ _ :: rest => exact RouteNode.compressAll_unchanged_iff rest
  | .branch inner :: rest =>
    have others := RouteNode.compressAll_unchanged_iff rest
    have kept := Branch.compress_unchanged_iff inner
    simp only [RouteNode.compressAll, Branch.isPassThrough_compress]
    split
    next through => simp [through]
    next stays => simp [stays, kept, others]
  termination_by structural nodes

/-- Compressing a branch changes it exactly if it is not compact. -/
theorem Branch.compress_unchanged_iff (branch : Branch) :
    branch.compress.changed = false ↔ branch.Compact := by
  match branch with
  | ⟨_, _, _, _, children⟩ => exact RouteNode.compressAll_unchanged_iff children
  termination_by structural branch

end

mutual

/-- Nodes that are not changed stay as they are. -/
theorem RouteNode.compressAll_of_unchanged (nodes : List RouteNode)
    (unchanged : (RouteNode.compressAll nodes).changed = false) :
    (RouteNode.compressAll nodes).value = nodes := by
  match nodes with
  | [] => rfl
  | .leaf entry path :: rest =>
    exact congrArg (.leaf entry path :: ·) (RouteNode.compressAll_of_unchanged rest unchanged)
  | .special role entry :: rest =>
    exact congrArg (.special role entry :: ·) (RouteNode.compressAll_of_unchanged rest unchanged)
  | .branch inner :: rest =>
    simp only [RouteNode.compressAll] at unchanged ⊢
    split at unchanged
    next => cases unchanged
    next stays =>
      obtain ⟨kept, others⟩ := Bool.or_eq_false_iff.1 unchanged
      rw [if_neg stays, Branch.compress_of_unchanged inner kept,
        RouteNode.compressAll_of_unchanged rest others]
  termination_by structural nodes

/-- A branch that is not changed stays as it is. -/
theorem Branch.compress_of_unchanged (branch : Branch)
    (unchanged : branch.compress.changed = false) : branch.compress.value = branch := by
  match branch with
  | ⟨_, _, _, _, children⟩ =>
    rw [Branch.compress_value]
    simp only [RouteNode.compressAll_of_unchanged children unchanged]
  termination_by structural branch

end

/-- Compressing a branch keeps it exactly if nothing was changed. -/
theorem Branch.compress_value_eq_iff (branch : Branch) :
    branch.compress.value = branch ↔ branch.compress.changed = false := by
  refine ⟨fun same => ?_, branch.compress_of_unchanged⟩
  have compact := branch.compact_compress
  rw [same] at compact
  exact branch.compress_unchanged_iff.2 compact

/-- Compression keeps the routes below a branch. -/
theorem Branch.tableBelow_compress (branch : Branch) :
    branch.compress.value.tableBelow = branch.tableBelow := by
  have kept := Branch.rows_compress [] [] { branch with path := none }
  rw [Branch.compress_value] at kept
  rw [Branch.compress_value]
  exact kept

/-- Compressing a branch keeps its table and everything of its own, and leaves no branch
below it that only passes through. The branch is handed back as it is exactly if there was
none, and compressing again changes nothing. -/
theorem Branch.compress_keeps_table_and_compacts (branch : Branch) :
    branch.compress.value.tableBelow = branch.tableBelow ∧
      (branch.compress.value.id = branch.id ∧ branch.compress.value.path = branch.path ∧
        branch.compress.value.layout = branch.layout ∧
        branch.compress.value.index = branch.index) ∧
      branch.compress.value.Compact ∧
      (branch.compress.changed = false ↔ branch.Compact) ∧
      (branch.compress.value = branch ↔ branch.compress.changed = false) ∧
      branch.compress.value.compress.changed = false := by
  refine ⟨branch.tableBelow_compress, ?_, branch.compact_compress, branch.compress_unchanged_iff,
    branch.compress_value_eq_iff, ?_⟩
  · rw [Branch.compress_value]
    exact ⟨rfl, rfl, rfl, rfl⟩
  · exact (Branch.compress_unchanged_iff _).2 branch.compact_compress

end RouteAtlas
