import RouteAtlas.Proofs.RoutesModule.Bindings
import RouteAtlas.Route.Prune

/-!
# Barren branches

A branch is barren if neither it nor any branch below it has a layout, an index or a child
that is no branch: nothing in it is ever shown. Pruning takes away exactly the barren
branches (`Branch.prune_removes_barren`). It gives nothing for a barren branch, and for any
other one the branch without those below it that are barren. It tells that it changed
something exactly if there was one, and then the outcome is another branch; so a second pass
changes nothing.

Barren is a property of all that stands below a branch, while the pass looks at the children
that are left. Both agree because a branch is barren exactly if it has no role of its own and
all its children are barren branches (`Branch.barren_iff`).
-/

set_option autoImplicit false

namespace RouteAtlas

/-- Whether a node is a branch. -/
def RouteNode.isBranch : RouteNode → Bool
  | .branch _ => true
  | _ => false

/-- Whether neither a branch nor any branch below it has a layout, an index or a child that
is no branch. -/
def Branch.Barren (branch : Branch) : Prop :=
  ∀ inner ∈ branch.branches, inner.layout = none ∧ inner.index = none ∧
    ∀ node ∈ inner.children, node.isBranch = true

instance (branch : Branch) : Decidable branch.Barren :=
  inferInstanceAs (Decidable (∀ inner ∈ branch.branches, inner.layout = none ∧
    inner.index = none ∧ ∀ node ∈ inner.children, node.isBranch = true))

mutual

/-- Some nodes without the barren branches among them and below them. -/
def RouteNode.withoutBarren : List RouteNode → List RouteNode
  | [] => []
  | .branch inner :: rest =>
    if inner.Barren then RouteNode.withoutBarren rest
    else .branch inner.withoutBarren :: RouteNode.withoutBarren rest
  | node :: rest => node :: RouteNode.withoutBarren rest
  termination_by structural nodes => nodes

/-- A branch without the barren branches below it. -/
def Branch.withoutBarren : Branch → Branch
  | ⟨id, path, layout, index, children⟩ =>
    ⟨id, path, layout, index, RouteNode.withoutBarren children⟩
  termination_by structural branch => branch

end

/-- Whether no branch among some nodes and below them is barren. -/
def RouteNode.Fruitful (nodes : List RouteNode) : Prop :=
  ∀ inner ∈ RouteNode.branches nodes, ¬ inner.Barren

/-- Whether no branch below a branch is barren. -/
def Branch.Fruitful (branch : Branch) : Prop := RouteNode.Fruitful branch.children

/-! ## Barren nodes -/

/-- Whether all nodes are barren branches. -/
def RouteNode.AllBarren (nodes : List RouteNode) : Prop :=
  ∀ node ∈ nodes, ∃ inner, node = .branch inner ∧ inner.Barren

namespace RouteNode

variable {nodes rest : List RouteNode}

/-- In an empty list all nodes are barren. -/
@[simp] theorem allBarren_nil : AllBarren [] :=
  List.forall_mem_nil _

/-- Where there is a leaf, not all nodes are barren. -/
@[simp] theorem not_allBarren_cons_leaf {entry : EntryPoint} {path : String} :
    ¬ AllBarren (.leaf entry path :: rest) := by
  simp [AllBarren]

/-- Where there is a node out of place, not all nodes are barren. -/
@[simp] theorem not_allBarren_cons_special {role : Role} {entry : EntryPoint} :
    ¬ AllBarren (.special role entry :: rest) := by
  simp [AllBarren]

/-- A branch and other nodes are all barren if the branch is and the others are. -/
@[simp] theorem allBarren_cons_branch {inner : Branch} :
    AllBarren (.branch inner :: rest) ↔ inner.Barren ∧ AllBarren rest := by
  simp [AllBarren]

/-- The branches among some nodes are those that are there with the branches below them. -/
theorem mem_branches_iff {inner : Branch} :
    inner ∈ branches nodes ↔ ∃ outer, .branch outer ∈ nodes ∧ inner ∈ outer.branches := by
  induction nodes with
  | nil => simp [branches]
  | cons node rest ih =>
    cases node <;> simp [branches, ih, or_and_right, exists_or]

end RouteNode

/-- A branch is barren exactly if it has no layout, no index and only barren branches as
children. -/
theorem Branch.barren_iff {branch : Branch} :
    branch.Barren ↔
      branch.layout = none ∧ branch.index = none ∧ RouteNode.AllBarren branch.children := by
  obtain ⟨id, path, layout, index, children⟩ := branch
  simp only [Branch.Barren, Branch.branches, List.forall_mem_cons, RouteNode.mem_branches_iff]
  constructor
  · rintro ⟨⟨noLayout, noIndex, areBranches⟩, below⟩
    refine ⟨noLayout, noIndex, fun node member => ?_⟩
    cases node with
    | branch outer => exact ⟨outer, rfl, fun inner isInner => below inner ⟨outer, member, isInner⟩⟩
    | leaf => exact absurd (areBranches _ member) Bool.false_ne_true
    | special => exact absurd (areBranches _ member) Bool.false_ne_true
  · rintro ⟨noLayout, noIndex, allBarren⟩
    refine ⟨⟨noLayout, noIndex, fun node member => ?_⟩, ?_⟩
    · obtain ⟨outer, rfl, -⟩ := allBarren node member
      rfl
    · rintro inner ⟨outer, member, isInner⟩
      obtain ⟨_, ⟨⟩, barren⟩ := allBarren _ member
      exact barren inner isInner

/-! ## Without barren branches -/

namespace RouteNode

variable {nodes rest : List RouteNode}

/-- An empty list of nodes is fruitful. -/
@[simp] theorem fruitful_nil : Fruitful [] :=
  List.forall_mem_nil _

/-- A leaf does not count against other nodes being fruitful. -/
@[simp] theorem fruitful_cons_leaf {entry : EntryPoint} {path : String} :
    Fruitful (.leaf entry path :: rest) ↔ Fruitful rest := Iff.rfl

/-- Neither does a node out of place. -/
@[simp] theorem fruitful_cons_special {role : Role} {entry : EntryPoint} :
    Fruitful (.special role entry :: rest) ↔ Fruitful rest := Iff.rfl

/-- A branch among fruitful nodes is not barren, and nothing below it is. -/
@[simp] theorem fruitful_cons_branch {inner : Branch} :
    Fruitful (.branch inner :: rest) ↔
      ¬ inner.Barren ∧ inner.Fruitful ∧ Fruitful rest := by
  cases inner
  simp only [Fruitful, Branch.Fruitful, branches, Branch.branches, List.cons_append,
    List.forall_mem_cons, List.forall_mem_append]

/-- Nothing is left of some nodes exactly if they are barren branches. -/
theorem withoutBarren_eq_nil_iff : withoutBarren nodes = [] ↔ AllBarren nodes := by
  induction nodes with
  | nil => simp [withoutBarren]
  | cons node rest ih =>
    cases node with
    | leaf => simp [withoutBarren]
    | special => simp [withoutBarren]
    | branch inner =>
      rw [withoutBarren, allBarren_cons_branch]
      split
      next barren => simp [barren, ih]
      next live => simp [live]

end RouteNode

mutual

/-- What is left of some nodes consists of barren branches exactly if the nodes do. -/
theorem RouteNode.allBarren_withoutBarren (nodes : List RouteNode) :
    RouteNode.AllBarren (RouteNode.withoutBarren nodes) ↔ RouteNode.AllBarren nodes := by
  match nodes with
  | [] => exact Iff.rfl
  | .leaf _ _ :: rest => simp [RouteNode.withoutBarren]
  | .special _ _ :: rest => simp [RouteNode.withoutBarren]
  | .branch inner :: rest =>
    have others := RouteNode.allBarren_withoutBarren rest
    have kept := Branch.barren_withoutBarren inner
    rw [RouteNode.withoutBarren, RouteNode.allBarren_cons_branch]
    split
    next barren => simp [barren, others]
    next live => simp [live, kept]
  termination_by structural nodes

/-- A branch without the barren branches below it is barren exactly if it was so with
them. -/
theorem Branch.barren_withoutBarren (branch : Branch) :
    branch.withoutBarren.Barren ↔ branch.Barren := by
  match branch with
  | ⟨_, _, _, _, children⟩ =>
    rw [Branch.barren_iff, Branch.barren_iff]
    exact and_congr_right' (and_congr_right' (RouteNode.allBarren_withoutBarren children))
  termination_by structural branch

end

mutual

/-- What is left of some nodes without the barren branches is fruitful. -/
theorem RouteNode.fruitful_withoutBarren (nodes : List RouteNode) :
    RouteNode.Fruitful (RouteNode.withoutBarren nodes) := by
  match nodes with
  | [] => exact RouteNode.fruitful_nil
  | .leaf _ _ :: rest => exact RouteNode.fruitful_withoutBarren rest
  | .special _ _ :: rest => exact RouteNode.fruitful_withoutBarren rest
  | .branch inner :: rest =>
    have others := RouteNode.fruitful_withoutBarren rest
    rw [RouteNode.withoutBarren]
    split
    next => exact others
    next live =>
      rw [RouteNode.fruitful_cons_branch, Branch.barren_withoutBarren]
      exact ⟨live, Branch.fruitful_withoutBarren inner, others⟩
  termination_by structural nodes

/-- No barren branch is left below a branch. -/
theorem Branch.fruitful_withoutBarren (branch : Branch) : branch.withoutBarren.Fruitful := by
  match branch with
  | ⟨_, _, _, _, children⟩ => exact RouteNode.fruitful_withoutBarren children
  termination_by structural branch

end

mutual

/-- Fruitful nodes have no barren branches to leave out. -/
theorem RouteNode.withoutBarren_of_fruitful (nodes : List RouteNode)
    (fruitful : RouteNode.Fruitful nodes) : RouteNode.withoutBarren nodes = nodes := by
  match nodes with
  | [] => rfl
  | .leaf entry path :: rest =>
    exact congrArg (.leaf entry path :: ·) (RouteNode.withoutBarren_of_fruitful rest fruitful)
  | .special role entry :: rest =>
    exact congrArg (.special role entry :: ·) (RouteNode.withoutBarren_of_fruitful rest fruitful)
  | .branch inner :: rest =>
    obtain ⟨live, below, others⟩ := RouteNode.fruitful_cons_branch.1 fruitful
    rw [RouteNode.withoutBarren, if_neg live, Branch.withoutBarren_of_fruitful inner below,
      RouteNode.withoutBarren_of_fruitful rest others]
  termination_by structural nodes

/-- Where no branch below is barren, nothing goes. -/
theorem Branch.withoutBarren_of_fruitful (branch : Branch) (fruitful : branch.Fruitful) :
    branch.withoutBarren = branch := by
  match branch with
  | ⟨_, _, _, _, children⟩ =>
    rw [Branch.withoutBarren, RouteNode.withoutBarren_of_fruitful children fruitful]
  termination_by structural branch

end

/-- A branch without its barren branches is the branch itself if it is fruitful. -/
theorem Branch.withoutBarren_eq_self_iff (branch : Branch) :
    branch.withoutBarren = branch ↔ branch.Fruitful := by
  refine ⟨fun same => ?_, branch.withoutBarren_of_fruitful⟩
  have fruitful := branch.fruitful_withoutBarren
  rwa [same] at fruitful

/-! ## Pruning -/

mutual

/-- Pruning some nodes leaves them without barren branches, and changes them exactly if there
was one. -/
theorem RouteNode.pruneAll_outcome (nodes : List RouteNode) :
    (RouteNode.pruneAll nodes).value = RouteNode.withoutBarren nodes ∧
      ((RouteNode.pruneAll nodes).changed = false ↔ RouteNode.Fruitful nodes) := by
  match nodes with
  | [] => simp [RouteNode.pruneAll, RouteNode.withoutBarren]
  | .leaf _ _ :: rest =>
    obtain ⟨others, unchanged⟩ := RouteNode.pruneAll_outcome rest
    simp [RouteNode.pruneAll, RouteNode.withoutBarren, others, unchanged]
  | .special _ _ :: rest =>
    obtain ⟨others, unchanged⟩ := RouteNode.pruneAll_outcome rest
    simp [RouteNode.pruneAll, RouteNode.withoutBarren, others, unchanged]
  | .branch inner :: rest =>
    obtain ⟨others, unchanged⟩ := RouteNode.pruneAll_outcome rest
    have kept := Branch.prune_outcome inner
    simp only [RouteNode.pruneAll]
    cases pruned : inner.prune with
    | none =>
      simp only [pruned] at kept
      simp [RouteNode.withoutBarren, kept, others]
    | some pass =>
      simp only [pruned] at kept
      obtain ⟨live, value, changed⟩ := kept
      simp [RouteNode.withoutBarren, live, value, changed, others, unchanged]
  termination_by structural nodes

/-- Pruning gives nothing for a barren branch, and any other one without the barren branches
below it. -/
theorem Branch.prune_outcome (branch : Branch) :
    match branch.prune with
    | none => branch.Barren
    | some kept => ¬ branch.Barren ∧ kept.value = branch.withoutBarren ∧
        (kept.changed = false ↔ branch.Fruitful) := by
  match branch with
  | ⟨id, path, layout, index, children⟩ =>
    obtain ⟨value, unchanged⟩ := RouteNode.pruneAll_outcome children
    simp only [Branch.prune, Branch.barren_iff, value, ← RouteNode.withoutBarren_eq_nil_iff]
    split
    next kept isKept =>
      split at isKept
      next nothing =>
        simp only [Bool.and_eq_true, List.isEmpty_iff, Option.isNone_iff_eq_none] at nothing
        exact ⟨nothing.1.2, nothing.2, nothing.1.1⟩
      next => cases isKept
    next kept isKept =>
      split at isKept
      next => cases isKept
      next filled =>
        cases isKept
        simp only [Bool.and_eq_true, List.isEmpty_iff, Option.isNone_iff_eq_none] at filled
        exact ⟨fun barren => filled ⟨⟨barren.2.2, barren.1⟩, barren.2.1⟩, rfl, unchanged⟩
  termination_by structural branch

end

/-- Pruning leaves nothing of a branch if it is barren. -/
theorem Branch.prune_eq_none_iff (branch : Branch) : branch.prune = none ↔ branch.Barren := by
  have outcome := branch.prune_outcome
  cases pruned : branch.prune with
  | none =>
    simp only [pruned] at outcome
    exact iff_of_true rfl outcome
  | some kept =>
    simp only [pruned] at outcome
    exact iff_of_false (Option.some_ne_none kept) outcome.1

/-- What pruning leaves of a branch is the branch without its barren branches, and nothing
has changed if the branch was fruitful. -/
theorem Branch.prune_of_some {branch : Branch} {kept : Pass Branch}
    (pruned : branch.prune = some kept) :
    ¬ branch.Barren ∧ kept.value = branch.withoutBarren ∧
      (kept.changed = false ↔ branch.Fruitful) := by
  have outcome := branch.prune_outcome
  rwa [pruned] at outcome

/-- A branch that is not barren and has no barren branch below it is handed back as it is. -/
theorem Branch.prune_of_fruitful {branch : Branch} (live : ¬ branch.Barren)
    (fruitful : branch.Fruitful) : branch.prune = some ⟨branch, false⟩ := by
  obtain ⟨⟨value, changed⟩, pruned⟩ :=
    Option.ne_none_iff_exists'.1 fun nothing => live (branch.prune_eq_none_iff.1 nothing)
  obtain ⟨-, isLeft, unchanged⟩ := Branch.prune_of_some pruned
  rw [pruned]
  congr 2
  · exact isLeft.trans (branch.withoutBarren_of_fruitful fruitful)
  · exact unchanged.2 fruitful

/-- Pruning gives nothing exactly for a barren branch. What it gives for any other one is the
branch without the barren ones below it; it is handed back as it is exactly if there was
none, and then and only then it is the same. Pruning again changes nothing. -/
theorem Branch.prune_removes_barren (branch : Branch) :
    (branch.prune = none ↔ branch.Barren) ∧
    ∀ kept, branch.prune = some kept →
      kept.value = branch.withoutBarren ∧
      (kept.changed = false ↔ branch.Fruitful) ∧
      (kept.value = branch ↔ kept.changed = false) ∧
      kept.value.prune = some ⟨kept.value, false⟩ := by
  refine ⟨branch.prune_eq_none_iff, fun kept pruned => ?_⟩
  obtain ⟨live, value, unchanged⟩ := Branch.prune_of_some pruned
  refine ⟨value, unchanged, ?_, ?_⟩
  · rw [value, unchanged]
    exact branch.withoutBarren_eq_self_iff
  · rw [value]
    exact Branch.prune_of_fruitful (mt branch.barren_withoutBarren.1 live)
      branch.fruitful_withoutBarren

/-- A branch that holds nothing but a barren one goes with it, and one in which a node is out
of place stays. -/
theorem Branch.prune_removes_barren_nested :
    let entry : EntryPoint := ⟨"d/_index.entrypoint.js", ⟨"/app/d/_index.entrypoint.js"⟩⟩
    let gone : Branch := ⟨"a", some "a", none, none, [.branch ⟨"a/b", some "b", none, none, []⟩]⟩
    let kept : Branch := ⟨"d", none, none, none, [.special .index entry]⟩
    let half : Branch := ⟨"c", some "c", none, none, [.branch gone, .branch kept]⟩
    let left : Branch := ⟨"c", some "c", none, none, [.branch kept]⟩
    gone.Barren ∧ gone.prune = none ∧ half.prune = some ⟨left, true⟩ ∧
      left = half.withoutBarren ∧ left ≠ half ∧ left.prune = some ⟨left, false⟩ := by
  intro entry gone kept half left
  have barren : gone.Barren := by decide +kernel
  have pruned : half.prune = some ⟨left, true⟩ := rfl
  obtain ⟨value, -, same, again⟩ := (prune_removes_barren half).2 ⟨left, true⟩ pruned
  exact ⟨barren, (prune_removes_barren gone).1.2 barren, pruned, value,
    fun isSame => Bool.noConfusion (same.1 isSame), again⟩

end RouteAtlas
