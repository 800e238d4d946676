import RouteAtlas.Proofs.Route.Barren
import RouteAtlas.Proofs.Route.Compact

/-!
# Pruning before or after compressing

It does not matter which of the two passes comes first
(`Branch.compress_prune_comm`). A barren branch only passes through, and compressing puts
its children in its place, of which there are none left: so compressing takes the barren
branches away that pruning would have taken (`Branch.compress_withoutBarren`), except for
the root. In what it leaves, each branch below the root has a layout or an index, so there
is nothing left to prune.

What relates the passes is that compressing leaves nothing of some nodes exactly if they
are barren branches (`RouteNode.compressAll_eq_nil_iff`).
-/

set_option autoImplicit false

namespace RouteAtlas

/-- A branch only passes through if it has neither a layout nor an index. -/
theorem Branch.isPassThrough_iff {branch : Branch} :
    branch.isPassThrough = true ↔ branch.layout = none ∧ branch.index = none := by
  simp [Branch.isPassThrough]

/-- A branch is empty if it has neither a layout nor an index nor children. -/
theorem Branch.isEmpty_iff {branch : Branch} :
    branch.isEmpty = true ↔ branch.layout = none ∧ branch.index = none ∧ branch.children = [] := by
  rw [Branch.isEmpty, Bool.and_eq_true, Branch.isPassThrough_iff, List.isEmpty_iff, and_comm,
    and_assoc]

/-- A barren branch only passes through. -/
theorem Branch.Barren.isPassThrough {branch : Branch} (barren : branch.Barren) :
    branch.isPassThrough = true := by
  obtain ⟨noLayout, noIndex, -⟩ := Branch.barren_iff.1 barren
  exact Branch.isPassThrough_iff.2 ⟨noLayout, noIndex⟩

/-! ## Compact trees -/

/-- No branch below a compact one is barren. -/
theorem Branch.Compact.fruitful {branch : Branch} (compact : branch.Compact) :
    branch.Fruitful := by
  intro inner member barren
  have stays := compact inner member
  rw [barren.isPassThrough] at stays
  cases stays

/-- A compact branch is barren only if it is empty. -/
theorem Branch.Compact.barren_iff {branch : Branch} (compact : branch.Compact) :
    branch.Barren ↔ branch.isEmpty = true := by
  rw [Branch.barren_iff, Branch.isEmpty_iff, ← RouteNode.withoutBarren_eq_nil_iff,
    RouteNode.withoutBarren_of_fruitful branch.children compact.fruitful]

/-! ## Compressing barren branches -/

mutual

/-- Compressing leaves nothing of some nodes exactly if they are barren branches. -/
theorem RouteNode.compressAll_eq_nil_iff (nodes : List RouteNode) :
    (RouteNode.compressAll nodes).value = [] ↔ RouteNode.AllBarren nodes := by
  match nodes with
  | [] => simp [RouteNode.compressAll]
  | .leaf _ _ :: rest => simp [RouteNode.compressAll]
  | .special _ _ :: rest => simp [RouteNode.compressAll]
  | .branch inner :: rest =>
    have others := RouteNode.compressAll_eq_nil_iff rest
    have kept := Branch.isEmpty_compress_iff inner
    rw [RouteNode.allBarren_cons_branch, ← kept, ← others, Branch.isEmpty]
    simp only [RouteNode.compressAll]
    split
    next through => simp [through]
    next stays => simp [stays]
  termination_by structural nodes

/-- Compressing leaves a branch empty exactly if the branch is barren. -/
theorem Branch.isEmpty_compress_iff (branch : Branch) :
    branch.compress.value.isEmpty = true ↔ branch.Barren := by
  match branch with
  | ⟨_, _, _, _, children⟩ =>
    rw [Branch.isEmpty_iff, Branch.barren_iff, Branch.compress_value]
    exact and_congr_right' (and_congr_right' (RouteNode.compressAll_eq_nil_iff children))
  termination_by structural branch

end

/-- Compressing leaves nothing of a barren branch among others. -/
theorem RouteNode.compressAll_cons_barren {inner : Branch} (barren : inner.Barren)
    (rest : List RouteNode) :
    (RouteNode.compressAll (.branch inner :: rest)).value = (RouteNode.compressAll rest).value := by
  have empty := inner.isEmpty_compress_iff.2 barren
  have through := (Branch.isPassThrough_compress inner).trans barren.isPassThrough
  simp only [RouteNode.compressAll, through, if_true, (Branch.isEmpty_iff.1 empty).2.2,
    List.map_nil, List.nil_append]

/-- A branch keeps its path when its barren branches are left out. -/
theorem Branch.path_withoutBarren (branch : Branch) : branch.withoutBarren.path = branch.path := by
  cases branch
  rfl

mutual

/-- It makes no difference to compressed nodes whether the barren branches went before. -/
theorem RouteNode.compressAll_withoutBarren (nodes : List RouteNode) :
    (RouteNode.compressAll (RouteNode.withoutBarren nodes)).value =
      (RouteNode.compressAll nodes).value := by
  match nodes with
  | [] => rfl
  | .leaf entry path :: rest =>
    exact congrArg (.leaf entry path :: ·) (RouteNode.compressAll_withoutBarren rest)
  | .special role entry :: rest =>
    exact congrArg (.special role entry :: ·) (RouteNode.compressAll_withoutBarren rest)
  | .branch inner :: rest =>
    have others := RouteNode.compressAll_withoutBarren rest
    have kept := Branch.compress_withoutBarren inner
    rw [RouteNode.withoutBarren]
    split
    next barren => rw [RouteNode.compressAll_cons_barren barren, others]
    next =>
      simp only [RouteNode.compressAll, kept, others, Branch.path_withoutBarren]
      split <;> rfl
  termination_by structural nodes

/-- It makes no difference to a compressed branch whether the barren branches below it went
before. -/
theorem Branch.compress_withoutBarren (branch : Branch) :
    branch.withoutBarren.compress.value = branch.compress.value := by
  match branch with
  | ⟨_, _, _, _, children⟩ =>
    rw [Branch.withoutBarren, Branch.compress_value, Branch.compress_value]
    simp only [RouteNode.compressAll_withoutBarren children]
  termination_by structural branch

end

/-! ## The order of the passes -/

/-- If pruning leaves something of a branch, compressing what is left gives the same tree as
compressing the branch itself, and pruning that tree hands it back as it is. If pruning
leaves nothing, compressing leaves a branch without layout, index and children, and pruning
this one gives nothing. -/
theorem Branch.compress_prune_comm (branch : Branch) :
    (∀ kept, branch.prune = some kept →
      kept.value.compress.value = branch.compress.value ∧
      branch.compress.value.prune = some ⟨branch.compress.value, false⟩) ∧
    (branch.prune = none →
      (branch.compress.value.children = [] ∧ branch.compress.value.layout = none ∧
        branch.compress.value.index = none) ∧
      branch.compress.value.prune = none) := by
  have compact := branch.compact_compress
  have isBarren : branch.compress.value.Barren ↔ branch.Barren :=
    compact.barren_iff.trans branch.isEmpty_compress_iff
  constructor
  · intro kept pruned
    obtain ⟨live, value, -⟩ := Branch.prune_of_some pruned
    refine ⟨?_, Branch.prune_of_fruitful (mt isBarren.1 live) compact.fruitful⟩
    rw [value, branch.compress_withoutBarren]
  · intro pruned
    have barren := branch.prune_eq_none_iff.1 pruned
    obtain ⟨noLayout, noIndex, noChild⟩ :=
      Branch.isEmpty_iff.1 (branch.isEmpty_compress_iff.2 barren)
    exact ⟨⟨noChild, noLayout, noIndex⟩, (Branch.prune_eq_none_iff _).2 (isBarren.2 barren)⟩

/-- A branch that is kept for the node out of place in it, next to one that pruning takes
away and compressing splices into nothing. -/
theorem Branch.compress_prune_comm_nested :
    let entry : EntryPoint := ⟨"b/_index.entrypoint.js", ⟨"/app/b/_index.entrypoint.js"⟩⟩
    let gone : Branch := ⟨"a", some "a", none, none, [.branch ⟨"a/c", some "c", none, none, []⟩]⟩
    let kept : Branch := ⟨"b", some "b", none, none, [.branch gone, .special .index entry]⟩
    let root : Branch := ⟨"", none, none, none, [.branch gone, .branch kept]⟩
    let left : Branch := ⟨"", none, none, none, [.special .index entry]⟩
    (∃ pruned, root.prune = some pruned ∧ pruned.value.compress.value = left) ∧
      root.compress.value = left ∧ left.prune = some ⟨left, false⟩ ∧
      gone.prune = none ∧ gone.compress.value.prune = none := by
  intro entry gone kept root left
  obtain ⟨pruned, isPruned⟩ : ∃ pruned, root.prune = some pruned := ⟨_, rfl⟩
  have compressed : root.compress.value = left := rfl
  obtain ⟨same, again⟩ := (compress_prune_comm root).1 pruned isPruned
  rw [compressed] at same again
  have nothing : gone.prune = none := rfl
  exact ⟨⟨pruned, isPruned, same⟩, compressed, again, nothing,
    ((compress_prune_comm gone).2 nothing).2⟩

end RouteAtlas
