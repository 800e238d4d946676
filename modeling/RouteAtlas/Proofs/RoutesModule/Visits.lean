import RouteAtlas.Proofs.RoutesModule.Bindings
import RouteAtlas.RoutesModule.OfFileTree

/-!
# The passes keep the visits

Normalizing a route tree neither hides nor invents anything that is met when the tree is
written out. Pruning keeps all visits, and takes a branch away exactly if nothing is met
in it (`Branch.visits_prune`). Compressing moves nodes into another branch, which only
shows in the visit of a node that is out of place (`Branch.visits_compress`).

So a route tree without such nodes has the same entry points before and after
(`Branch.visits_normalize`), and it counts as empty exactly if it has none
(`Branch.isEmpty_normalize_iff`).
-/

set_option autoImplicit false

namespace RouteAtlas

/-! ## Visits without nodes out of place -/

/-- If nothing is out of place, no entry points are visited only where nothing is. -/
theorem Visit.entries_eq_nil_iff {visits : List Visit} (clean : Visit.AllEntries visits) :
    Visit.entries visits = [] ↔ visits = [] := by
  match visits with
  | [] => simp [Visit.entries]
  | .entry _ :: _ => simp
  | .stray _ _ _ :: _ => exact absurd clean (Visit.not_allEntries_cons_stray _ _ _ _)

/-- What is out of place in a branch is so among its children. -/
theorem Branch.allEntries_visits_iff (branch : Branch) :
    Visit.AllEntries branch.visits ↔
      Visit.AllEntries (RouteNode.visits branch.id branch.children) := by
  have own : ∀ entry : Option EntryPoint, Visit.AllEntries (entry.toList.map .entry) := by
    intro entry
    cases entry <;> simp
  cases branch
  simp [Branch.visits, own]

/-- Where no node is out of place, it does not matter which branch holds the nodes. -/
theorem RouteNode.visits_congr {directory : String} (other : String) {nodes : List RouteNode}
    (clean : Visit.AllEntries (RouteNode.visits directory nodes)) :
    RouteNode.visits other nodes = RouteNode.visits directory nodes := by
  induction nodes with
  | nil => rfl
  | cons node rest ih =>
    cases node with
    | leaf entry path =>
      rw [RouteNode.visits, Visit.allEntries_cons_entry] at clean
      rw [RouteNode.visits, RouteNode.visits, ih clean]
    | special role entry => exact absurd clean (Visit.not_allEntries_cons_stray _ _ _ _)
    | branch inner =>
      rw [RouteNode.visits, Visit.allEntries_append] at clean
      rw [RouteNode.visits, RouteNode.visits, ih clean.2]

/-- Where nothing is out of place, the visits of a branch do not depend on its id and path.
-/
theorem Branch.visits_relabel (branch : Branch) (clean : Visit.AllEntries branch.visits)
    {id : String} {path : Option String} :
    ({ branch with id, path } : Branch).visits = branch.visits := by
  rw [Branch.allEntries_visits_iff] at clean
  cases branch
  simp only [Branch.visits, RouteNode.visits_congr id clean]

/-! ## Pruning -/

mutual

/-- Pruning some nodes keeps what is met in them, and nothing is left exactly if nothing
is met. -/
theorem RouteNode.visits_pruneAll (directory : String) (nodes : List RouteNode) :
    RouteNode.visits directory (RouteNode.pruneAll nodes).value =
        RouteNode.visits directory nodes ∧
      ((RouteNode.pruneAll nodes).value = [] ↔ RouteNode.visits directory nodes = []) := by
  match nodes with
  | [] => simp [RouteNode.pruneAll, RouteNode.visits]
  | .leaf _ _ :: rest =>
    have others := RouteNode.visits_pruneAll directory rest
    simp [RouteNode.pruneAll, RouteNode.visits, others.1]
  | .special _ _ :: rest =>
    have others := RouteNode.visits_pruneAll directory rest
    simp [RouteNode.pruneAll, RouteNode.visits, others.1]
  | .branch inner :: rest =>
    have others := RouteNode.visits_pruneAll directory rest
    have kept := Branch.visits_prune inner
    simp only [RouteNode.pruneAll]
    cases pruned : inner.prune with
    | none =>
      simp only [pruned] at kept
      simpa [RouteNode.visits, kept] using others
    | some pass =>
      simp only [pruned] at kept
      simp [RouteNode.visits, kept.1, kept.2, others.1]
  termination_by structural nodes

/-- Pruning a branch keeps what is met in it, and it is taken away exactly if nothing is
met. -/
theorem Branch.visits_prune (branch : Branch) :
    match branch.prune with
    | some kept => kept.value.visits = branch.visits ∧ branch.visits ≠ []
    | none => branch.visits = [] := by
  match branch with
  | ⟨id, path, layout, index, children⟩ =>
    obtain ⟨same, noneLeft⟩ := RouteNode.visits_pruneAll id children
    simp only [Branch.prune]
    split
    next kept isKept =>
      split at isKept
      · cases isKept
      next filled =>
        cases isKept
        simp only [Branch.visits, same, true_and]
        intro nothing
        simp only [List.append_eq_nil_iff, List.map_eq_nil_iff, Option.toList_eq_nil_iff] at nothing
        obtain ⟨rfl, noVisit, rfl⟩ := nothing
        simp [noneLeft.2 noVisit] at filled
    next isGone =>
      split at isGone
      next empty =>
        simp only [Bool.and_eq_true, List.isEmpty_iff, Option.isNone_iff_eq_none] at empty
        obtain ⟨⟨noChild, rfl⟩, rfl⟩ := empty
        simp [Branch.visits, noneLeft.1 noChild]
      · cases isGone
  termination_by structural branch

end

/-! ## Compression -/

/-- The visits of two lists of nodes come one after the other. -/
theorem RouteNode.visits_append (directory : String) (before after : List RouteNode) :
    RouteNode.visits directory (before ++ after) =
      RouteNode.visits directory before ++ RouteNode.visits directory after := by
  induction before with
  | nil => rfl
  | cons node rest ih => cases node <;> simp [RouteNode.visits, ih]

/-- To put nodes under a path does not change their visits. -/
theorem RouteNode.visits_map_under (directory : String) (path : Option String)
    (nodes : List RouteNode) :
    RouteNode.visits directory (nodes.map (RouteNode.under path)) =
      RouteNode.visits directory nodes := by
  induction nodes with
  | nil => rfl
  | cons node rest ih =>
    match node with
    | .leaf _ _ => simp [RouteNode.under, RouteNode.visits, ih]
    | .special _ _ => simp [RouteNode.under, RouteNode.visits, ih]
    | .branch ⟨_, _, _, _, _⟩ => simp [RouteNode.under, RouteNode.visits, Branch.visits, ih]

/-- A branch that only passes through has the visits of its children. -/
theorem Branch.visits_of_isPassThrough (branch : Branch) (through : branch.isPassThrough = true) :
    branch.visits = RouteNode.visits branch.id branch.children := by
  match branch, through with
  | ⟨_, _, none, none, _⟩, _ => simp [Branch.visits]

mutual

/-- Compressing some nodes keeps what is met in them, if no node is out of place. -/
theorem RouteNode.visits_compressAll (directory : String) (nodes : List RouteNode)
    (clean : Visit.AllEntries (RouteNode.visits directory nodes)) :
    RouteNode.visits directory (RouteNode.compressAll nodes).value =
      RouteNode.visits directory nodes := by
  match nodes with
  | [] => rfl
  | .leaf _ _ :: rest =>
    rw [RouteNode.visits, Visit.allEntries_cons_entry] at clean
    simp only [RouteNode.compressAll, RouteNode.visits,
      RouteNode.visits_compressAll directory rest clean]
  | .special _ _ :: rest => exact absurd clean (Visit.not_allEntries_cons_stray _ _ _ _)
  | .branch inner :: rest =>
    rw [RouteNode.visits, Visit.allEntries_append] at clean
    have others := RouteNode.visits_compressAll directory rest clean.2
    have kept := Branch.visits_compress inner clean.1
    simp only [RouteNode.compressAll]
    split
    next through =>
      rw [Branch.visits_of_isPassThrough _ through] at kept
      have cleanKept := kept ▸ clean.1
      rw [RouteNode.visits_append, RouteNode.visits_map_under, others, RouteNode.visits, ← kept,
        RouteNode.visits_congr directory cleanKept]
    next => rw [RouteNode.visits, RouteNode.visits, kept, others]
  termination_by structural nodes

/-- Compressing a branch keeps what is met in it, if no node is out of place. -/
theorem Branch.visits_compress (branch : Branch) (clean : Visit.AllEntries branch.visits) :
    branch.compress.value.visits = branch.visits := by
  match branch with
  | ⟨id, _, _, _, children⟩ =>
    simp only [Branch.visits, Visit.allEntries_append] at clean
    simp only [Branch.compress, Branch.visits, RouteNode.visits_compressAll id children clean.2.1]
  termination_by structural branch

end

/-! ## Normal forms -/

/-- Normalizing a route tree keeps what is met in it, if no node is out of place. -/
theorem Branch.visits_normalize (root : Branch) (clean : Visit.AllEntries root.visits) :
    root.normalize.visits = root.visits := by
  have kept := Branch.visits_prune root
  unfold Branch.normalize
  cases pruned : root.prune with
  | none =>
    simp only [pruned] at kept
    rw [kept]
    rfl
  | some pass =>
    simp only [pruned] at kept
    rw [← kept.1] at clean
    rw [Branch.visits_compress _ clean, kept.1]

/-- An empty branch has no visits. -/
theorem Branch.visits_of_isEmpty (branch : Branch) (empty : branch.isEmpty = true) :
    branch.visits = [] := by
  unfold Branch.isEmpty at empty
  rw [Bool.and_eq_true, List.isEmpty_iff] at empty
  rw [Branch.visits_of_isPassThrough branch empty.2, empty.1]
  rfl

/-- A normalized route tree is empty exactly if nothing is met in the tree, as long as no
node is out of place. -/
theorem Branch.isEmpty_normalize_iff (root : Branch) (clean : Visit.AllEntries root.visits) :
    root.normalize.isEmpty = true ↔ root.visits = [] := by
  constructor
  · intro empty
    rw [← Branch.visits_normalize root clean]
    exact Branch.visits_of_isEmpty _ empty
  · intro nothing
    have kept := Branch.visits_prune root
    unfold Branch.normalize
    cases pruned : root.prune with
    | none => rfl
    | some pass =>
      simp only [pruned] at kept
      exact absurd nothing kept.2

end RouteAtlas
