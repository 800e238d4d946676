import Mathlib.Data.Set.Subsingleton
import RouteAtlas.Proofs.FileTree.Names
import RouteAtlas.Proofs.FileTree.Watched

/-!
# A file tree as a set of files

To an event, a canonical file tree is no more than a set of files, each known by the
names that lead to it (`Folder.fileSet`). Creating a file adds it to the set, in place of
a file that stands above it, unless something is there already; deleting an entry takes
away what is at its place and below; everything else leaves the set alone. The flag tells
which of these happened, and the folders follow from the set
(`Folder.apply_refines_fileSet`).

The path of an event only matters through the names that it spells. A path that leaves
the root spells none and is refused (`Path.Escapes`), whatever the event. Among the events
on names, `Event.Acts` singles out those that can change a tree, and `Event.Spares` says
which files such an event leaves where they are, so that one formula describes what is
recorded after any of them (`Folder.records_edited`).
-/

set_option autoImplicit false

namespace RouteAtlas

variable {root path : Path} {components : List Component} {names : List String}

/-! ## Paths that leave a root -/

/-- Whether a path starts with a root and then leaves it: it steps up, or the root is
empty and the path starts anew. -/
def Path.Escapes (root path : Path) : Prop :=
  ∃ components, root.below? path = some components ∧
    (.parent ∈ components ∨ root.text = "" ∧ path.isAbsolute = true)

/-- Components do not count as names if they step to the top or up. -/
theorem Folder.namesBelow?_eq_none_iff :
    namesBelow? components = none ↔ .root ∈ components ∨ .parent ∈ components := by
  induction components with
  | nil => simp [namesBelow?]
  | cons component rest ih => cases component <;> simp [namesBelow?, ih]

namespace Path

/-- An absolute path starts with the slash. -/
theorem root_mem_lead_iff : .root ∈ path.lead ↔ path.isAbsolute = true := by
  rw [lead]
  split
  next absolute => simp [absolute]
  next notAbsolute => split <;> simp [notAbsolute]

/-- A path starts at the root of the file system or never gets there. -/
theorem mem_lead_of_root_mem (member : .root ∈ path.components) : .root ∈ path.lead := by
  refine (List.mem_append.1 member).resolve_right fun inPieces => ?_
  obtain ⟨piece, -, added⟩ := List.mem_filterMap.1 inPieces
  rcases componentOf?_eq_some added with impossible | ⟨impossible, -⟩ <;> cases impossible

/-- Behind a root a path can only start anew if the root is empty. -/
theorem root_mem_below_iff (below : root.below? path = some components) :
    .root ∈ components ↔ root.text = "" ∧ path.isAbsolute = true := by
  have isPath := components_of_below? below
  constructor
  · intro member
    have inPath : .root ∈ path.components := by
      rw [isPath]
      exact List.mem_append_right _ member
    have absolute := root_mem_lead_iff.1 (mem_lead_of_root_mem inPath)
    refine ⟨Decidable.byContradiction fun filled => ?_, absolute⟩
    -- The front of the path is the root's, and behind it stand names and steps up.
    obtain ⟨first, rest, isRoot⟩ := List.exists_cons_of_ne_nil (components_ne_nil filled)
    rw [Path.components, lead, if_pos absolute, isRoot, List.cons_append, List.cons_append,
      List.nil_append] at isPath
    have behind : .root ∈ (pieces path.text.toList).filterMap componentOf? := by
      rw [(List.cons.inj isPath).2]
      exact List.mem_append_right _ member
    obtain ⟨piece, -, added⟩ := List.mem_filterMap.1 behind
    rcases componentOf?_eq_some added with impossible | ⟨impossible, -⟩ <;> cases impossible
  · rintro ⟨empty, absolute⟩
    have isEmpty : root.components = [] := by
      rw [Path.components, lead, isAbsolute, empty]
      rfl
    rw [isEmpty, List.nil_append] at isPath
    rw [← isPath]
    exact List.mem_append_left _ (root_mem_lead_iff.2 absolute)

/-- A path that starts with a root spells names behind it or leaves it. -/
theorem namesBelow?_eq_none_iff_escapes (below : root.below? path = some components) :
    Folder.namesBelow? components = none ↔ root.Escapes path := by
  rw [Folder.namesBelow?_eq_none_iff, root_mem_below_iff below, or_comm]
  constructor
  · exact fun leaves => ⟨components, below, leaves⟩
  · rintro ⟨others, isBelow, leaves⟩
    cases below.symm.trans isBelow
    exact leaves

/-- A path that does not leave a root spells names behind it, or does not start with
it. -/
theorem exists_spells_of_not_escapes (stays : ¬ root.Escapes path) :
    (∃ names, root.Spells path names) ∨ root.below? path = none := by
  cases below : root.below? path with
  | none => exact .inr rfl
  | some components =>
    left
    cases areNames : Folder.namesBelow? components with
    | none => exact absurd ((namesBelow?_eq_none_iff_escapes below).1 areNames) stays
    | some names => exact ⟨names, components, below, areNames⟩

/-- A path that is spelled below a root does not leave it. -/
theorem Spells.not_escapes (spells : root.Spells path names) : ¬ root.Escapes path := by
  obtain ⟨components, below, areNames⟩ := spells
  rw [← namesBelow?_eq_none_iff_escapes below, areNames]
  exact nofun

end Path

/-! ## Events on names -/

/-- Whether an event on the entry at the end of some names can change a tree: a file that
takes part in routing is created, or an entry on whose way nothing is ignored is
deleted. -/
def Event.Acts (patterns names : List String) : Event → Prop
  | .create => Admitted patterns names
  | .delete => names ≠ [] ∧ ∀ name ∈ names, isIgnored patterns name = false
  | .update => False

/-- Whether a file stays where it is when an event acts on the entry at the end of some
names: a file above a created one gives way, and all files at or below a deleted entry
go. -/
def Event.Spares (names file : List String) : Event → Prop
  | .create => file <+: names → file = names
  | .delete => ¬ names <+: file
  | .update => True

namespace Folder

variable {tree : Folder} {patterns : List String} {event : Event}

/-- The files of a tree, each known by the names that lead to it. -/
def fileSet (tree : Folder) : Set (List String) := {names | tree.Records names}

/-- The files of a tree are those that it records. -/
@[simp] theorem mem_fileSet : names ∈ tree.fileSet ↔ tree.Records names := Iff.rfl

/-- An event that does not act leaves the tree as it is. -/
theorem edited_of_not_acts (idle : ¬ event.Acts patterns names) :
    tree.edited patterns names event = (tree, false) := by
  cases event with
  | create => exact edited_create_of_not_admitted idle
  | delete =>
    rw [edited]
    refine if_pos ?_
    rw [Bool.or_eq_true, List.isEmpty_iff, List.any_eq_true]
    refine Decidable.or_iff_not_imp_left.2 fun filled => ?_
    refine Decidable.byContradiction fun noneIgnored => idle ⟨filled, fun name member => ?_⟩
    exact Bool.eq_false_iff.2 fun ignored => noneIgnored ⟨name, member, ignored⟩
  | update => exact edited_update tree patterns names

/-- A deletion that acts deletes. -/
theorem edited_delete_of_acts (acts : Event.delete.Acts patterns names) :
    tree.edited patterns names .delete = tree.delete names := by
  rw [edited]
  refine if_neg ?_
  rw [Bool.or_eq_true, List.isEmpty_iff, List.any_eq_true]
  rintro (none | ⟨name, member, ignored⟩)
  · exact acts.1 none
  · rw [acts.2 name member] at ignored
    cases ignored

/-- After an event a tree records what the event spares, and a created file unless
something was recorded at its place or below. -/
theorem records_edited (canonical : tree.Canonical) (file : List String) :
    (tree.edited patterns names event).1.Records file ↔
      tree.Records file ∧ (event.Acts patterns names → event.Spares names file) ∨
        file = names ∧ event = .create ∧ event.Acts patterns names ∧ ¬ tree.Reaches names := by
  by_cases acts : event.Acts patterns names
  · cases event with
    | create =>
      rw [edited_create_of_admitted acts, records_create canonical acts.ne_nil]
      simp [acts, Event.Spares]
    | delete =>
      rw [edited_delete_of_acts acts, records_delete canonical acts.1]
      simp [acts, Event.Spares]
    | update => exact absurd acts id
  · rw [edited_of_not_acts acts]
    simp [acts]

/-- An event changes a tree if it acts and either creates a file where nothing is recorded
or deletes something that is. -/
theorem edited_changed_iff (canonical : tree.Canonical) :
    (tree.edited patterns names event).2 = true ↔
      event.Acts patterns names ∧ (tree.Reaches names ↔ event = .delete) := by
  by_cases acts : event.Acts patterns names
  · cases event with
    | create =>
      rw [edited_create_of_admitted acts, create_changed canonical acts.ne_nil]
      simp [acts]
    | delete =>
      rw [edited_delete_of_acts acts, delete_changed canonical acts.1]
      simp [acts]
    | update => exact absurd acts id
  · rw [edited_of_not_acts acts]
    simp [acts]

/-- A canonical tree for which an event reports no change is left as it is. -/
theorem edited_of_unchanged (canonical : tree.Canonical)
    (unchanged : (tree.edited patterns names event).2 = false) :
    (tree.edited patterns names event).1 = tree := by
  refine Decidable.byContradiction fun different => ?_
  rw [(edited_changed_iff_ne canonical patterns names event).2 different] at unchanged
  cases unchanged

/-! ## Events on paths -/

/-- An event on a path that leaves the root is refused. -/
theorem apply_of_escapes (escapes : tree.label.path.Escapes path) :
    tree.apply patterns path event = .error (.pathEscapes path) := by
  obtain ⟨components, below, -⟩ := id escapes
  rw [apply, watched?, below]
  simp only [(Path.namesBelow?_eq_none_iff_escapes below).2 escapes]
  rfl

/-- An event on a path elsewhere changes nothing. -/
theorem apply_of_not_below (apart : tree.label.path.below? path = none) :
    tree.apply patterns path event = .ok (tree, false) := by
  rw [apply, watched?, apart]
  rfl

/-- At most one file of a tree stands at the end of some names or above. -/
theorem subsingleton_fileSet_above (tree : Folder) (names : List String) :
    {file ∈ tree.fileSet | file <+: names}.Subsingleton := by
  rintro first ⟨isFirst, firstAbove⟩ second ⟨isSecond, secondAbove⟩
  rcases List.prefix_or_prefix_of_prefix firstAbove secondAbove with
    ⟨rest, rfl⟩ | ⟨rest, rfl⟩
  · rw [Entry.Records.eq_nil_of_append isFirst isSecond, List.append_nil]
  · rw [Entry.Records.eq_nil_of_append isSecond isFirst, List.append_nil]

/-- A creation adds the file, and takes away the files in its way. -/
theorem fileSet_create (canonical : tree.Canonical) (admitted : Admitted patterns names)
    (free : ¬ tree.Reaches names) :
    (tree.edited patterns names .create).1.fileSet =
      insert names {file ∈ tree.fileSet | ¬ file <+: names} := by
  ext file
  have absent : ¬ tree.Records names := fun recorded => free recorded.reaches
  have apart : tree.Records file → file ≠ names := fun recorded same => absent (same ▸ recorded)
  rw [mem_fileSet, records_edited canonical, or_comm]
  refine or_congr ?_ (and_congr_right fun recorded => ?_)
  · simp [Event.Acts, admitted, free]
  · simp [Event.Acts, admitted, Event.Spares, apart recorded]

/-- A deletion takes away the files at and below the names. -/
theorem fileSet_delete (canonical : tree.Canonical)
    (acts : Event.delete.Acts patterns names) :
    (tree.edited patterns names .delete).1.fileSet =
      {file ∈ tree.fileSet | ¬ names <+: file} := by
  ext file
  rw [mem_fileSet, records_edited canonical]
  simp [acts, Event.Spares]

/-- What an event on a path makes of a tree, as far as the files before and after tell. -/
structure FileStep (patterns : List String) (path : Path) (event : Event) (tree next : Folder)
    (changed : Bool) : Prop where
  canonical : next.Canonical
  label : next.label = tree.label
  /-- The folders are the root and what stands above a file, with the labels that their
  names give them. -/
  folders : ∀ label, label ∈ next.folders.map (·.label) ↔
    ∃ names, label = tree.label.descendant names ∧
      (names = [] ∨ ∃ file ∈ next.fileSet, names <+: file ∧ names ≠ file)
  /-- A file is not created where there is one already, or one below. -/
  occupied : event = .create → ∀ names, tree.label.path.Spells path names →
    Admitted patterns names → (∃ file ∈ tree.fileSet, names <+: file) →
    next = tree ∧ changed = false
  /-- Elsewhere a file is created, and the one above it, if any, gives way. -/
  created : event = .create → ∀ names, tree.label.path.Spells path names →
    Admitted patterns names → (¬ ∃ file ∈ tree.fileSet, names <+: file) →
    next.fileSet = insert names {file ∈ tree.fileSet | ¬ file <+: names} ∧
      {file ∈ tree.fileSet | file <+: names}.Subsingleton ∧ changed = true
  /-- All files at or below a deleted entry go. -/
  deleted : event = .delete → ∀ names, tree.label.path.Spells path names → names ≠ [] →
    (∀ name ∈ names, isIgnored patterns name = false) →
    next.fileSet = {file ∈ tree.fileSet | ¬ names <+: file} ∧
      (changed = true ↔ ∃ file ∈ tree.fileSet, names <+: file)
  /-- No other event changes anything. -/
  idle : (∀ names, tree.label.path.Spells path names → ¬ event.Acts patterns names) →
    next = tree ∧ changed = false

/-- What a tree reaches are the files and what lies above one. -/
theorem reaches_iff : tree.Reaches names ↔ ∃ file ∈ tree.fileSet, names <+: file := by
  constructor
  · rintro ⟨rest, recorded⟩
    exact ⟨names ++ rest, recorded, List.prefix_append names rest⟩
  · rintro ⟨_, recorded, rest, rfl⟩
    exact ⟨rest, recorded⟩

/-- The folders of a canonical tree are the root and what lies above a file. -/
theorem Canonical.mem_folders_iff (canonical : tree.Canonical) {label : Label} :
    label ∈ tree.folders.map (·.label) ↔
      ∃ names, label = tree.label.descendant names ∧
        (names = [] ∨ ∃ file ∈ tree.fileSet, names <+: file ∧ names ≠ file) := by
  rw [canonical.mem_labels_folders_iff]
  refine exists_congr fun names => and_congr_right fun _ => or_congr_right ?_
  constructor
  · rintro ⟨rest, more, recorded⟩
    exact ⟨names ++ rest, recorded, List.prefix_append names rest, by simpa using more⟩
  · rintro ⟨_, recorded, ⟨rest, rfl⟩, proper⟩
    exact ⟨rest, by simpa using proper, recorded⟩

/-- A tree that stays as it is has made a step, if the event does not act. -/
theorem FileStep.of_idle (canonical : tree.Canonical)
    (idle : ∀ names, tree.label.path.Spells path names → ¬ event.Acts patterns names) :
    FileStep patterns path event tree tree false where
  canonical := canonical
  label := rfl
  folders _ := canonical.mem_folders_iff
  occupied _ _ _ _ _ := ⟨rfl, rfl⟩
  created isCreate names spells admitted := by
    subst isCreate
    exact absurd admitted (idle names spells)
  deleted isDelete names spells filled noneIgnored := by
    subst isDelete
    exact absurd ⟨filled, noneIgnored⟩ (idle names spells)
  idle _ := ⟨rfl, rfl⟩

/-- An event on the names that a path spells makes a step. -/
theorem FileStep.of_spells (canonical : tree.Canonical)
    (spells : tree.label.path.Spells path names) :
    FileStep patterns path event tree (tree.edited patterns names event).1
      (tree.edited patterns names event).2 where
  canonical := canonical.edited patterns names event
  label := tree.edited_label patterns names event
  folders _ := by
    rw [(canonical.edited patterns names event).mem_folders_iff, edited_label]
  occupied isCreate others spellsOthers _ reached := by
    subst isCreate
    obtain rfl := spells.unique spellsOthers
    have unchanged : (tree.edited patterns names .create).2 = false := by
      rw [← Bool.not_eq_true, edited_changed_iff canonical, reaches_iff]
      rintro ⟨-, isDelete⟩
      cases isDelete.1 reached
    exact ⟨edited_of_unchanged canonical unchanged, unchanged⟩
  created isCreate others spellsOthers admitted free := by
    subst isCreate
    obtain rfl := spells.unique spellsOthers
    rw [← reaches_iff] at free
    refine ⟨fileSet_create canonical admitted free, tree.subsingleton_fileSet_above names, ?_⟩
    exact (edited_changed_iff canonical).2 ⟨admitted, by simp [free]⟩
  deleted isDelete others spellsOthers filled noneIgnored := by
    subst isDelete
    obtain rfl := spells.unique spellsOthers
    have acts : Event.delete.Acts patterns names := ⟨filled, noneIgnored⟩
    refine ⟨fileSet_delete canonical acts, ?_⟩
    rw [edited_changed_iff canonical, reaches_iff]
    simp [acts]
  idle idle := by
    rw [edited_of_not_acts (idle names spells)]
    exact ⟨rfl, rfl⟩

/-- To an event, a canonical tree is the set of its files: an event on a path that leaves
the root is refused, and every other one makes a step on the set. -/
theorem apply_refines_fileSet (tree : Folder) (patterns : List String) (path : Path)
    (event : Event) (canonical : tree.Canonical) :
    (tree.label.path.Escapes path →
      tree.apply patterns path event = .error (.pathEscapes path)) ∧
    (¬ tree.label.path.Escapes path → ∃ next changed,
      tree.apply patterns path event = .ok (next, changed) ∧
        FileStep patterns path event tree next changed) := by
  refine ⟨apply_of_escapes, fun stays => ?_⟩
  rcases Path.exists_spells_of_not_escapes stays with ⟨names, spells⟩ | apart
  · exact ⟨_, _, apply_of_spells spells event, .of_spells canonical spells⟩
  · refine ⟨tree, false, apply_of_not_below apart, .of_idle canonical ?_⟩
    rintro names ⟨components, below, -⟩
    rw [apart] at below
    cases below

/-- A file stands where the path of a created one needs a folder, and gives way. A path
that leaves the root is refused although its event changes nothing anyway. -/
theorem apply_refines_fileSet_gives_way :
    let tree := ((Folder.root ⟨"/app"⟩).create ["users.entrypoint.tsx"]).1
    let path : Path := ⟨"/app//users.entrypoint.tsx/./$id.entrypoint.tsx"⟩
    let names := ["users.entrypoint.tsx", "$id.entrypoint.tsx"]
    let leaving : Path := ⟨"/app/users/.."⟩
    tree.Canonical ∧ tree.label.path.Spells path names ∧ ¬ tree.label.path.Escapes path ∧
      tree.label.path.Escapes leaving ∧ ["users.entrypoint.tsx"] ∈ tree.fileSet ∧
      (∃ next, tree.apply [] path .create = .ok (next, true) ∧ next.Canonical ∧
        names ∈ next.fileSet ∧ ["users.entrypoint.tsx"] ∉ next.fileSet) ∧
      tree.apply [] leaving .update = .error (.pathEscapes leaving) := by
  intro tree path names leaving
  have canonical : tree.Canonical := (Canonical.of_nil _).create _
  have spells : tree.label.path.Spells path names :=
    ⟨[.name "users.entrypoint.tsx", .name "$id.entrypoint.tsx"], by decide +kernel, rfl⟩
  have escapes : tree.label.path.Escapes leaving :=
    ⟨[.name "users", .parent], by decide +kernel, .inl (by decide)⟩
  have recorded : ["users.entrypoint.tsx"] ∈ tree.fileSet :=
    mem_fileSet.2 (Entry.records_singleton_iff.2 ⟨_, rfl⟩)
  have isFile : Entry.find? "users.entrypoint.tsx" tree.entries = some (.file _) := rfl
  have free : ¬ ∃ file ∈ tree.fileSet, names <+: file := by
    rw [← reaches_iff, reaches_cons_of_file isFile]
    exact List.cons_ne_nil _ _
  obtain ⟨-, steps⟩ := apply_refines_fileSet tree [] path .create canonical
  obtain ⟨next, changed, applied, step⟩ := steps spells.not_escapes
  obtain ⟨isNext, -, rfl⟩ := step.created rfl names spells ⟨by decide, _, rfl, by decide⟩ free
  obtain ⟨refused, -⟩ := apply_refines_fileSet tree [] leaving .update canonical
  refine ⟨canonical, spells, spells.not_escapes, escapes, recorded,
    ⟨next, applied, step.canonical, ?_, ?_⟩, refused escapes⟩
  · rw [isNext]
    exact Set.mem_insert _ _
  · rw [isNext]
    rintro (impossible | ⟨-, stays⟩)
    · exact absurd impossible (by decide)
    · exact stays (List.prefix_append _ ["$id.entrypoint.tsx"])

end Folder

end RouteAtlas
