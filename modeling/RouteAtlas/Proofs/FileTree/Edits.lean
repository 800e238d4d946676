import RouteAtlas.FileTree.Event
import RouteAtlas.Proofs.FileTree.Records

/-!
# What events record

An event edits a file tree in place. In terms of records, creating a file adds
it, unless something is recorded at its place or below, and takes away the files
that stand in its way (`Folder.records_create`); deleting an entry takes away all
files at or below its place (`Folder.records_delete`). Both keep a tree
canonical, and both tell truly whether the tree has changed.
-/

set_option autoImplicit false

namespace RouteAtlas

/-! ## Entries as a map -/

namespace Entry

/-- An entry that is put in is found by its name, and other names find what they did. -/
theorem find?_insert (entry : Entry) (entries : List Entry) (name : String) :
    find? name (insert entry entries) =
      if entry.name = name then some entry else find? name entries := by
  induction entries with
  | nil => rfl
  | cons other rest ih =>
    rw [insert]
    split
    next => rfl
    next =>
      split
      next same =>
        rw [find?, find?, ← same]
        split <;> rfl
      next different =>
        rw [find?, ih, find?]
        split
        next isOther =>
          have isNot : entry.name ≠ name := fun isEntry => different (isEntry.trans isOther.symm)
          rw [if_neg isNot]
        next => rfl

/-- An entry that is put in is found. -/
theorem find?_insert_self (entry : Entry) (entries : List Entry) :
    find? entry.name (insert entry entries) = some entry := by
  rw [find?_insert, if_pos rfl]

/-- To put an entry in does not change what other names find. -/
theorem find?_insert_of_ne {entry : Entry} {name : String} (different : entry.name ≠ name)
    (entries : List Entry) : find? name (insert entry entries) = find? name entries := by
  rw [find?_insert, if_neg different]

/-- The entries after one is put in are that one and old ones. -/
theorem mem_insert {entry other : Entry} {entries : List Entry}
    (member : other ∈ insert entry entries) : other = entry ∨ other ∈ entries := by
  induction entries with
  | nil => exact .inl (List.mem_singleton.1 member)
  | cons first rest ih =>
    rw [insert] at member
    split at member
    next => exact List.mem_cons.1 member
    next =>
      split at member
      next =>
        rcases List.mem_cons.1 member with isEntry | later
        · exact .inl isEntry
        · exact .inr (List.mem_cons_of_mem _ later)
      next =>
        rcases List.mem_cons.1 member with isFirst | later
        · exact .inr (isFirst ▸ List.mem_cons_self)
        · exact (ih later).imp_right (List.mem_cons_of_mem _)

/-- With an entry put in, there are entries. -/
theorem insert_ne_nil (entry : Entry) (entries : List Entry) : insert entry entries ≠ [] := by
  cases entries with
  | nil => exact List.cons_ne_nil _ _
  | cons =>
    rw [insert]
    split
    · exact List.cons_ne_nil _ _
    · split <;> exact List.cons_ne_nil _ _

/-- To put an entry in keeps the order. -/
theorem Sorted.insert {entries : List Entry} (sorted : Sorted entries) (entry : Entry) :
    Sorted (insert entry entries) := by
  induction entries with
  | nil => exact List.pairwise_singleton _ _
  | cons first rest ih =>
    obtain ⟨least, sortedRest⟩ := List.pairwise_cons.1 sorted
    rw [Entry.insert]
    split
    next less =>
      refine List.pairwise_cons.2 ⟨fun other member => ?_, sorted⟩
      rcases List.mem_cons.1 member with rfl | later
      · exact less
      · exact String.lt_trans less (least other later)
    next notLess =>
      split
      next same =>
        refine List.pairwise_cons.2 ⟨fun other member => ?_, sortedRest⟩
        rw [same]
        exact least other member
      next different =>
        have greater : first.name < entry.name :=
          Decidable.byContradiction fun notGreater =>
            different (String.le_antisymm (String.not_lt.1 notGreater) (String.not_lt.1 notLess))
        refine List.pairwise_cons.2 ⟨fun other member => ?_, ih sortedRest⟩
        rcases mem_insert member with rfl | later
        · exact greater
        · exact least other later

/-- What is left after a removal was there before, in the same order. -/
theorem remove_sublist (name : String) (entries : List Entry) :
    (remove name entries).Sublist entries := by
  induction entries with
  | nil => exact List.Sublist.refl _
  | cons first rest ih =>
    rw [remove]
    split
    · exact List.sublist_cons_self _ _
    · exact ih.cons_cons _

/-- To remove a name does not change what other names find. -/
theorem find?_remove_of_ne {name other : String} (different : name ≠ other)
    (entries : List Entry) : find? other (remove name entries) = find? other entries := by
  induction entries with
  | nil => rfl
  | cons first rest ih =>
    rw [remove]
    split
    next isFirst =>
      rw [find?, if_neg fun isOther => different (isFirst.symm.trans isOther)]
    next => rw [find?, find?, ih]

/-- In sorted entries a name that is removed finds nothing. -/
theorem Sorted.find?_remove_self {entries : List Entry} (sorted : Sorted entries)
    (name : String) : find? name (remove name entries) = none := by
  induction entries with
  | nil => rfl
  | cons first rest ih =>
    obtain ⟨least, sortedRest⟩ := List.pairwise_cons.1 sorted
    rw [remove]
    split
    next isFirst =>
      cases found : find? name rest with
      | none => rfl
      | some entry =>
        obtain ⟨member, isEntry⟩ := mem_of_find?_eq_some found
        have less := least entry member
        rw [isFirst, isEntry] at less
        exact absurd less (String.lt_irrefl _)
    next isNot => rw [find?, if_neg isNot, ih sortedRest]

end Entry

/-! ## One entry of a canonical folder -/

namespace Folder

variable {folder : Folder}

/-- A canonical folder stays so if an entry is put in that has its label from the folder
and, if it is a folder, is canonical and not empty. -/
theorem Canonical.insert (canonical : folder.Canonical) (entry : Entry)
    (label : entry.label = folder.label.child entry.name)
    (inner : ∀ inner, entry = .folder inner → inner.entries ≠ [] ∧ inner.Canonical) :
    Canonical { folder with entries := Entry.insert entry folder.entries } := by
  refine .intro _ _ (canonical.sorted.insert entry) ?_ ?_ ?_
  · intro other member
    rcases Entry.mem_insert member with rfl | old
    · exact label
    · exact canonical.labelled other old
  · intro other member
    rcases Entry.mem_insert member with new | old
    · exact (inner other new.symm).1
    · exact canonical.filled other old
  · intro other member
    rcases Entry.mem_insert member with new | old
    · exact (inner other new.symm).2
    · exact canonical.inside other old

/-- A canonical folder stays so if an entry is removed. -/
theorem Canonical.remove (canonical : folder.Canonical) (name : String) :
    Canonical { folder with entries := Entry.remove name folder.entries } := by
  have kept := Entry.remove_sublist name folder.entries
  exact .intro _ _ (canonical.sorted.sublist kept)
    (fun entry member => canonical.labelled entry (kept.subset member))
    (fun inner member => canonical.filled inner (kept.subset member))
    (fun inner member => canonical.inside inner (kept.subset member))

/-- An empty folder is canonical. -/
theorem Canonical.of_nil (label : Label) : Canonical ⟨label, []⟩ :=
  .intro label [] List.Pairwise.nil (fun _ member => absurd member List.not_mem_nil)
    (fun _ member => absurd member List.not_mem_nil)
    (fun _ member => absurd member List.not_mem_nil)

/-- Whether a folder records a file at the end of the given names or below. -/
def Reaches (folder : Folder) (names : List String) : Prop :=
  ∃ rest, folder.Records (names ++ rest)

/-- Where a name finds nothing, nothing is reached below it. -/
theorem reaches_cons_of_none {name : String} (found : Entry.find? name folder.entries = none)
    (names : List String) : ¬ folder.Reaches (name :: names) :=
  fun ⟨_, recorded⟩ => Entry.records_cons_of_none found _ recorded

/-- A file is reached, and nothing below it. -/
theorem reaches_cons_of_file {name : String} {label : Label}
    (found : Entry.find? name folder.entries = some (.file label)) (names : List String) :
    folder.Reaches (name :: names) ↔ names = [] := by
  constructor
  · rintro ⟨rest, recorded⟩
    exact (List.append_eq_nil_iff.1 ((Entry.records_cons_of_file found _).1 recorded)).1
  · rintro rfl
    exact ⟨[], (Entry.records_cons_of_file found _).2 rfl⟩

/-- A folder is reached, and what is reached in it. -/
theorem reaches_cons_of_folder {name : String} {inner : Folder}
    (found : Entry.find? name folder.entries = some (.folder inner)) (names : List String) :
    folder.Reaches (name :: names) ↔ inner.Reaches names :=
  exists_congr fun rest => Entry.records_cons_of_folder found (names ++ rest)

/-- What is reached below a name that is no folder is the name itself. -/
theorem eq_nil_of_reaches {name : String} {names : List String}
    (noFolder : ∀ inner, Entry.find? name folder.entries ≠ some (.folder inner))
    (reached : folder.Reaches (name :: names)) : names = [] := by
  cases found : Entry.find? name folder.entries with
  | none => exact absurd reached (reaches_cons_of_none found names)
  | some entry =>
    cases entry with
    | file label => exact (reaches_cons_of_file found names).1 reached
    | folder inner => exact absurd found (noFolder inner)

/-- A recorded file is reached. -/
theorem Records.reaches {names : List String} (recorded : folder.Records names) :
    folder.Reaches names :=
  ⟨[], by rwa [List.append_nil]⟩

/-- An entry that is found has a record at its place or below. -/
theorem Canonical.reaches_of_find? (canonical : folder.Canonical) {name : String}
    {entry : Entry} (found : Entry.find? name folder.entries = some entry) :
    folder.Reaches [name] := by
  cases entry with
  | file label => exact (reaches_cons_of_file found []).2 rfl
  | folder inner =>
    obtain ⟨names, recorded⟩ := canonical.exists_records_of_find? found
    exact (reaches_cons_of_folder found []).2 ⟨names, recorded⟩

/-! ## Creating a file -/

/-- A folder keeps its label when a file is recorded in it. -/
@[simp] theorem create_label (folder : Folder) (names : List String) :
    (folder.create names).1.label = folder.label := by
  fun_cases create folder names <;> rfl

/-- A folder in which a file was recorded is not empty. -/
theorem create_entries_ne_nil (folder : Folder) {names : List String} (some : names ≠ []) :
    (folder.create names).1.entries ≠ [] := by
  fun_cases create folder names with
  | case1 => exact absurd rfl some
  | case2 name entry found =>
    intro none
    rw [none] at found
    cases found
  | case3 => exact Entry.insert_ne_nil _ _
  | case4 => exact Entry.insert_ne_nil _ _
  | case5 => exact Entry.insert_ne_nil _ _

/-- A canonical folder stays so when a file is recorded in it. -/
theorem Canonical.create (canonical : folder.Canonical) (names : List String) :
    (folder.create names).1.Canonical := by
  fun_induction Folder.create folder names with
  | case1 => exact canonical
  | case2 => exact canonical
  | case3 folder name missing =>
    exact canonical.insert _ rfl (by rintro _ ⟨⟩)
  | case4 folder name rest more inner found inner' changed isCreated ih =>
    obtain rfl : (inner.create rest).1 = inner' := by rw [isCreated]
    refine canonical.insert _ ?_ ?_
    · simp only [Entry.label, Entry.name, create_label, canonical.label_of_folder found]
      rfl
    · rintro _ ⟨⟩
      exact ⟨create_entries_ne_nil inner more, ih (canonical.of_find? found)⟩
  | case5 folder name rest more inner' changed isCreated _ ih =>
    obtain rfl : ((empty folder.label name).create rest).1 = inner' := by rw [isCreated]
    refine canonical.insert _ ?_ ?_
    · simp only [Entry.label, Entry.name, create_label]
      rfl
    · rintro _ ⟨⟩
      exact ⟨create_entries_ne_nil _ more, ih (Canonical.of_nil _)⟩

/-- An empty folder records nothing. -/
theorem not_records_empty (parent : Label) (name : String) (names : List String) :
    ¬ (empty parent name).Records names := by
  cases names with
  | nil => exact Entry.not_records_nil _
  | cons => exact Entry.records_cons_of_none rfl _

/-- In an empty folder nothing is reached. -/
theorem not_reaches_empty (parent : Label) (name : String) (names : List String) :
    ¬ (empty parent name).Reaches names :=
  fun ⟨_, recorded⟩ => not_records_empty parent name _ recorded

/-- What `records_create` says of a folder in which an entry was inserted follows
from what it says of that entry. -/
theorem records_insert {entry : Entry} {name : String} (isNamed : entry.name = name)
    {rest : List String}
    (here : ∀ others, Entry.Records (Entry.insert entry folder.entries) (name :: others) ↔
      folder.Records (name :: others) ∧ (others <+: rest → others = rest) ∨
        others = rest ∧ ¬ folder.Reaches (name :: rest)) (other : List String) :
    Entry.Records (Entry.insert entry folder.entries) other ↔
      folder.Records other ∧ (other <+: name :: rest → other = name :: rest) ∨
        other = name :: rest ∧ ¬ folder.Reaches (name :: rest) := by
  match other with
  | [] => simp [Folder.Records]
  | first :: others =>
    by_cases same : first = name
    · subst same
      simpa only [List.cons_prefix_cons, List.cons.injEq, true_and] using here others
    · have different : entry.name ≠ first := fun isFirst => same (isFirst.symm.trans isNamed)
      have elsewhere :=
        Entry.records_congr (Entry.find?_insert_of_ne different folder.entries) others
      simp only [Folder.Records, elsewhere, List.cons_prefix_cons, List.cons.injEq, same,
        false_and, false_imp_iff, and_true, or_false]

/-- After a file was created, a folder records the file, unless it recorded
something at its place or below, and all other files but those in its way. -/
theorem records_create (canonical : folder.Canonical) {names : List String} (some : names ≠ [])
    (other : List String) :
    (folder.create names).1.Records other ↔
      folder.Records other ∧ (other <+: names → other = names) ∨
        other = names ∧ ¬ folder.Reaches names := by
  fun_induction Folder.create folder names generalizing other with
  | case1 => exact absurd rfl some
  | case2 folder name entry found =>
    have reached := canonical.reaches_of_find? found
    constructor
    · intro recorded
      refine .inl ⟨recorded, fun before => ?_⟩
      cases other with
      | nil => exact absurd recorded (Entry.not_records_nil _)
      | cons first others =>
        obtain ⟨rfl, none⟩ := List.cons_prefix_cons.1 before
        rw [List.prefix_nil.1 none]
    · rintro (⟨recorded, _⟩ | ⟨_, missed⟩)
      · exact recorded
      · exact absurd reached missed
  | case3 folder name missing =>
    have isNamed : (Entry.file (folder.label.child name)).name = name := rfl
    refine records_insert isNamed (fun others => ?_) other
    have unrecorded : ¬ folder.Records (name :: others) := Entry.records_cons_of_none missing _
    have found : Entry.find? name
        (Entry.insert (.file (folder.label.child name)) folder.entries) = _ :=
      Entry.find?_insert_self (.file (folder.label.child name)) folder.entries
    have recorded := Entry.records_cons_of_file found others
    simp only [recorded, unrecorded, reaches_cons_of_none missing [], false_and, false_or,
      not_false_eq_true, and_true]
  | case4 folder name rest more inner found inner' changed isCreated ih =>
    obtain rfl : (inner.create rest).1 = inner' := by rw [isCreated]
    have isNamed : (Entry.folder (inner.create rest).1).name = name := by
      rw [Entry.name, Entry.label, create_label, canonical.label_of_folder found]
      rfl
    refine records_insert isNamed (fun others => ?_) other
    have inside := ih (canonical.of_find? found) more others
    have newFound := Entry.find?_insert_self (.folder (inner.create rest).1) folder.entries
    rw [isNamed] at newFound
    rw [Entry.records_cons_of_folder newFound, reaches_cons_of_folder found, inside, Records,
      Records, Entry.records_cons_of_folder found, Records]
  | case5 folder name rest more inner' changed isCreated noFolder ih =>
    obtain rfl : ((empty folder.label name).create rest).1 = inner' := by rw [isCreated]
    have isNamed : (Entry.folder ((empty folder.label name).create rest).1).name = name := by
      rw [Entry.name, Entry.label, create_label]
      rfl
    refine records_insert isNamed (fun others => ?_) other
    have inside := ih (Canonical.of_nil _) more others
    have newFound := Entry.find?_insert_self
      (.folder ((empty folder.label name).create rest).1) folder.entries
    rw [isNamed] at newFound
    -- Under the name stands nothing or a file, and the file gives way.
    have unreached : ¬ folder.Reaches (name :: rest) :=
      fun reached => more (eq_nil_of_reaches noFolder reached)
    have given : ¬ (folder.Records (name :: others) ∧ (others <+: rest → others = rest)) := by
      rintro ⟨recorded, kept⟩
      rw [eq_nil_of_reaches noFolder recorded.reaches] at kept
      exact more (kept List.nil_prefix).symm
    rw [Entry.records_cons_of_folder newFound, inside]
    simp only [not_records_empty, not_reaches_empty, given, unreached, false_and, false_or,
      not_false_eq_true, and_true]

/-- Creating a file changes a tree exactly if nothing is recorded at its place or
below. -/
theorem create_changed (canonical : folder.Canonical) {names : List String} (some : names ≠ []) :
    (folder.create names).2 = true ↔ ¬ folder.Reaches names := by
  fun_induction Folder.create folder names with
  | case1 => exact absurd rfl some
  | case2 folder name entry found =>
    simp only [canonical.reaches_of_find? found, Bool.false_eq_true, not_true_eq_false]
  | case3 folder name missing =>
    simp only [reaches_cons_of_none missing [], not_false_eq_true]
  | case4 folder name rest more inner found inner' changed isCreated ih =>
    rw [isCreated] at ih
    rw [reaches_cons_of_folder found]
    exact ih (canonical.of_find? found) more
  | case5 folder name rest more inner' changed isCreated noFolder ih =>
    simp only [true_iff]
    exact fun reached => more (eq_nil_of_reaches noFolder reached)

/-! ## Deleting an entry -/

/-- A folder keeps its label when an entry is removed. -/
@[simp] theorem delete_label (folder : Folder) (names : List String) :
    (folder.delete names).1.label = folder.label := by
  fun_cases delete folder names <;> rfl

/-- A canonical folder stays so when an entry is removed with the folders that it leaves
empty. -/
theorem Canonical.delete (canonical : folder.Canonical) (names : List String) :
    (folder.delete names).1.Canonical := by
  fun_induction Folder.delete folder names with
  | case1 => exact canonical
  | case2 folder name entry found => exact canonical.remove name
  | case3 => exact canonical
  | case4 => exact canonical
  | case5 folder name rest more inner found inner' isDeleted entries ih =>
    obtain rfl : (inner.delete rest).1 = inner' := by rw [isDeleted]
    simp only [entries]
    split
    next => exact canonical.remove name
    next filled =>
      refine canonical.insert _ ?_ ?_
      · simp only [Entry.label, Entry.name, delete_label, canonical.label_of_folder found]
        rfl
      · rintro _ ⟨⟩
        exact ⟨fun none => filled (List.isEmpty_iff.2 none), ih (canonical.of_find? found)⟩
  | case6 => exact canonical

/-- Deleting an entry changes a tree exactly if something is recorded at its
place or below. -/
theorem delete_changed (canonical : folder.Canonical) {names : List String} (some : names ≠ []) :
    (folder.delete names).2 = true ↔ folder.Reaches names := by
  fun_induction Folder.delete folder names with
  | case1 => exact absurd rfl some
  | case2 folder name entry found =>
    simp only [canonical.reaches_of_find? found]
  | case3 folder name missing =>
    simp only [reaches_cons_of_none missing [], Bool.false_eq_true]
  | case4 folder name rest more inner found inner' isDeleted ih =>
    rw [isDeleted] at ih
    rw [reaches_cons_of_folder found]
    exact ih (canonical.of_find? found) more
  | case5 folder name rest more inner found inner' isDeleted entries ih =>
    rw [isDeleted] at ih
    rw [reaches_cons_of_folder found]
    exact ih (canonical.of_find? found) more
  | case6 folder name rest more noFolder =>
    simp only [Bool.false_eq_true, false_iff]
    exact fun reached => more (eq_nil_of_reaches noFolder reached)

/-- A removal that reports no change makes none. -/
theorem delete_eq_self {names : List String} (unchanged : (folder.delete names).2 = false) :
    (folder.delete names).1 = folder := by
  revert unchanged
  fun_cases Folder.delete folder names with
  | case1 => exact fun _ => rfl
  | case2 => exact nofun
  | case3 => exact fun _ => rfl
  | case4 => exact fun _ => rfl
  | case5 => exact nofun
  | case6 => exact fun _ => rfl

/-- What `records_delete` says of a folder follows from what it says of the entry
on the way. -/
theorem records_delete_cons {entries : List Entry} {name : String} {rest : List String}
    (here : ∀ others, Entry.Records entries (name :: others) ↔
      folder.Records (name :: others) ∧ ¬ rest <+: others)
    (elsewhere : ∀ first, name ≠ first →
      Entry.find? first entries = Entry.find? first folder.entries) (other : List String) :
    Entry.Records entries other ↔ folder.Records other ∧ ¬ name :: rest <+: other := by
  match other with
  | [] => simp [Folder.Records]
  | first :: others =>
    by_cases same : name = first
    · subst same
      simpa only [List.cons_prefix_cons, true_and] using here others
    · simp only [Folder.Records, Entry.records_congr (elsewhere first same) others,
        List.cons_prefix_cons, same, false_and, not_false_eq_true, and_true]

/-- After an entry was deleted, a folder records all other files but those at its
place or below. -/
theorem records_delete (canonical : folder.Canonical) {names : List String} (some : names ≠ [])
    (other : List String) :
    (folder.delete names).1.Records other ↔ folder.Records other ∧ ¬ names <+: other := by
  cases changed : (folder.delete names).2 with
  | false =>
    rw [delete_eq_self changed]
    have unreached : ¬ folder.Reaches names := by
      rw [← delete_changed canonical some, changed]
      exact Bool.false_ne_true
    constructor
    · intro recorded
      refine ⟨recorded, ?_⟩
      rintro ⟨rest, rfl⟩
      exact unreached ⟨rest, recorded⟩
    · exact And.left
  | true =>
    fun_induction Folder.delete folder names generalizing other with
    | case1 => exact absurd rfl some
    | case2 folder name entry found =>
      refine records_delete_cons (fun others => ?_)
        (fun first different => Entry.find?_remove_of_ne different _) other
      have gone := Entry.records_cons_of_none (canonical.sorted.find?_remove_self name) others
      simp only [gone, List.nil_prefix, not_true_eq_false, and_false]
    | case3 => cases changed
    | case4 => cases changed
    | case5 folder name rest more inner found inner' isDeleted entries ih =>
      obtain rfl : (inner.delete rest).1 = inner' := by rw [isDeleted]
      have inside := fun others => ih (canonical.of_find? found) more others (by rw [isDeleted])
      have isNamed : (Entry.folder (inner.delete rest).1).name = name := by
        rw [Entry.name, Entry.label, delete_label, canonical.label_of_folder found]
        rfl
      simp only [entries]
      split
      next isEmpty =>
        refine records_delete_cons (fun others => ?_)
          (fun first different => Entry.find?_remove_of_ne different _) other
        have gone := Entry.records_cons_of_none (canonical.sorted.find?_remove_self name) others
        have nothing : ¬ (inner.delete rest).1.Records others := by
          rw [Records, List.isEmpty_iff.1 isEmpty]
          exact not_records_empty folder.label name others
        rw [inside] at nothing
        simpa only [Records, Entry.records_cons_of_folder found, gone, false_iff] using nothing
      next =>
        refine records_delete_cons (fun others => ?_)
          (fun first different => Entry.find?_insert_of_ne (isNamed ▸ different) _) other
        have newFound := Entry.find?_insert_self (.folder (inner.delete rest).1) folder.entries
        rw [isNamed] at newFound
        rw [Entry.records_cons_of_folder newFound, inside, Records, Records,
          Entry.records_cons_of_folder found, Records]
    | case6 => cases changed

/-! ## The flags -/

/-- Creating a file tells truly whether the tree has changed. -/
theorem create_changed_iff_ne (canonical : folder.Canonical) {names : List String}
    (some : names ≠ []) : (folder.create names).2 = true ↔ (folder.create names).1 ≠ folder := by
  rw [create_changed canonical some]
  constructor
  · intro unreached same
    have recorded : (folder.create names).1.Records names :=
      (records_create canonical some names).2 (.inr ⟨rfl, unreached⟩)
    rw [same] at recorded
    exact unreached recorded.reaches
  · intro different reached
    refine different ((canonical.create names).ext canonical (create_label folder names) ?_)
    intro other
    rw [records_create canonical some]
    constructor
    · rintro (⟨recorded, _⟩ | ⟨_, unreached⟩)
      · exact recorded
      · exact absurd reached unreached
    · intro recorded
      -- A file in the way would stand above what is recorded at the place or below.
      refine .inl ⟨recorded, ?_⟩
      rintro ⟨rest, rfl⟩
      obtain ⟨more, recordedBelow⟩ := reached
      rw [List.append_assoc] at recordedBelow
      have none := Entry.Records.eq_nil_of_append recorded recordedBelow
      rw [(List.append_eq_nil_iff.1 none).1, List.append_nil]

/-- Deleting an entry tells truly whether the tree has changed. -/
theorem delete_changed_iff_ne (canonical : folder.Canonical) {names : List String}
    (some : names ≠ []) : (folder.delete names).2 = true ↔ (folder.delete names).1 ≠ folder := by
  constructor
  · intro changed same
    obtain ⟨rest, recorded⟩ := (delete_changed canonical some).1 changed
    rw [← same] at recorded
    exact ((records_delete canonical some _).1 recorded).2 (List.prefix_append names rest)
  · intro different
    cases changed : (folder.delete names).2 with
    | true => rfl
    | false => exact absurd (delete_eq_self changed) different

end Folder

end RouteAtlas
