import RouteAtlas.FileTree.Basic
import RouteAtlas.Proofs.Path

/-!
# What a file tree records

A file tree is decided by the files it records. `Folder.Records` tells whether a
folder records a file at the end of some names, and `Folder.Canonical` says that
the tree has no choice beyond that: entries stand in order, every label follows
from the name, and no folder below the top is empty. Canonical folders with the
same label that record the same files are equal (`Folder.Canonical.ext`).

The records of any tree are free of prefixes: no file is recorded below another
one (`Entry.Records.eq_nil_of_append`). The files that a canonical tree lists are
those that it records (`Folder.Canonical.mem_paths_iff`).
-/

set_option autoImplicit false

namespace RouteAtlas

/-! ## Entries as a map -/

/-- The entries stand in increasing order of their names, each name once. -/
def Entry.Sorted (entries : List Entry) : Prop :=
  entries.Pairwise fun entry later => entry.name < later.name

instance (entries : List Entry) : Decidable (Entry.Sorted entries) :=
  inferInstanceAs (Decidable (entries.Pairwise fun entry later => entry.name < later.name))

/-- An entry that is found is there, and has the name. -/
theorem Entry.mem_of_find?_eq_some {name : String} {entries : List Entry} {entry : Entry}
    (found : Entry.find? name entries = some entry) : entry ∈ entries ∧ entry.name = name := by
  induction entries with
  | nil => cases found
  | cons first rest ih =>
    rw [Entry.find?] at found
    split at found
    next isFirst =>
      cases found
      exact ⟨List.mem_cons_self, isFirst⟩
    next => exact ⟨List.mem_cons_of_mem _ (ih found).1, (ih found).2⟩

/-- Sorted entries are found by their names. -/
theorem Entry.Sorted.find?_name {entries : List Entry} (sorted : Entry.Sorted entries)
    {entry : Entry} (member : entry ∈ entries) :
    Entry.find? entry.name entries = some entry := by
  induction entries with
  | nil => cases member
  | cons first rest ih =>
    obtain ⟨least, sortedRest⟩ := List.pairwise_cons.1 sorted
    rw [Entry.find?]
    rcases List.mem_cons.1 member with rfl | later
    · rw [if_pos rfl]
    · have other : first.name ≠ entry.name := by
        intro same
        have less := least entry later
        rw [same] at less
        exact String.lt_irrefl _ less
      rw [if_neg other]
      exact ih sortedRest later

/-- Sorted entries are there once. -/
theorem Entry.Sorted.nodup {entries : List Entry} (sorted : Entry.Sorted entries) :
    entries.Nodup :=
  sorted.imp fun less same => by
    subst same
    exact String.lt_irrefl _ less

/-- Entries in order are decided by what is found under each name. -/
theorem Entry.Sorted.ext {entries others : List Entry} (sorted : Entry.Sorted entries)
    (sortedOthers : Entry.Sorted others)
    (same : ∀ name, Entry.find? name entries = Entry.find? name others) : entries = others := by
  have members : ∀ entry, entry ∈ entries ↔ entry ∈ others := by
    intro entry
    constructor
    · intro member
      have found := sorted.find?_name member
      rw [same] at found
      exact (Entry.mem_of_find?_eq_some found).1
    · intro member
      have found := sortedOthers.find?_name member
      rw [← same] at found
      exact (Entry.mem_of_find?_eq_some found).1
  have asymm : ∀ a b : Entry, a ∈ entries → b ∈ others → a.name < b.name → b.name < a.name →
      a = b := fun _ _ _ _ less more => absurd more (String.lt_asymm less)
  exact List.Perm.eq_of_pairwise asymm sorted sortedOthers
    ((List.perm_ext_iff_of_nodup sorted.nodup sortedOthers.nodup).2 members)

/-! ## Records -/

/-- Whether some entries record a file at the end of the given names. -/
def Entry.Records : List Entry → List String → Prop
  | _, [] => False
  | entries, name :: rest =>
    match Entry.find? name entries with
    | none => False
    | some (.file _) => rest = []
    | some (.folder inner) => Entry.Records inner.entries rest

/-- Whether a folder records a file at the end of the given names. -/
def Folder.Records (folder : Folder) (names : List String) : Prop :=
  Entry.Records folder.entries names

/-- A file is recorded under one name at least. -/
@[simp] theorem Entry.not_records_nil (entries : List Entry) : ¬ Entry.Records entries [] := id

/-- Where a name finds nothing, nothing is recorded below it. -/
theorem Entry.records_cons_of_none {name : String} {entries : List Entry}
    (found : Entry.find? name entries = none) (rest : List String) :
    ¬ Entry.Records entries (name :: rest) := by
  rw [Entry.Records, found]
  exact id

/-- A file is recorded under its name, and nothing below it. -/
theorem Entry.records_cons_of_file {name : String} {entries : List Entry} {label : Label}
    (found : Entry.find? name entries = some (.file label)) (rest : List String) :
    Entry.Records entries (name :: rest) ↔ rest = [] := by
  rw [Entry.Records, found]

/-- What is recorded below a folder's name is recorded in the folder. -/
theorem Entry.records_cons_of_folder {name : String} {entries : List Entry} {inner : Folder}
    (found : Entry.find? name entries = some (.folder inner)) (rest : List String) :
    Entry.Records entries (name :: rest) ↔ inner.Records rest := by
  rw [Entry.Records, found, Folder.Records]

/-- A single name records a file if it finds one. -/
theorem Entry.records_singleton_iff {name : String} {entries : List Entry} :
    Entry.Records entries [name] ↔ ∃ label, Entry.find? name entries = some (.file label) := by
  constructor
  · intro recorded
    cases found : Entry.find? name entries with
    | none => exact absurd recorded (Entry.records_cons_of_none found [])
    | some entry =>
      cases entry with
      | file label => exact ⟨label, rfl⟩
      | folder inner =>
        exact absurd ((Entry.records_cons_of_folder found []).1 recorded)
          (Entry.not_records_nil _)
  · rintro ⟨label, found⟩
    exact (Entry.records_cons_of_file found []).2 rfl

/-- What is recorded below a name depends only on what the name finds. -/
theorem Entry.records_congr {name : String} {entries others : List Entry}
    (same : Entry.find? name entries = Entry.find? name others) (rest : List String) :
    Entry.Records entries (name :: rest) ↔ Entry.Records others (name :: rest) := by
  rw [Entry.Records, Entry.Records, same]

/-- No file is recorded below another one. -/
theorem Entry.Records.eq_nil_of_append {entries : List Entry} {names rest : List String}
    (recorded : Entry.Records entries names) (longer : Entry.Records entries (names ++ rest)) :
    rest = [] := by
  induction names generalizing entries with
  | nil => exact absurd recorded (Entry.not_records_nil entries)
  | cons name names ih =>
    rw [List.cons_append] at longer
    cases found : Entry.find? name entries with
    | none => exact absurd recorded (Entry.records_cons_of_none found _)
    | some entry =>
      cases entry with
      | file label =>
        have last := (Entry.records_cons_of_file found _).1 longer
        exact (List.append_eq_nil_iff.1 last).2
      | folder inner =>
        exact ih ((Entry.records_cons_of_folder found _).1 recorded)
          ((Entry.records_cons_of_folder found _).1 longer)

/-! ## Canonical trees -/

/-- A folder as a scan builds it: its entries are in order, have the labels that
their names give them, and no folder among them is empty; and so on below. -/
inductive Folder.Canonical : Folder → Prop
  | intro (label : Label) (entries : List Entry) (sorted : Entry.Sorted entries)
      (labelled : ∀ entry ∈ entries, entry.label = label.child entry.name)
      (filled : ∀ inner, Entry.folder inner ∈ entries → inner.entries ≠ [])
      (inside : ∀ inner, Entry.folder inner ∈ entries → inner.Canonical) :
      Folder.Canonical ⟨label, entries⟩

namespace Folder.Canonical

variable {folder : Folder}

/-- The entries of a canonical folder are sorted. -/
theorem sorted (canonical : folder.Canonical) : Entry.Sorted folder.entries := by
  cases canonical
  assumption

/-- The entries of a canonical folder have their labels from the folder. -/
theorem labelled (canonical : folder.Canonical) :
    ∀ entry ∈ folder.entries, entry.label = folder.label.child entry.name := by
  cases canonical
  assumption

/-- The folders in a canonical folder are not empty. -/
theorem filled (canonical : folder.Canonical) :
    ∀ inner, Entry.folder inner ∈ folder.entries → inner.entries ≠ [] := by
  cases canonical
  assumption

/-- The folders in a canonical folder are canonical. -/
theorem inside (canonical : folder.Canonical) :
    ∀ inner, Entry.folder inner ∈ folder.entries → inner.Canonical := by
  cases canonical
  assumption

/-- A canonical folder that is not empty records a file. -/
theorem exists_records (canonical : folder.Canonical) (filled : folder.entries ≠ []) :
    ∃ names, folder.Records names := by
  induction canonical with
  | intro label entries sorted _ filledBelow _ ih =>
    obtain ⟨entry, member⟩ := List.exists_mem_of_ne_nil _ filled
    have found := sorted.find?_name member
    cases entry with
    | file inner => exact ⟨[inner.name], (Entry.records_cons_of_file found []).2 rfl⟩
    | folder inner =>
      obtain ⟨names, recorded⟩ := ih inner member (filledBelow inner member)
      exact ⟨_ :: names, (Entry.records_cons_of_folder found names).2 recorded⟩

/-- A file that is found in a canonical folder has its label from the folder. -/
theorem label_of_file (canonical : folder.Canonical) {name : String} {label : Label}
    (found : Entry.find? name folder.entries = some (.file label)) :
    label = folder.label.child name := by
  obtain ⟨member, rfl⟩ := Entry.mem_of_find?_eq_some found
  exact canonical.labelled _ member

/-- A folder that is found in a canonical folder has its label from it. -/
theorem label_of_folder (canonical : folder.Canonical) {name : String} {inner : Folder}
    (found : Entry.find? name folder.entries = some (.folder inner)) :
    inner.label = folder.label.child name := by
  obtain ⟨member, rfl⟩ := Entry.mem_of_find?_eq_some found
  exact canonical.labelled _ member

/-- A folder that is found in a canonical folder is canonical. -/
theorem of_find? (canonical : folder.Canonical) {name : String} {inner : Folder}
    (found : Entry.find? name folder.entries = some (.folder inner)) : inner.Canonical :=
  canonical.inside inner (Entry.mem_of_find?_eq_some found).1

/-- A folder that is found in a canonical folder records a file. -/
theorem exists_records_of_find? (canonical : folder.Canonical) {name : String} {inner : Folder}
    (found : Entry.find? name folder.entries = some (.folder inner)) :
    ∃ names, inner.Records names :=
  (canonical.of_find? found).exists_records
    (canonical.filled inner (Entry.mem_of_find?_eq_some found).1)

/-- A folder is found under a name exactly if something is recorded below the
name. -/
theorem exists_records_below_iff (canonical : folder.Canonical) {name : String} :
    (∃ names, names ≠ [] ∧ folder.Records (name :: names)) ↔
      ∃ inner, Entry.find? name folder.entries = some (.folder inner) := by
  constructor
  · rintro ⟨names, more, recorded⟩
    cases found : Entry.find? name folder.entries with
    | none => exact absurd recorded (Entry.records_cons_of_none found names)
    | some entry =>
      cases entry with
      | file label => exact absurd ((Entry.records_cons_of_file found names).1 recorded) more
      | folder inner => exact ⟨inner, rfl⟩
  · rintro ⟨inner, found⟩
    obtain ⟨names, recorded⟩ := canonical.exists_records_of_find? found
    refine ⟨names, ?_, (Entry.records_cons_of_folder found names).2 recorded⟩
    rintro rfl
    exact Entry.not_records_nil _ recorded

/-- Canonical folders with the same label that record the same files are
equal. -/
theorem ext (canonical : folder.Canonical) {other : Folder} (canonicalOther : other.Canonical)
    (labels : folder.label = other.label)
    (same : ∀ names, folder.Records names ↔ other.Records names) : folder = other := by
  induction canonical generalizing other with
  | intro label entries sorted labelled filled inside ih =>
    have canonical := Folder.Canonical.intro label entries sorted labelled filled inside
    obtain ⟨otherLabel, others⟩ := other
    obtain rfl : label = otherLabel := labels
    have sameFile : ∀ name, (∃ inner, Entry.find? name entries = some (.file inner)) ↔
        ∃ inner, Entry.find? name others = some (.file inner) := fun name => by
      rw [← Entry.records_singleton_iff, ← Entry.records_singleton_iff]
      exact same [name]
    have sameFolder : ∀ name, (∃ inner, Entry.find? name entries = some (.folder inner)) ↔
        ∃ inner, Entry.find? name others = some (.folder inner) := fun name => by
      rw [← canonical.exists_records_below_iff, ← canonicalOther.exists_records_below_iff]
      exact exists_congr fun names => and_congr_right fun _ => same (name :: names)
    congr 1
    refine sorted.ext canonicalOther.sorted fun name => ?_
    rcases found : Entry.find? name entries with _ | (inner | inner)
    · rcases foundOther : Entry.find? name others with _ | (inner | inner)
      · rfl
      · obtain ⟨_, isFile⟩ := (sameFile name).2 ⟨inner, foundOther⟩
        rw [found] at isFile
        cases isFile
      · obtain ⟨_, isFolder⟩ := (sameFolder name).2 ⟨inner, foundOther⟩
        rw [found] at isFolder
        cases isFolder
    · obtain ⟨label', foundOther⟩ := (sameFile name).1 ⟨inner, found⟩
      rw [foundOther, canonical.label_of_file found, canonicalOther.label_of_file foundOther]
    · obtain ⟨innerOther, foundOther⟩ := (sameFolder name).1 ⟨inner, found⟩
      have sameLabels : inner.label = innerOther.label := by
        rw [canonical.label_of_folder found, canonicalOther.label_of_folder foundOther]
      have sameBelow : ∀ names, inner.Records names ↔ innerOther.Records names := by
        intro names
        rw [← Entry.records_cons_of_folder found, ← Entry.records_cons_of_folder foundOther]
        exact same (name :: names)
      rw [foundOther, ih inner (Entry.mem_of_find?_eq_some found).1
        (canonicalOther.of_find? foundOther) sameLabels sameBelow]

end Folder.Canonical

/-! ## Files -/

/-- The files below some entries are those that are there and those in the folders. -/
theorem Entry.mem_files_iff {label : Label} {entries : List Entry} :
    label ∈ Entry.files entries ↔ Entry.file label ∈ entries ∨
      ∃ inner, Entry.folder inner ∈ entries ∧ label ∈ inner.files := by
  induction entries with
  | nil => simp [Entry.files]
  | cons entry rest ih =>
    cases entry with
    | file first => simp [Entry.files, ih, or_assoc]
    | folder inner => simp [Entry.files, ih, or_and_right, exists_or, or_left_comm]

/-- A canonical folder lists the files that it records, each with the path of its
names. -/
theorem Folder.Canonical.mem_paths_iff {folder : Folder} (canonical : folder.Canonical)
    {path : Path} :
    path ∈ folder.files.map (·.path) ↔
      ∃ names, folder.Records names ∧ path = folder.label.path.descendant names := by
  induction canonical generalizing path with
  | intro label entries sorted labelled filled inside ih =>
    have canonical := Folder.Canonical.intro label entries sorted labelled filled inside
    rw [List.mem_map]
    simp only [Folder.files, Entry.mem_files_iff]
    constructor
    · rintro ⟨file, here | ⟨inner, isInner, below⟩, rfl⟩
      · have found := sorted.find?_name here
        refine ⟨[_], (Entry.records_cons_of_file found []).2 rfl, ?_⟩
        rw [canonical.label_of_file found]
        rfl
      · have found := sorted.find?_name isInner
        obtain ⟨names, recorded, isPath⟩ := (ih inner isInner).1 (List.mem_map_of_mem below)
        refine ⟨_ :: names, (Entry.records_cons_of_folder found names).2 recorded, ?_⟩
        rw [isPath, canonical.label_of_folder found]
        rfl
    · rintro ⟨names, recorded, rfl⟩
      cases names with
      | nil => exact absurd recorded (Entry.not_records_nil entries)
      | cons name rest =>
        cases found : Entry.find? name entries with
        | none => exact absurd recorded (Entry.records_cons_of_none found rest)
        | some entry =>
          have member := (Entry.mem_of_find?_eq_some found).1
          cases entry with
          | file inner =>
            obtain rfl := (Entry.records_cons_of_file found rest).1 recorded
            refine ⟨inner, .inl member, ?_⟩
            rw [canonical.label_of_file found]
            rfl
          | folder inner =>
            have recordedBelow := (Entry.records_cons_of_folder found rest).1 recorded
            have listed := (ih inner member).2 ⟨rest, recordedBelow, rfl⟩
            obtain ⟨file, isFile, isPath⟩ := List.mem_map.1 listed
            refine ⟨file, .inr ⟨inner, member, isFile⟩, ?_⟩
            rw [isPath, canonical.label_of_folder found]
            rfl

end RouteAtlas
