import Mathlib.Data.List.Nodup
import RouteAtlas.Proofs.FileTree.Records

/-!
# Names and ids of the files in a tree

The files of a tree are told apart by the names that lead to them.
`Folder.fileNames` lists these names in the order of `Folder.files`, and a label
that is made from that of the parent step by step is made from the names alone
(`Folder.Derived.map_files`).

In a named folder the entries of every folder stand in order under names that can
be joined with slashes. The lists of names then increase in lexicographic order
(`Folder.Named.pairwise_fileNames`), and the id of a file decides the names that
lead to it (`idBelow_injective`), so that no two files have the same id
(`Folder.Named.nodup_ids`).
-/

set_option autoImplicit false

namespace RouteAtlas

/-! ## Names -/

mutual

/-- The names that lead to the files among some entries and below them, in
order. -/
def Entry.fileNames : List Entry → List (List String)
  | [] => []
  | .file label :: rest => [label.name] :: Entry.fileNames rest
  | .folder inner :: rest =>
    inner.fileNames.map (inner.label.name :: ·) ++ Entry.fileNames rest
  termination_by structural entries => entries

/-- The names that lead to the files below a folder, in order. -/
def Folder.fileNames : Folder → List (List String)
  | ⟨_, entries⟩ => Entry.fileNames entries
  termination_by structural folder => folder

end

/-- The files among some entries are the files that are there and those in the folders. -/
theorem Entry.mem_fileNames_iff {names : List String} {entries : List Entry} :
    names ∈ Entry.fileNames entries ↔
      (∃ label, Entry.file label ∈ entries ∧ names = [label.name]) ∨
        ∃ inner rest, Entry.folder inner ∈ entries ∧ rest ∈ inner.fileNames ∧
          names = inner.label.name :: rest := by
  induction entries with
  | nil => simp [Entry.fileNames]
  | cons entry entries ih =>
    cases entry with
    | file label => simp [Entry.fileNames, ih, or_and_right, exists_or, or_assoc]
    | folder inner =>
      simp only [Entry.fileNames, List.mem_append, List.mem_map, ih, List.mem_cons, reduceCtorEq,
        false_or, Entry.folder.injEq, or_and_right, exists_or]
      rw [or_left_comm]
      refine or_congr_right (or_congr_left ?_)
      constructor
      · rintro ⟨rest, member, rfl⟩
        exact ⟨inner, rest, rfl, member, rfl⟩
      · rintro ⟨_, rest, rfl, member, rfl⟩
        exact ⟨rest, member, rfl⟩

/-! ## Labels made from names -/

/-- What `view` shows of the labels is made, step by step, from what it shows of the
label of the folder. -/
inductive Folder.Derived {α : Type} (view : Label → α) (step : α → String → α) : Folder → Prop
  | intro (label : Label) (entries : List Entry)
      (here : ∀ entry ∈ entries, view entry.label = step (view label) entry.name)
      (inside : ∀ inner, Entry.folder inner ∈ entries → inner.Derived view step) :
      Folder.Derived view step ⟨label, entries⟩

/-- What is shown of the files is made from the names that lead to them. -/
theorem Folder.Derived.map_files {α : Type} {view : Label → α} {step : α → String → α}
    {folder : Folder} (derived : folder.Derived view step) :
    folder.files.map view =
      folder.fileNames.map fun names => names.foldl step (view folder.label) := by
  induction derived with
  | intro label entries here inside ih =>
    clear inside
    simp only [Folder.files, Folder.fileNames]
    -- The entries are taken one by one; the label that they are derived from stays.
    induction entries with
    | nil => rfl
    | cons entry rest ihRest =>
      have others := ihRest (fun other member => here other (List.mem_cons_of_mem _ member))
        (fun inner member => ih inner (List.mem_cons_of_mem _ member))
      have first := here entry List.mem_cons_self
      cases entry with
      | file label' =>
        simp only [Entry.files, Entry.fileNames, List.map_cons, others, List.foldl_cons,
          List.foldl_nil]
        exact congrArg (· :: _) first
      | folder inner =>
        have below := ih inner List.mem_cons_self
        simp only [Entry.label, Entry.name] at first
        simp only [Entry.files, Entry.fileNames, List.map_append, others, below, List.map_map,
          first]
        rfl

/-- The label of a folder's descendant that is reached by the given names. -/
def Label.descendant (label : Label) (names : List String) : Label := names.foldl Label.child label

/-- The path of a descendant's label is spelled behind the path of the label. -/
theorem Label.path_descendant (label : Label) (names : List String) :
    (label.descendant names).path = label.path.descendant names := by
  induction names generalizing label with
  | nil => rfl
  | cons name rest ih => exact ih (label.child name)

/-- The labels of a canonical tree come from that of the root. -/
theorem Folder.Canonical.derived {folder : Folder} (canonical : folder.Canonical) :
    folder.Derived id Label.child := by
  induction canonical with
  | intro label entries _ labelled _ _ ih => exact .intro label entries labelled ih

/-- A canonical folder gives its files the labels of the names that lead to them. -/
theorem Folder.Canonical.files_eq {folder : Folder} (canonical : folder.Canonical) :
    folder.files = folder.fileNames.map folder.label.descendant := by
  have labels := canonical.derived.map_files
  rwa [List.map_id] at labels

/-! ## Ids -/

/-- A name that an entry can have: one that is left whole when ids are joined. -/
structure IsEntryName (name : String) : Prop where
  nonempty : name ≠ ""
  plain : '/' ∉ name.toList

instance (name : String) : Decidable (IsEntryName name) :=
  decidable_of_iff (name ≠ "" ∧ '/' ∉ name.toList)
    ⟨fun ⟨nonempty, plain⟩ => ⟨nonempty, plain⟩,
      fun isEntryName => ⟨isEntryName.nonempty, isEntryName.plain⟩⟩

/-- What can be a name in a path can be a name in a tree. -/
theorem IsName.isEntryName {name : String} (isName : IsName name) : IsEntryName name :=
  ⟨isName.nonempty, isName.plain⟩

/-- The id of a child is not empty. -/
theorem childId_ne_empty {id name : String} (isName : IsEntryName name) : childId id name ≠ "" := by
  unfold childId
  split
  · exact isName.nonempty
  · intro empty
    exact isName.nonempty (String.append_eq_empty_iff.1 empty).2

/-- The id of a child has the pieces of its parent's id, and then the name. -/
theorem pieces_childId {id name : String} (isName : IsEntryName name) :
    Path.pieces (childId id name).toList =
      (if id = "" then [] else Path.pieces id.toList) ++ [name.toList] := by
  unfold childId
  by_cases empty : id = ""
  · simp [empty, Path.pieces_of_not_mem isName.plain]
  · have slash : "/".toList = ['/'] := rfl
    rw [if_neg (by simpa using empty), if_neg empty, String.toList_append, String.toList_append,
      slash, List.append_assoc, List.singleton_append, Path.pieces_append_slash,
      Path.pieces_of_not_mem isName.plain]

/-- The id of what is reached by the given names from an entry with a certain id. -/
def idBelow (id : String) (names : List String) : String := names.foldl childId id

/-- An id can be taken apart into the names that it was joined from. -/
theorem pieces_idBelow {id : String} {names : List String} (some : names ≠ [])
    (areNames : ∀ name ∈ names, IsEntryName name) :
    Path.pieces (idBelow id names).toList =
      (if id = "" then [] else Path.pieces id.toList) ++ names.map String.toList := by
  induction names generalizing id with
  | nil => exact absurd rfl some
  | cons name rest ih =>
    have isName := areNames name List.mem_cons_self
    by_cases last : rest = []
    · subst last
      exact pieces_childId isName
    · have later := @ih (childId id name) last
        fun other member => areNames other (List.mem_cons_of_mem _ member)
      rw [if_neg (childId_ne_empty isName), pieces_childId isName] at later
      simpa [idBelow, List.append_assoc] using later

/-- Different names lead to different ids. -/
theorem idBelow_injective {id : String} {names others : List String} (some : names ≠ [])
    (someOthers : others ≠ []) (areNames : ∀ name ∈ names, IsEntryName name)
    (areOthers : ∀ name ∈ others, IsEntryName name)
    (same : idBelow id names = idBelow id others) : names = others := by
  have pieces := congrArg (fun text => Path.pieces text.toList) same
  simp only [pieces_idBelow some areNames, pieces_idBelow someOthers areOthers] at pieces
  exact (List.map_inj_right fun _ _ => String.toList_inj.1).1 (List.append_cancel_left pieces)

/-- Behind an id that is not empty, each name follows a slash. -/
theorem idBelow_eq_intercalate {id : String} (nonempty : id ≠ "") (names : List String) :
    idBelow id names = "/".intercalate (id :: names) := by
  unfold idBelow
  induction names generalizing id with
  | nil => simp
  | cons name rest ih =>
    rw [List.foldl_cons, childId, if_neg (by simpa using nonempty), ih (by simp)]
    cases rest <;> simp [String.append_assoc]

/-- Below a root an id is the names joined with slashes. -/
theorem idBelow_empty {names : List String} (areNames : ∀ name ∈ names, IsEntryName name) :
    idBelow "" names = "/".intercalate names := by
  cases names with
  | nil => simp [idBelow]
  | cons name rest => exact idBelow_eq_intercalate (areNames name List.mem_cons_self).nonempty rest

/-! ## Named folders -/

/-- A folder whose entries stand in order, each under its own name and with the id
that the name gives it; and so on below. -/
inductive Folder.Named : Folder → Prop
  | intro (label : Label) (entries : List Entry) (sorted : Entry.Sorted entries)
      (named : ∀ entry ∈ entries, IsEntryName entry.name)
      (identified : ∀ entry ∈ entries, entry.label.id = childId label.id entry.name)
      (inside : ∀ inner, Entry.folder inner ∈ entries → inner.Named) : Folder.Named ⟨label, entries⟩

namespace Folder.Named

variable {folder : Folder}

/-- The ids of a tree with named entries come from that of the root. -/
theorem derived (named : folder.Named) : folder.Derived (·.id) childId := by
  induction named with
  | intro label entries _ _ identified _ ih => exact .intro label entries identified ih

/-- Behind every file stand names, and at least one. -/
theorem areNames_of_mem (named : folder.Named) {names : List String}
    (member : names ∈ folder.fileNames) : names ≠ [] ∧ ∀ name ∈ names, IsEntryName name := by
  induction named generalizing names with
  | intro label entries _ areNames _ _ ih =>
    simp only [Folder.fileNames] at member
    rcases Entry.mem_fileNames_iff.1 member with
      ⟨label', isFile, rfl⟩ | ⟨inner, rest, isFolder, below, rfl⟩
    · refine ⟨List.cons_ne_nil _ _, ?_⟩
      intro name isName
      rw [List.mem_singleton.1 isName]
      exact areNames _ isFile
    · refine ⟨List.cons_ne_nil _ _, ?_⟩
      intro name isName
      rcases List.mem_cons.1 isName with rfl | later
      · exact areNames _ isFolder
      · exact (ih inner isFolder below).2 name later

/-- The files are listed in the lexicographic order of the names that lead to
them. -/
theorem pairwise_fileNames (named : folder.Named) : folder.fileNames.Pairwise (· < ·) := by
  induction named with
  | intro label entries sorted areNames identified inside ih =>
    clear areNames identified inside
    simp only [Folder.fileNames]
    induction entries with
    | nil => exact List.Pairwise.nil
    | cons entry rest ihRest =>
      obtain ⟨least, sortedRest⟩ := List.pairwise_cons.1 sorted
      have others := ihRest sortedRest fun inner member => ih inner (List.mem_cons_of_mem _ member)
      -- Whatever comes later starts with a greater name.
      have later : ∀ names ∈ Entry.fileNames rest, ∀ own, entry.name :: own < names := by
        intro names member own
        rcases Entry.mem_fileNames_iff.1 member with
          ⟨label', isFile, rfl⟩ | ⟨inner, below, isFolder, -, rfl⟩
        · exact List.cons_lt_cons_iff.2 (.inl (least _ isFile))
        · exact List.cons_lt_cons_iff.2 (.inl (least _ isFolder))
      cases entry with
      | file label' =>
        simp only [Entry.fileNames]
        exact List.pairwise_cons.2 ⟨fun names member => later names member [], others⟩
      | folder inner =>
        simp only [Entry.fileNames]
        refine List.pairwise_append.2 ⟨?_, others, ?_⟩
        · refine (ih inner List.mem_cons_self).map _ fun first second less => ?_
          exact List.cons_lt_cons_iff.2 (.inr ⟨rfl, less⟩)
        · intro names member other memberOther
          obtain ⟨below, -, rfl⟩ := List.mem_map.1 member
          exact later other memberOther below

/-- No file is listed twice. -/
theorem nodup_fileNames (named : folder.Named) : folder.fileNames.Nodup := by
  refine named.pairwise_fileNames.imp ?_
  rintro names _ less rfl
  exact List.lt_irrefl names less

/-- No two files have the same id. -/
theorem nodup_ids (named : folder.Named) : (folder.files.map (·.id)).Nodup := by
  rw [named.derived.map_files]
  refine List.Nodup.map_on ?_ named.nodup_fileNames
  intro names member others memberOthers same
  obtain ⟨some, areNames⟩ := named.areNames_of_mem member
  obtain ⟨someOthers, areOthers⟩ := named.areNames_of_mem memberOthers
  exact idBelow_injective some someOthers areNames areOthers same

/-- The names of the files are those at whose end a file is recorded. -/
theorem mem_fileNames_iff (named : folder.Named) {names : List String} :
    names ∈ folder.fileNames ↔ folder.Records names := by
  induction named generalizing names with
  | intro label entries sorted _ _ _ ih =>
    simp only [Folder.fileNames, Folder.Records]
    constructor
    · intro member
      rcases Entry.mem_fileNames_iff.1 member with
        ⟨label', isFile, rfl⟩ | ⟨inner, rest, isFolder, below, rfl⟩
      · exact (Entry.records_cons_of_file (sorted.find?_name isFile) []).2 rfl
      · exact (Entry.records_cons_of_folder (sorted.find?_name isFolder) rest).2
          ((ih inner isFolder).1 below)
    · intro recorded
      cases names with
      | nil => exact absurd recorded (Entry.not_records_nil entries)
      | cons name rest =>
        cases found : Entry.find? name entries with
        | none => exact absurd recorded (Entry.records_cons_of_none found rest)
        | some entry =>
          obtain ⟨member, rfl⟩ := Entry.mem_of_find?_eq_some found
          cases entry with
          | file label' =>
            obtain rfl := (Entry.records_cons_of_file found rest).1 recorded
            exact Entry.mem_fileNames_iff.2 (.inl ⟨label', member, rfl⟩)
          | folder inner =>
            have below := (Entry.records_cons_of_folder found rest).1 recorded
            exact Entry.mem_fileNames_iff.2
              (.inr ⟨inner, rest, member, (ih inner member).2 below, rfl⟩)

/-- If all ids of files in one folder are among those in another one, so is all that is
recorded. -/
theorem records_of_ids (named : folder.Named) {other : Folder} (namedOther : other.Named)
    (sameId : folder.label.id = other.label.id)
    (listed : ∀ id ∈ folder.files.map (·.id), id ∈ other.files.map (·.id)) {names : List String}
    (recorded : folder.Records names) : other.Records names := by
  rw [named.derived.map_files, namedOther.derived.map_files, sameId] at listed
  have member := named.mem_fileNames_iff.2 recorded
  obtain ⟨found, memberOther, same⟩ := List.mem_map.1 (listed _ (List.mem_map_of_mem member))
  obtain ⟨some, areNames⟩ := named.areNames_of_mem member
  obtain ⟨someFound, areFound⟩ := namedOther.areNames_of_mem memberOther
  rw [← idBelow_injective someFound some areFound areNames same]
  exact namedOther.mem_fileNames_iff.1 memberOther

end Folder.Named

/-! ## Folders -/

mutual

/-- The folders among some entries and below them. -/
def Entry.folders : List Entry → List Folder
  | [] => []
  | .file _ :: rest => Entry.folders rest
  | .folder inner :: rest => inner.folders ++ Entry.folders rest
  termination_by structural entries => entries

/-- A folder and all folders below it. -/
def Folder.folders : Folder → List Folder
  | ⟨label, entries⟩ => ⟨label, entries⟩ :: Entry.folders entries
  termination_by structural folder => folder

end

/-- The folders among some entries are those that are there with the folders in them. -/
theorem Entry.mem_folders_iff {holder : Folder} {entries : List Entry} :
    holder ∈ Entry.folders entries ↔
      ∃ inner, Entry.folder inner ∈ entries ∧ holder ∈ inner.folders := by
  induction entries with
  | nil => simp [Entry.folders]
  | cons entry rest ih =>
    cases entry with
    | file label => simp [Entry.folders, ih]
    | folder inner => simp [Entry.folders, ih, or_and_right, exists_or]

/-- The folders of a canonical folder are itself and those that stand above a
recorded file. -/
theorem Folder.Canonical.mem_labels_folders_iff {folder : Folder} (canonical : folder.Canonical)
    {label : Label} :
    label ∈ folder.folders.map (·.label) ↔ ∃ names, label = folder.label.descendant names ∧
      (names = [] ∨ ∃ rest, rest ≠ [] ∧ folder.Records (names ++ rest)) := by
  induction canonical generalizing label with
  | intro own entries sorted labelled filled inside ih =>
    have canonical := Folder.Canonical.intro own entries sorted labelled filled inside
    simp only [Folder.folders, List.map_cons, List.mem_cons, List.mem_map]
    constructor
    · rintro (rfl | ⟨holder, member, rfl⟩)
      · exact ⟨[], rfl, .inl rfl⟩
      · obtain ⟨inner, isFolder, below⟩ := Entry.mem_folders_iff.1 member
        have found := sorted.find?_name isFolder
        obtain ⟨names, isLabel, above⟩ := (ih inner isFolder).1 (List.mem_map_of_mem below)
        refine ⟨inner.label.name :: names, ?_, .inr ?_⟩
        · rw [isLabel, canonical.label_of_folder found]
          rfl
        · rcases above with rfl | ⟨rest, more, recorded⟩
          · obtain ⟨rest, recorded⟩ := canonical.exists_records_of_find? found
            refine ⟨rest, ?_, (Entry.records_cons_of_folder found rest).2 recorded⟩
            rintro rfl
            exact Entry.not_records_nil _ recorded
          · exact ⟨rest, more, (Entry.records_cons_of_folder found _).2 recorded⟩
    · rintro ⟨names, rfl, above⟩
      cases names with
      | nil => exact .inl rfl
      | cons name names =>
        right
        obtain ⟨rest, more, recorded⟩ := above.resolve_left (List.cons_ne_nil name names)
        have longer : names ++ rest ≠ [] := List.append_ne_nil_of_right_ne_nil names more
        obtain ⟨inner, found⟩ := canonical.exists_records_below_iff.1 ⟨_, longer, recorded⟩
        have member := (Entry.mem_of_find?_eq_some found).1
        have recordedBelow := (Entry.records_cons_of_folder found _).1 recorded
        obtain ⟨holder, isHolder, isLabel⟩ := List.mem_map.1
          ((ih inner member).2 ⟨names, rfl, .inr ⟨rest, more, recordedBelow⟩⟩)
        refine ⟨holder, Entry.mem_folders_iff.2 ⟨inner, member, isHolder⟩, ?_⟩
        rw [isLabel, canonical.label_of_folder found]
        rfl

end RouteAtlas
