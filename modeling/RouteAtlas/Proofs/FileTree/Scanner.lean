import RouteAtlas.FileTree.Scanner
import RouteAtlas.Proofs.FileSystem.Descendants
import RouteAtlas.Proofs.FileTree.Scan
import RouteAtlas.Proofs.Text.Lossy

/-!
# What the scanner does

How many workers scan, and in which order, makes no difference, whatever the listings say
(`Host.scan_workers`): each result is left at the place of its directory.

Where all names are texts, the scanner gives what `FileSystem.scan` tells of the file
system, failures included (`FileSystem.scanWith_eq_scan`). This is by induction on the
levels that are left: they suffice until the path of a directory is too long to be opened.
At each level the listing, once read and sorted, has the names of the directory in
increasing order (`Slot.Lists`). So the first directory whose scan fails is the one on the
way to the first one out of reach; and if none fails, the entries that are put in have the
names that the directory records, in whichever order they are put in.
-/

set_option autoImplicit false

namespace RouteAtlas

variable {patterns : List String}

/-! ## Workers -/

section Workers

variable {α β : Type}

/-- The result at a place is that of the input there, if someone took it. -/
theorem lookup_filterMap_turns (task : α → β) (inputs : List α) (turns : List Nat) (place : Nat) :
    (turns.filterMap fun turn =>
      inputs[turn]?.map fun input => (turn, task input)).lookup place =
      if place ∈ turns then inputs[place]?.map task else none := by
  induction turns with
  | nil => rfl
  | cons turn others ih =>
    by_cases same : place = turn
    · subst same
      cases isInput : inputs[place]? with
      | none => simp [isInput, ih]
      | some input => simp [isInput]
    · have isOther : (place == turn) = false := beq_eq_false_iff_ne.2 same
      cases isInput : inputs[turn]? with
      | none => simp [isInput, ih, same]
      | some input => simp [isInput, ih, same, List.lookup_cons, isOther]

/-- The inputs at all places, in order, are the inputs. -/
theorem filterMap_range_getElem? (task : α → β) (inputs : List α) :
    (List.range inputs.length).filterMap (fun place => inputs[place]?.map task) =
      inputs.map task := by
  induction inputs with
  | nil => rfl
  | cons input rest ih =>
    simpa [List.range_succ_eq_map, List.filterMap_cons, List.filterMap_map] using ih

/-- However many work, each input gives its result, in order. -/
theorem Workers.run_eq_map (workers : Workers) (path : Path) (task : α → β) (inputs : List α) :
    workers.run path task inputs = inputs.map task := by
  rw [run]
  split
  next => rfl
  next =>
    have taken : ∀ place ∈ List.range inputs.length,
        place ∈ workers.turns path inputs.length := fun place isPlace =>
      (workers.perm path inputs.length).mem_iff.2 isPlace
    rw [← filterMap_range_getElem? task inputs]
    refine List.filterMap_congr fun place isPlace => ?_
    rw [lookup_filterMap_turns, if_pos (taken place isPlace)]

/-- How many workers scan a directory and what lies below it makes no difference. -/
theorem Host.scanBelow_workers (host : Host) (workers others : Workers) (patterns : List String)
    (levels : Nat) (label : Label) :
    host.scanBelow workers patterns levels label =
      host.scanBelow others patterns levels label := by
  induction levels generalizing label with
  | zero => rfl
  | succ levels ih => simp only [scanBelow, Workers.run_eq_map, ih]

/-- How many workers scan makes no difference. -/
theorem Host.scan_workers (host : Host) (workers others : Workers) (patterns : List String)
    (root : Path) : host.scan workers patterns root = host.scan others patterns root := by
  rw [scan, scan, host.scanBelow_workers workers others]

end Workers

namespace Host

variable {host : Host} {workers : Workers} {levels : Nat} {label : Label} {failure : Failure}

/-- A directory that cannot be read fails. -/
theorem scanBelow_of_unread (unread : host.entries patterns label.path = .error failure) :
    host.scanBelow workers patterns (levels + 1) label = .error failure := by
  rw [scanBelow, unread]

/-- A directory that holds nothing but a directory fails with it. -/
theorem scanBelow_of_alone {name : String}
    (alone : host.entries patterns label.path = .ok [(name, .directory)])
    (fails : host.scanBelow workers patterns levels (label.child name) = .error failure) :
    host.scanBelow workers patterns (levels + 1) label = .error failure := by
  rw [scanBelow, alone]
  dsimp only
  rw [Workers.run_eq_map]
  simp [fails, Entry.insertScanned, Except.map]

end Host

/-! ## The first failure -/

/-- The first of some locations is the least of them. -/
theorem Location.first?_eq_some_iff {locations : List Location} {location : Location} :
    Location.first? locations = some location ↔
      location ∈ locations ∧ ∀ other ∈ locations, ¬ other < location := by
  have least : ∀ {locations : List Location} {location : Location},
      Location.first? locations = some location → ∀ other ∈ locations, ¬ other < location := by
    intro locations
    induction locations with
    | nil => exact fun isFirst => nomatch isFirst
    | cons head rest ih =>
      intro location isFirst
      rw [Location.first?] at isFirst
      split at isFirst
      next none =>
        cases isFirst
        rw [Location.eq_nil_of_first? none]
        exact List.forall_mem_singleton.2 (List.lt_irrefl _)
      next other isOther =>
        split at isFirst
        next less =>
          cases isFirst
          exact List.forall_mem_cons.2 ⟨Std.Asymm.asymm _ _ less, ih isOther⟩
        next notLess =>
          cases isFirst
          refine List.forall_mem_cons.2 ⟨List.lt_irrefl _, fun third member => ?_⟩
          exact List.not_lt.2
            (List.le_trans (List.not_lt.1 notLess) (List.not_lt.1 (ih isOther third member)))
  constructor
  · exact fun isFirst => ⟨Location.mem_of_first? isFirst, least isFirst⟩
  · rintro ⟨member, isLeast⟩
    cases isFirst : Location.first? locations with
    | none =>
      rw [Location.eq_nil_of_first? isFirst] at member
      cases member
    | some other =>
      have isMember := Location.mem_of_first? isFirst
      rw [List.le_antisymm (isLeast other isMember) (least isFirst location member)]

/-- The first of the locations below an item that one of the first ones leads to. -/
theorem Location.first?_eq_some_of_cons {locations below : List Location} {name : String}
    {rest : Location} (isFirst : Location.first? locations = some (name :: rest))
    (isBelow : ∀ location, location ∈ below ↔ name :: location ∈ locations) :
    Location.first? below = some rest := by
  obtain ⟨member, least⟩ := Location.first?_eq_some_iff.1 isFirst
  refine Location.first?_eq_some_iff.2 ⟨(isBelow rest).2 member, fun other isOther less => ?_⟩
  exact least _ ((isBelow other).1 isOther) (List.cons_lt_cons_iff.2 (.inr ⟨rfl, less⟩))

/-! ## Listings -/

/-- Whether a listing tells the names in a directory, with their kinds, that a scan looks
at, in increasing order. -/
structure Slot.Lists (patterns : List String) (slots : List Slot)
    (listed : List (String × ListedKind)) : Prop where
  mem_iff : ∀ name kind, (name, kind) ∈ listed ↔ kind ≠ .other ∧
    isIgnored patterns name = false ∧
      ∃ item, Slot.find? name slots = some item ∧ item.listedKind = kind
  increasing : listed.Pairwise fun entry other => entry.1 < other.1

/-- The entries of a directory that a scan looks at, as they are read. -/
theorem Slot.mem_read_iff {slots : List Slot} {name : String} {kind : ListedKind} :
    (name, kind) ∈ ((slots.map Slot.listed).filter fun entry => entry.kind ≠ .other).map
        (fun entry => (Text.lossy entry.name, entry.kind)) ↔
      kind ≠ .other ∧ ∃ slot ∈ slots, slot.name = name ∧ slot.item.listedKind = kind := by
  rw [List.mem_map]
  constructor
  · rintro ⟨entry, isEntry, isRead⟩
    obtain ⟨isListed, looked⟩ := List.mem_filter.1 isEntry
    obtain ⟨slot, isSlot, rfl⟩ := List.mem_map.1 isListed
    obtain ⟨isName, isKind⟩ := Prod.mk.inj isRead
    rw [Slot.listed, Text.lossy_bytes] at isName
    exact ⟨isKind ▸ of_decide_eq_true looked, slot, isSlot, isName, isKind⟩
  · rintro ⟨looked, slot, isSlot, rfl, rfl⟩
    refine ⟨slot.listed, List.mem_filter.2 ⟨List.mem_map_of_mem isSlot, decide_eq_true looked⟩, ?_⟩
    rw [Slot.listed, Text.lossy_bytes]

/-- The names that are read are among those in the directory. -/
theorem Slot.map_fst_read_sublist (slots : List Slot) :
    List.Sublist ((((slots.map Slot.listed).filter fun entry => entry.kind ≠ .other).map
      (fun entry => (Text.lossy entry.name, entry.kind))).map Prod.fst)
      (slots.map Slot.name) := by
  have names : slots.map Slot.name =
      (slots.map Slot.listed).map fun entry => Text.lossy entry.name := by
    rw [List.map_map]
    refine List.map_congr_left fun slot _ => ?_
    exact (Text.lossy_bytes slot.name).symm
  rw [List.map_map, names]
  exact List.filter_sublist.map _

/-- A list in which no name occurs twice, once sorted by its names, has them in increasing
order. -/
theorem pairwise_lt_mergeSort {α : Type} {entries : List (String × α)}
    (distinct : (entries.map Prod.fst).Nodup) :
    (entries.mergeSort fun entry other => entry.1 ≤ other.1).Pairwise
      fun entry other => entry.1 < other.1 := by
  have trans (a b c : String × α) (first : decide (a.1 ≤ b.1) = true)
      (second : decide (b.1 ≤ c.1) = true) : decide (a.1 ≤ c.1) = true :=
    decide_eq_true (String.le_trans (of_decide_eq_true first) (of_decide_eq_true second))
  have total (a b : String × α) : (decide (a.1 ≤ b.1) || decide (b.1 ≤ a.1)) = true := by
    simpa using String.le_total a.1 b.1
  have ordered := List.pairwise_mergeSort trans total entries
  have perm := List.mergeSort_perm entries fun entry other => entry.1 ≤ other.1
  have apart := (perm.map Prod.fst).nodup_iff.2 distinct
  rw [List.Nodup, List.pairwise_map] at apart
  refine (ordered.and apart).imp fun {entry other} facts => ?_
  have atMost : entry.1 ≤ other.1 := of_decide_eq_true facts.1
  exact String.not_le.1 fun atLeast => facts.2 (String.le_antisymm atMost atLeast)

/-- A directory that can be opened is listed. -/
theorem FileSystem.host_entries {valid : String → Prop} {fs : FileSystem} {slots : List Slot}
    (tidy : (Item.directory slots).Tidy valid) {path : Path}
    (found : fs.lookUp .follow path = .ok (.directory slots)) :
    ∃ listed, fs.host.entries patterns path = .ok listed ∧
      Slot.Lists patterns slots listed := by
  rw [Host.entries, host]
  simp only [found]
  refine ⟨_, rfl, ?_, ?_⟩
  · intro name kind
    have holds : (∃ slot ∈ slots, slot.name = name ∧ slot.item.listedKind = kind) ↔
        ∃ item, Slot.find? name slots = some item ∧ item.listedKind = kind := by
      constructor
      · rintro ⟨slot, isSlot, rfl, isKind⟩
        exact ⟨slot.item, Slot.find?_of_mem tidy.distinct_names isSlot, isKind⟩
      · rintro ⟨item, isItem, isKind⟩
        exact ⟨⟨name, item⟩, Slot.mem_of_find? isItem, rfl, isKind⟩
    rw [List.mem_mergeSort, List.mem_filter, Slot.mem_read_iff, holds, and_assoc]
    refine and_congr_right fun _ => and_comm.trans (and_congr_left fun _ => ?_)
    simp
  · refine pairwise_lt_mergeSort (List.Nodup.sublist ?_ tidy.distinct_names)
    exact (List.filter_sublist.map _).trans (Slot.map_fst_read_sublist slots)

/-! ## Entries that are put in -/

namespace Entry

/-- Entries that are put in keep the order. -/
theorem Sorted.foldl_insert {entries : List Entry} (sorted : Sorted entries)
    (news : List Entry) :
    Sorted (news.foldl (fun entries entry => Entry.insert entry entries) entries) := by
  induction news generalizing entries with
  | nil => exact sorted
  | cons entry rest ih => exact ih (sorted.insert entry)

/-- What is there after entries were put in is one of them or was there before. -/
theorem mem_foldl_insert {entry : Entry} {news entries : List Entry}
    (member : entry ∈ news.foldl (fun entries entry => insert entry entries) entries) :
    entry ∈ news ∨ entry ∈ entries := by
  induction news generalizing entries with
  | nil => exact .inr member
  | cons first rest ih =>
    rcases ih member with later | before
    · exact .inl (List.mem_cons_of_mem _ later)
    · rcases mem_insert before with rfl | before
      · exact .inl List.mem_cons_self
      · exact .inr before

/-- Entries that are put in leave other names alone. -/
theorem find?_foldl_insert_of_ne {name : String} {news : List Entry}
    (different : ∀ entry ∈ news, entry.name ≠ name) (entries : List Entry) :
    find? name (news.foldl (fun entries entry => insert entry entries) entries) =
      find? name entries := by
  induction news generalizing entries with
  | nil => rfl
  | cons first rest ih =>
    obtain ⟨isOther, others⟩ := List.forall_mem_cons.1 different
    rw [List.foldl_cons, ih others, find?_insert_of_ne isOther]

/-- An entry that is put in is found, if no other one that is put in has its name. -/
theorem find?_foldl_insert {entry : Entry} {news : List Entry} (member : entry ∈ news)
    (alone : ∀ other ∈ news, other.name = entry.name → other = entry) (entries : List Entry) :
    find? entry.name (news.foldl (fun entries entry => insert entry entries) entries) =
      some entry := by
  induction news generalizing entries with
  | nil => cases member
  | cons first rest ih =>
    obtain ⟨aloneFirst, aloneRest⟩ := List.forall_mem_cons.1 alone
    rw [List.foldl_cons]
    by_cases later : entry ∈ rest
    · exact ih later aloneRest _
    · have isFirst : entry = first := (List.mem_cons.1 member).resolve_right later
      rw [find?_foldl_insert_of_ne, ← isFirst, find?_insert_self]
      exact fun other isOther same => later (aloneRest other isOther same ▸ isOther)

variable {entries : List Entry}

/-- Folders whose scans succeeded are put in unless they are empty. -/
theorem insertScanned_of_ok (trees : List Folder) :
    insertScanned entries (trees.map .ok) =
      .ok (((trees.filter fun tree => !tree.isEmpty).map Entry.folder).foldl
        (fun entries entry => insert entry entries) entries) := by
  induction trees generalizing entries with
  | nil => rfl
  | cons tree rest ih =>
    rw [List.map_cons, insertScanned, ih]
    cases empty : tree.isEmpty <;> simp [empty]

/-- The first scan that fails decides. -/
theorem insertScanned_of_error (trees : List Folder) (failure : Failure)
    (rest : List (Except Failure Folder)) :
    insertScanned entries (trees.map .ok ++ .error failure :: rest) = .error failure := by
  induction trees generalizing entries with
  | nil => rfl
  | cons tree others ih => exact ih

end Entry

/-! ## One level -/

namespace Slot

/-- The slots of the directory of the given name. -/
def inside (name : String) (slots : List Slot) : List Slot :=
  match find? name slots with
  | some (.directory inner) => inner
  | _ => []

/-- What a scan gives of a directory that holds some slots. -/
def folder (patterns : List String) (label : Label) (slots : List Slot) :
    Except Failure Folder :=
  match Location.first? (Item.outOfReach patterns label.path (.directory slots)) with
  | some location => .error (.io (location.foldl Path.child label.path) .nameTooLong)
  | none => .ok ⟨label, record patterns label slots⟩

/-- The entry points in a listing. -/
def fileEntries (label : Label) (listed : List (String × ListedKind)) : List Entry :=
  (listed.filter fun entry => entry.2 = .file ∧ isEntryPointName entry.1).map
    fun entry => Entry.file (label.child entry.1)

/-- The names of the directories in a listing. -/
def folderNames (listed : List (String × ListedKind)) : List String :=
  (listed.filter fun entry => entry.2 = .directory).map (·.1)

/-- The folders of the directories in a listing, without those that are empty. -/
def folderEntries (patterns : List String) (label : Label) (slots : List Slot)
    (listed : List (String × ListedKind)) : List Entry :=
  let trees : List Folder := (folderNames listed).map fun name =>
    ⟨label.child name, record patterns (label.child name) (inside name slots)⟩
  (trees.filter fun tree => !tree.isEmpty).map .folder

variable {slots : List Slot} {listed : List (String × ListedKind)} {label : Label}

/-- A directory in which everything is in reach is recorded. -/
theorem folder_of_reached
    (reached : Item.outOfReach patterns label.path (.directory slots) = []) :
    folder patterns label slots = .ok ⟨label, record patterns label slots⟩ := by
  rw [folder, reached]
  rfl

/-- What is out of reach below the item of a name is so below the name. -/
theorem mem_outOfReach_of_find? {parent : Path} {name : String} {location : Location}
    (notIgnored : isIgnored patterns name = false) {item : Item}
    (isItem : find? name slots = some item)
    (isBelow : location ∈ item.outOfReach patterns (parent.child name)) :
    name :: location ∈ outOfReach patterns parent slots := by
  induction slots with
  | nil => cases isItem
  | cons slot rest ih =>
    obtain ⟨first, other⟩ := slot
    rw [find?] at isItem
    rw [outOfReach]
    split at isItem
    next same =>
      cases same
      cases isItem
      rw [if_neg (Bool.eq_false_iff.1 notIgnored)]
      exact List.mem_append_left _ (List.mem_map_of_mem isBelow)
    next =>
      split
      next => exact ih isItem
      next => exact List.mem_append_right _ (ih isItem)

/-- What is out of reach below a name is out of reach below the item of that name. -/
theorem cons_mem_outOfReach_iff (distinct : (slots.map name).Nodup) {parent : Path}
    {name : String} {location : Location} :
    name :: location ∈ outOfReach patterns parent slots ↔
      isIgnored patterns name = false ∧ ∃ item, find? name slots = some item ∧
        location ∈ item.outOfReach patterns (parent.child name) := by
  constructor
  · intro member
    obtain ⟨slot, isSlot, notIgnored, below, isBelow, same⟩ := mem_outOfReach member
    obtain ⟨rfl, rfl⟩ := List.cons.inj same
    exact ⟨notIgnored, slot.item, find?_of_mem distinct isSlot, isBelow⟩
  · rintro ⟨notIgnored, item, isItem, isBelow⟩
    exact mem_outOfReach_of_find? notIgnored isItem isBelow

/-- The names of the directories in a listing are those of the directories. -/
theorem Lists.mem_folderNames_iff (lists : Lists patterns slots listed) {name : String} :
    name ∈ folderNames listed ↔ isIgnored patterns name = false ∧
      find? name slots = some (.directory (inside name slots)) := by
  have isListed : name ∈ folderNames listed ↔ (name, .directory) ∈ listed := by
    simp [folderNames]
  rw [isListed, lists.mem_iff]
  constructor
  · rintro ⟨-, notIgnored, item, isItem, isDirectory⟩
    cases item with
    | directory inner => exact ⟨notIgnored, by rw [inside, isItem]⟩
    | file => cases isDirectory
    | link => cases isDirectory
  · rintro ⟨notIgnored, isDirectory⟩
    exact ⟨nofun, notIgnored, _, isDirectory, rfl⟩

/-- The names of the directories in a listing are in increasing order. -/
theorem Lists.pairwise_folderNames (lists : Lists patterns slots listed) :
    (folderNames listed).Pairwise (· < ·) :=
  List.pairwise_map.2 (lists.increasing.filter _)

/-- The entry points in a listing are the files that the directory records. -/
theorem Lists.mem_fileEntries_iff (lists : Lists patterns slots listed) {entry : Entry} :
    entry ∈ fileEntries label listed ↔ isIgnored patterns entry.name = false ∧
      ∃ contents, find? entry.name slots = some (.file contents) ∧
        (Item.file contents).record patterns label entry.name = some entry := by
  constructor
  · intro isFile
    obtain ⟨⟨name, kind⟩, member, rfl⟩ := List.mem_map.1 isFile
    obtain ⟨isListed, isEntryPoint⟩ := List.mem_filter.1 member
    obtain ⟨rfl, isEntry⟩ : kind = .file ∧ isEntryPointName name = true := by
      simpa using isEntryPoint
    obtain ⟨-, notIgnored, item, isItem, isKind⟩ := (lists.mem_iff name .file).1 isListed
    cases item with
    | file contents => exact ⟨notIgnored, contents, isItem, if_pos isEntry⟩
    | link => cases isKind
    | directory => cases isKind
  · rintro ⟨notIgnored, contents, isItem, isRecord⟩
    generalize entry.name = name at *
    obtain ⟨isEntry, ⟨⟩⟩ := Option.ite_none_right_eq_some.1 isRecord
    refine List.mem_map.2 ⟨(name, .file), List.mem_filter.2 ⟨?_, by simpa using isEntry⟩, rfl⟩
    exact (lists.mem_iff name .file).2 ⟨nofun, notIgnored, _, isItem, rfl⟩

/-- The folders made from a listing are those that the directory records. -/
theorem Lists.mem_folderEntries_iff (lists : Lists patterns slots listed) {entry : Entry} :
    entry ∈ folderEntries patterns label slots listed ↔
      isIgnored patterns entry.name = false ∧
        ∃ inner, find? entry.name slots = some (.directory inner) ∧
          (Item.directory inner).record patterns label entry.name = some entry := by
  constructor
  · intro isFolder
    obtain ⟨tree, member, rfl⟩ := List.mem_map.1 isFolder
    obtain ⟨isTree, filled⟩ := List.mem_filter.1 member
    obtain ⟨name, isName, rfl⟩ := List.mem_map.1 isTree
    obtain ⟨notIgnored, isItem⟩ := lists.mem_folderNames_iff.1 isName
    have isRecord : (Item.directory (inside name slots)).record patterns label name =
        some (.folder ⟨label.child name, record patterns (label.child name) _⟩) :=
      if_neg (by simpa [Folder.isEmpty] using filled)
    exact ⟨notIgnored, _, isItem, isRecord⟩
  · rintro ⟨notIgnored, inner, isItem, isRecord⟩
    generalize entry.name = name at *
    obtain ⟨filled, ⟨⟩⟩ := Option.ite_none_left_eq_some.1 isRecord
    have isInside : inside name slots = inner := by rw [inside, isItem]
    have isName : name ∈ folderNames listed :=
      lists.mem_folderNames_iff.2 ⟨notIgnored, by rw [isInside, isItem]⟩
    refine List.mem_map_of_mem (List.mem_filter.2 ⟨?_, by simpa [Folder.isEmpty] using filled⟩)
    exact List.mem_map.2 ⟨name, isName, by rw [isInside]⟩

/-- The entries that a level puts in are those that the directory records. -/
theorem Lists.mem_entries_iff (lists : Lists patterns slots listed) {entry : Entry} :
    entry ∈ fileEntries label listed ++ folderEntries patterns label slots listed ↔
      isIgnored patterns entry.name = false ∧ ∃ item, find? entry.name slots = some item ∧
        item.record patterns label entry.name = some entry := by
  rw [List.mem_append, lists.mem_fileEntries_iff, lists.mem_folderEntries_iff]
  constructor
  · rintro (⟨notIgnored, contents, recorded⟩ | ⟨notIgnored, inner, recorded⟩)
    · exact ⟨notIgnored, .file contents, recorded⟩
    · exact ⟨notIgnored, .directory inner, recorded⟩
  · rintro ⟨notIgnored, item, isItem, isRecord⟩
    cases item with
    | file contents => exact .inl ⟨notIgnored, contents, isItem, isRecord⟩
    | link => cases isRecord
    | directory inner => exact .inr ⟨notIgnored, inner, isItem, isRecord⟩

/-- The entries that a level puts in make up what the directory records. -/
theorem Lists.foldl_insert_entries (lists : Lists patterns slots listed)
    (distinct : (slots.map name).Nodup) :
    (fileEntries label listed ++ folderEntries patterns label slots listed).foldl
      (fun entries entry => Entry.insert entry entries) [] = record patterns label slots := by
  have canonical := canonical_record patterns label slots
  refine (Entry.Sorted.foldl_insert List.Pairwise.nil _).ext canonical.sorted fun name => ?_
  refine Option.ext fun entry => ?_
  rw [find?_record distinct]
  constructor
  · intro found
    obtain ⟨member, rfl⟩ := Entry.mem_of_find?_eq_some found
    have isPut := (Entry.mem_foldl_insert member).resolve_right List.not_mem_nil
    obtain ⟨notIgnored, item, isItem, isRecord⟩ := lists.mem_entries_iff.1 isPut
    rw [if_neg (Bool.eq_false_iff.1 notIgnored), isItem]
    exact isRecord
  · intro recorded
    obtain ⟨notIgnored, isEntry⟩ := Option.ite_none_left_eq_some.1 recorded
    obtain ⟨item, isItem, isRecord⟩ := Option.bind_eq_some_iff.1 isEntry
    obtain rfl := Item.name_of_record isRecord
    have isPut : entry ∈ fileEntries label listed ++ folderEntries patterns label slots listed :=
      lists.mem_entries_iff.2 ⟨Bool.eq_false_iff.2 notIgnored, item, isItem, isRecord⟩
    refine Entry.find?_foldl_insert isPut (fun other isOther same => ?_) _
    obtain ⟨-, otherItem, isOtherItem, isOtherRecord⟩ := lists.mem_entries_iff.1 isOther
    rw [same] at isOtherItem isOtherRecord
    cases isItem.symm.trans isOtherItem
    exact Option.some.inj (isOtherRecord.symm.trans isRecord)

/-- If everything is in reach, a level gives what its slots record. -/
theorem Lists.insertScanned_of_reached (lists : Lists patterns slots listed)
    (distinct : (slots.map name).Nodup) (reached : outOfReach patterns label.path slots = []) :
    Entry.insertScanned
      ((fileEntries label listed).foldl (fun entries entry => Entry.insert entry entries) [])
      ((folderNames listed).map fun name =>
        folder patterns (label.child name) (inside name slots)) =
      .ok (record patterns label slots) := by
  have scanned : ∀ name ∈ folderNames listed,
      folder patterns (label.child name) (inside name slots) =
        .ok ⟨label.child name, record patterns (label.child name) (inside name slots)⟩ := by
    intro name isName
    obtain ⟨notIgnored, isItem⟩ := lists.mem_folderNames_iff.1 isName
    exact folder_of_reached (outOfReach_find? reached notIgnored isItem)
  rw [List.map_congr_left scanned, ← Function.comp_def Except.ok, ← List.map_map,
    Entry.insertScanned_of_ok, ← List.foldl_append]
  exact congrArg Except.ok (lists.foldl_insert_entries distinct)

/-- The scan of the directory on the way to the first one out of reach fails there. -/
theorem folder_of_first (distinct : (slots.map name).Nodup) {name : String}
    {inner : List Slot} {below : Location} (notIgnored : isIgnored patterns name = false)
    (isItem : find? name slots = some (.directory inner))
    (isFirst : Location.first? (outOfReach patterns label.path slots) = some (name :: below)) :
    folder patterns (label.child name) inner =
      .error (.io (below.foldl Path.child (label.path.child name)) .nameTooLong) := by
  have firstBelow : Location.first?
      (Item.outOfReach patterns (label.path.child name) (.directory inner)) = some below := by
    refine Location.first?_eq_some_of_cons isFirst fun other => ?_
    rw [cons_mem_outOfReach_iff distinct, isItem]
    simp [notIgnored]
  rw [folder, Label.child, firstBelow]

/-- The first directory on the way to the first one out of reach is the first whose scan
fails. -/
theorem Lists.insertScanned_of_first (lists : Lists patterns slots listed)
    (distinct : (slots.map name).Nodup) {location : Location}
    (isFirst : Location.first? (outOfReach patterns label.path slots) = some location)
    (entries : List Entry) :
    Entry.insertScanned entries ((folderNames listed).map fun name =>
        folder patterns (label.child name) (inside name slots)) =
      .error (.io (location.foldl Path.child label.path) .nameTooLong) := by
  obtain ⟨member, least⟩ := Location.first?_eq_some_iff.1 isFirst
  obtain ⟨⟨name, item⟩, isSlot, notIgnored, below, isBelow, rfl⟩ := mem_outOfReach member
  have isItem : find? name slots = some item := find?_of_mem distinct isSlot
  cases item with
  | file => cases isBelow
  | link => cases isBelow
  | directory inner =>
    have isInside : inside name slots = inner := by rw [inside, isItem]
    have isName : name ∈ folderNames listed :=
      lists.mem_folderNames_iff.2 ⟨notIgnored, by rw [isInside, isItem]⟩
    have fails : folder patterns (label.child name) (inside name slots) =
        .error (.io (below.foldl Path.child (label.path.child name)) .nameTooLong) :=
      isInside ▸ folder_of_first distinct notIgnored isItem isFirst
    obtain ⟨before, after, isSplit⟩ := List.append_of_mem isName
    have increasing := lists.pairwise_folderNames
    rw [isSplit, List.pairwise_append] at increasing
    have scanned : ∀ other ∈ before, folder patterns (label.child other) (inside other slots) =
        .ok ⟨label.child other, record patterns (label.child other) (inside other slots)⟩ := by
      intro other isBefore
      have isOther : other ∈ folderNames listed :=
        isSplit ▸ List.mem_append_left _ isBefore
      obtain ⟨otherNotIgnored, isOtherItem⟩ := lists.mem_folderNames_iff.1 isOther
      -- A place out of reach below `other` would come before the first one.
      refine folder_of_reached (List.eq_nil_iff_forall_not_mem.2 fun place isPlace => ?_)
      have less := increasing.2.2 other isBefore name List.mem_cons_self
      exact least _ (mem_outOfReach_of_find? otherNotIgnored isOtherItem isPlace)
        (List.cons_lt_cons_iff.2 (.inl less))
    rw [isSplit, List.map_append, List.map_cons, fails, List.map_congr_left scanned,
      ← Function.comp_def Except.ok, ← List.map_map, Entry.insertScanned_of_error]
    rfl

end Slot

/-- If the scans of the directories in a listing give what their slots tell, so does the
scan of the directory that is listed. -/
theorem Host.scanBelow_of_lists {host : Host} {workers : Workers} {levels : Nat} {label : Label}
    {slots : List Slot} {listed : List (String × ListedKind)}
    (isListed : host.entries patterns label.path = .ok listed)
    (lists : Slot.Lists patterns slots listed) (distinct : (slots.map Slot.name).Nodup)
    (short : label.path.text.utf8ByteSize < FileSystem.pathLimit)
    (below : ∀ name ∈ Slot.folderNames listed,
      host.scanBelow workers patterns levels (label.child name) =
        Slot.folder patterns (label.child name) (Slot.inside name slots)) :
    host.scanBelow workers patterns (levels + 1) label = Slot.folder patterns label slots := by
  have outside : Item.outOfReach patterns label.path (.directory slots) =
      Slot.outOfReach patterns label.path slots := if_neg (Nat.not_le.2 short)
  have results := List.map_congr_left below
  rw [scanBelow, isListed]
  dsimp only
  rw [Workers.run_eq_map]
  refine (congrArg (fun scanned => (Entry.insertScanned _ scanned).map _) results).trans ?_
  rw [Slot.folder, outside]
  cases isFirst : Location.first? (Slot.outOfReach patterns label.path slots) with
  | some location =>
    rw [lists.insertScanned_of_first distinct isFirst]
    rfl
  | none =>
    have reached := Location.eq_nil_of_first? isFirst
    exact congrArg (Except.map _) (lists.insertScanned_of_reached distinct reached)

/-! ## The whole scan -/

namespace FileSystem

variable {fs : FileSystem} {root : Path} {top : Location}

/-- A directory whose path is too long is not opened. -/
theorem scanBelow_of_long (workers : Workers) {label : Label}
    (refused : textError? .follow label.path = some .nameTooLong) (levels : Nat) :
    fs.host.scanBelow workers patterns levels label = .error (.io label.path .nameTooLong) := by
  cases levels with
  | zero => rfl
  | succ levels =>
    have notFound : fs.lookUp .follow label.path = .error .nameTooLong := by
      rw [lookUp, resolve, refused]
      rfl
    have notListed : fs.host.list label.path = .error .nameTooLong := by
      simp only [host, notFound]
    rw [Host.scanBelow, Host.entries, notListed]

/-- A scan from a directory below a root gives what its slots tell, as long as there are
levels enough to reach a path that is too long. -/
theorem scanBelow_eq_folder (tidy : fs.Tidy IsFileName) (rootAt : fs.RootAt root top)
    (workers : Workers) (levels : Nat) (label : Label) (names : List String)
    (isPath : label.path = root.descendant names) (slots : List Slot)
    (found : fs.item? (top ++ names) = some (.directory slots))
    (enough : pathLimit ≤ label.path.text.utf8ByteSize + levels) :
    fs.host.scanBelow workers patterns levels label = Slot.folder patterns label slots := by
  have fine := (resolve_eq_ok_iff.1 rootAt.1).1
  induction levels generalizing label names slots with
  | zero =>
    have outside : Item.outOfReach patterns label.path (.directory slots) = [[]] :=
      if_pos enough
    rw [Slot.folder, outside]
    rfl
  | succ levels ih =>
    have isDirectory := kind?_eq_directory_iff.2 ⟨slots, found⟩
    have areNames : ∀ name ∈ names, IsFileName name := fun name member =>
      tidy.valid_of_kind? (by rw [isDirectory]; exact nofun) name (List.mem_append_right _ member)
    have inOrder := Path.inOrder_descendant (textError?_eq_none_iff.1 fine).1
      (textError?_eq_none_iff.1 fine).2.1 areNames
    rw [← isPath] at inOrder
    by_cases long : pathLimit ≤ label.path.text.utf8ByteSize
    · -- The path is refused, and what is out of reach is the directory itself.
      have refused := Path.textError?_descendant_of_long fine areNames (isPath ▸ long)
      have outside : Item.outOfReach patterns label.path (.directory slots) = [[]] := if_pos long
      rw [scanBelow_of_long workers (isPath ▸ refused), Slot.folder, outside]
      rfl
    have here : fs.RootAt label.path (top ++ names) :=
      isPath ▸ rootAt.descendant tidy isDirectory (isPath ▸ Nat.lt_of_not_le long)
    obtain ⟨others, same, opened⟩ := here.lookUp_follow
    cases found.symm.trans same
    have tidyHere := Item.Tidy.of_at? tidy found
    obtain ⟨listed, isListed, lists⟩ := host_entries tidyHere opened
    -- Each level takes a name, and so at least a byte, off what is left to the limit.
    have below : ∀ name ∈ Slot.folderNames listed,
        fs.host.scanBelow workers patterns levels (label.child name) =
          Slot.folder patterns (label.child name) (Slot.inside name slots) := by
      intro name isName
      obtain ⟨-, isItem⟩ := lists.mem_folderNames_iff.1 isName
      have isFileName : IsFileName name := tidyHere.valid_names _ (Slot.mem_of_find? isItem)
      have longer := Path.utf8ByteSize_lt_child isFileName.toIsName inOrder.2
      have isPathBelow : (label.child name).path = root.descendant (names ++ [name]) := by
        rw [Path.descendant_append, ← isPath]
        rfl
      have foundBelow : fs.item? (top ++ (names ++ [name])) =
          some (.directory (Slot.inside name slots)) := by
        rw [← List.append_assoc, item?_append, found, Option.bind_some, Item.at?_cons, isItem]
        rfl
      have enoughBelow : pathLimit ≤ (label.path.child name).text.utf8ByteSize + levels := by
        omega
      exact ih _ _ isPathBelow _ foundBelow enoughBelow
    exact Host.scanBelow_of_lists isListed lists tidyHere.distinct_names
      (Nat.lt_of_not_le long) below

/-- A scan by listings gives what the scan tells of the file system, by however many
workers it is done. -/
theorem scanWith_eq_scan (tidy : fs.Tidy IsFileName) (workers : Workers)
    (patterns : List String) (root : Path) :
    fs.scanWith workers patterns root = fs.scan patterns root := by
  rw [scanWith, Host.scan, scan]
  cases isRoot : fs.lookUp .follow root with
  | error cause => simp only [host, isRoot, Except.map]
  | ok item =>
    cases item with
    | file => simp [host, isRoot, Except.map, Item.listedKind]
    | link => simp [host, isRoot, Except.map, Item.listedKind]
    | directory slots =>
      obtain ⟨top, isTop, found⟩ := lookUp_eq_ok_iff.1 isRoot
      have rootAt : fs.RootAt root top := ⟨isTop, kind?_eq_directory_iff.2 ⟨slots, found⟩⟩
      have isDirectory : fs.host.isDirectory root = .ok true := by
        simp [host, isRoot, Except.map, Item.listedKind]
      rw [isDirectory]
      refine (scanBelow_eq_folder tidy rootAt workers pathLimit (Folder.root root).label []
        rfl slots ?_ (Nat.le_add_left _ _)).trans ?_
      · rwa [List.append_nil]
      · rfl

end FileSystem

/-! ## Names that are no texts -/

namespace Host

/-- A host with one directory that can be opened, and what it lists. -/
def single (root : Path) (listed : List Listed) : Host where
  isDirectory path := if path = root then .ok true else .error .notFound
  list path := if path = root then .ok listed else .error .notFound

/-- The file called by the replacement character. -/
def lossyFile : Entry := .file ((Folder.root ⟨"r"⟩).label.child "\uFFFD.entrypoint.js")

/-- A directory whose name is no text makes the scan fail: the path that is spelled with
the text the name is read as leads nowhere. -/
theorem scan_lossy_directory (workers : Workers) :
    (single ⟨"r"⟩ [⟨[0xFF], .directory⟩]).scan workers [] ⟨"r"⟩ =
      .error (.io ⟨"r/\uFFFD"⟩ .notFound) := by
  have isPath : ((Folder.root ⟨"r"⟩).label.child "\uFFFD").path = ⟨"r/\uFFFD"⟩ := by
    decide +kernel
  have above : (single ⟨"r"⟩ [⟨[0xFF], .directory⟩]).entries [] ⟨"r"⟩ =
      .ok [("\uFFFD", .directory)] := by
    decide +kernel
  have below : (single ⟨"r"⟩ [⟨[0xFF], .directory⟩]).entries [] ⟨"r/\uFFFD"⟩ =
      .error (.io ⟨"r/\uFFFD"⟩ .notFound) := by
    decide +kernel
  have fails : (single ⟨"r"⟩ [⟨[0xFF], .directory⟩]).scanBelow workers [] (4094 + 1)
      ((Folder.root ⟨"r"⟩).label.child "\uFFFD") = .error (.io ⟨"r/\uFFFD"⟩ .notFound) :=
    scanBelow_of_unread (isPath ▸ below)
  exact scanBelow_of_alone above fails

/-- Where the root lists no directories, the entry points that it lists are put in. -/
theorem scan_of_files {host : Host} {workers : Workers} {root : Path}
    {listed : List (String × ListedKind)} (isDirectory : host.isDirectory root = .ok true)
    (isListed : host.entries patterns root = .ok listed)
    (noFolders : ∀ entry ∈ listed, entry.2 ≠ .directory) :
    host.scan workers patterns root =
      .ok ⟨(Folder.root root).label, (Slot.fileEntries (Folder.root root).label listed).foldl
        (fun entries entry => Entry.insert entry entries) []⟩ := by
  have none : listed.filter (fun entry => entry.2 = .directory) = [] :=
    List.filter_eq_nil_iff.2 fun entry member => by simpa using noFolders entry member
  have isListedRoot : host.entries patterns (Folder.root root).label.path = .ok listed := isListed
  rw [scan, isDirectory]
  dsimp only
  rw [show FileSystem.pathLimit = 4095 + 1 from rfl, scanBelow, isListedRoot]
  dsimp only
  rw [Workers.run_eq_map, none]
  rfl

/-- Two files whose names are read as the same text are recorded as one, and so is either
of them alone. -/
theorem scan_lossy_files (workers : Workers) :
    (single ⟨"r"⟩ [⟨0xFE :: Text.bytes ".entrypoint.js", .file⟩,
      ⟨0xFF :: Text.bytes ".entrypoint.js", .file⟩]).scan workers [] ⟨"r"⟩ =
        .ok ⟨(Folder.root ⟨"r"⟩).label, [lossyFile]⟩ ∧
    (single ⟨"r"⟩ [⟨0xFF :: Text.bytes ".entrypoint.js", .file⟩]).scan workers [] ⟨"r"⟩ =
        .ok ⟨(Folder.root ⟨"r"⟩).label, [lossyFile]⟩ := by
  have both : (single ⟨"r"⟩ [⟨0xFE :: Text.bytes ".entrypoint.js", .file⟩,
      ⟨0xFF :: Text.bytes ".entrypoint.js", .file⟩]).entries [] ⟨"r"⟩ =
        .ok [("\uFFFD.entrypoint.js", .file), ("\uFFFD.entrypoint.js", .file)] := by
    refine congrArg Except.ok ((List.mergeSort_of_pairwise ?_).trans ?_) <;> decide +kernel
  have alone : (single ⟨"r"⟩ [⟨0xFF :: Text.bytes ".entrypoint.js", .file⟩]).entries [] ⟨"r"⟩ =
        .ok [("\uFFFD.entrypoint.js", .file)] := by
    decide +kernel
  have isDirectory (listed : List Listed) :
      (single ⟨"r"⟩ listed).isDirectory ⟨"r"⟩ = .ok true := by simp [single]
  exact ⟨(scan_of_files (isDirectory _) both (by decide)).trans (by decide +kernel),
    (scan_of_files (isDirectory _) alone (by decide)).trans (by decide +kernel)⟩

end Host

end RouteAtlas
