import RouteAtlas.FileTree.Scan
import RouteAtlas.Proofs.FileSystem.Below

/-!
# What a scan records

A scan of a tidy file system records exactly the files that take part in routing
(`FileSystem.Offers`), as a canonical tree (`FileSystem.scan_records`). So a
canonical tree with the label of a root and these records is what a scan of the
root gives, if it gives anything (`FileSystem.eq_of_scan`): a scan of a directory
fails only for the length of a path (`FileSystem.scan_error`).
-/

set_option autoImplicit false

namespace RouteAtlas

variable {patterns : List String}

/-! ## Recorded slots -/

mutual

/-- Slots give a canonical folder. -/
theorem Slot.canonical_record (patterns : List String) (parent : Label) (slots : List Slot) :
    Folder.Canonical ⟨parent, Slot.record patterns parent slots⟩ := by
  match slots with
  | [] => exact .of_nil parent
  | slot :: rest =>
    have others := Slot.canonical_record patterns parent rest
    simp only [Slot.record]
    split
    next => exact others
    next =>
      split
      next entry isEntry =>
        obtain ⟨label, inner⟩ := Slot.canonical_recordOne patterns parent slot entry isEntry
        exact others.insert entry label inner
      next => exact others
  termination_by structural slots

/-- The entry that a slot gives has the label of the slot's name, and a folder is
canonical and not empty. -/
theorem Slot.canonical_recordOne (patterns : List String) (parent : Label) (slot : Slot)
    (entry : Entry) (isEntry : slot.recordOne patterns parent = some entry) :
    entry.label = parent.child entry.name ∧
      ∀ inner, entry = .folder inner → inner.entries ≠ [] ∧ inner.Canonical := by
  match slot with
  | ⟨name, item⟩ =>
    obtain ⟨label, inner⟩ := Item.canonical_record patterns parent name item entry isEntry
    refine ⟨?_, inner⟩
    rw [Entry.name, label]
    rfl
  termination_by structural slot

/-- The entry that an item gives under a name has the label of the name, and a
folder is canonical and not empty. -/
theorem Item.canonical_record (patterns : List String) (parent : Label) (name : String)
    (item : Item) (entry : Entry) (isEntry : item.record patterns parent name = some entry) :
    entry.label = parent.child name ∧
      ∀ inner, entry = .folder inner → inner.entries ≠ [] ∧ inner.Canonical := by
  match item with
  | .file _ =>
    obtain ⟨-, ⟨⟩⟩ := Option.ite_none_right_eq_some.1 isEntry
    exact ⟨rfl, nofun⟩
  | .link _ => cases isEntry
  | .directory slots =>
    have inside := Slot.canonical_record patterns (parent.child name) slots
    obtain ⟨filled, ⟨⟩⟩ := Option.ite_none_left_eq_some.1 isEntry
    refine ⟨rfl, ?_⟩
    rintro _ ⟨⟩
    exact ⟨fun none => filled (List.isEmpty_iff.2 none), inside⟩
  termination_by structural item

end

/-- An item is recorded under its own name. -/
theorem Item.name_of_record {parent : Label} {name : String} {item : Item} {entry : Entry}
    (isEntry : item.record patterns parent name = some entry) : entry.name = name := by
  rw [Entry.name, (Item.canonical_record patterns parent name item entry isEntry).1]
  rfl

/-- Under each name, slots with distinct names give the entry of the slot that has
the name, unless the name is ignored. -/
theorem Slot.find?_record {slots : List Slot} (distinct : (slots.map Slot.name).Nodup)
    (parent : Label) (name : String) :
    Entry.find? name (Slot.record patterns parent slots) =
      if isIgnored patterns name then none
      else (Slot.find? name slots).bind (Item.record patterns parent name) := by
  induction slots with
  | nil => simp [Slot.record, Entry.find?, Slot.find?]
  | cons slot rest ih =>
    obtain ⟨first, item⟩ := slot
    obtain ⟨isNew, distinctRest⟩ := List.nodup_cons.1 distinct
    have others := ih distinctRest
    have isFirst : Slot.recordOne patterns parent ⟨first, item⟩ =
        item.record patterns parent first := by rw [Slot.recordOne]
    rw [Slot.record, Slot.find?, isFirst]
    by_cases same : first = name
    · subst same
      have gone : Slot.find? first rest = none := by
        cases found : Slot.find? first rest with
        | none => rfl
        | some other => exact absurd (List.mem_map_of_mem (Slot.mem_of_find? found)) isNew
      rw [gone] at others
      simp only [if_true, Option.bind_some]
      split
      next ignored => rw [others, if_pos ignored]
      next notIgnored =>
        split
        next entry isEntry =>
          rw [isEntry, ← Item.name_of_record isEntry]
          exact Entry.find?_insert_self entry _
        next nothing => rw [others, if_neg notIgnored, nothing, Option.bind_none]
    · simp only [same, if_false]
      split
      next => exact others
      next =>
        split
        next entry isEntry =>
          have different : entry.name ≠ name := by rwa [Item.name_of_record isEntry]
          rw [Entry.find?_insert_of_ne different, others]
        next => exact others

/-- Slots record the files below them that take part in routing. -/
theorem Slot.records_record {valid : String → Prop} {slots : List Slot}
    (tidy : (Item.directory slots).Tidy valid) (parent : Label) (names : List String) :
    Entry.Records (Slot.record patterns parent slots) names ↔
      Admitted patterns names ∧
        ((Item.directory slots).at? names).map Item.kind = some .file := by
  induction names generalizing slots parent with
  | nil =>
    refine iff_of_false (Entry.not_records_nil _) ?_
    rintro ⟨admitted, -⟩
    exact admitted.ne_nil rfl
  | cons name rest ih =>
    have found : Entry.find? name (Slot.record patterns parent slots) = _ :=
      Slot.find?_record tidy.distinct_names parent name
    rw [Item.at?_cons]
    cases ignored : isIgnored patterns name with
    | true =>
      rw [ignored, if_pos rfl] at found
      refine iff_of_false (Entry.records_cons_of_none found rest) ?_
      rintro ⟨admitted, -⟩
      rw [admitted.1 name List.mem_cons_self] at ignored
      cases ignored
    | false =>
      rw [ignored, if_neg Bool.false_ne_true] at found
      cases isItem : Slot.find? name slots with
      | none =>
        rw [isItem, Option.bind_none] at found
        refine iff_of_false (Entry.records_cons_of_none found rest) ?_
        rintro ⟨-, ⟨⟩⟩
      | some item =>
        rw [isItem, Option.bind_some] at found
        rw [Option.bind_some]
        cases item with
        | link target =>
          refine iff_of_false (Entry.records_cons_of_none found rest) ?_
          rintro ⟨-, isFile⟩
          cases rest <;> cases isFile
        | file contents =>
          rw [Item.record] at found
          cases rest with
          | nil =>
            rw [admitted_singleton, Entry.records_singleton_iff, found, Item.at?_nil]
            simp [ignored, Item.kind]
          | cons first others =>
            refine iff_of_false ?_ ?_
            · split at found
              · rw [Entry.records_cons_of_file found]
                exact List.cons_ne_nil first others
              · exact Entry.records_cons_of_none found _
            · rintro ⟨-, ⟨⟩⟩
        | directory inner =>
          have below := ih (tidy.of_find? isItem) (parent.child name)
          rw [Item.record] at found
          cases rest with
          | nil =>
            refine iff_of_false ?_ ?_
            · intro recorded
              obtain ⟨label, isFile⟩ := Entry.records_singleton_iff.1 recorded
              rw [isFile] at found
              split at found <;> cases found
            · rintro ⟨-, ⟨⟩⟩
          | cons first others =>
            rw [admitted_cons (List.cons_ne_nil first others), and_assoc, ← below]
            simp only [ignored, true_and]
            split at found
            next empty =>
              rw [List.isEmpty_iff.1 empty]
              exact iff_of_false (Entry.records_cons_of_none found _)
                (Entry.records_cons_of_none rfl _)
            next => exact Entry.records_cons_of_folder found _

/-! ## Paths that are too long -/

mutual

/-- Only a path that is too long is out of reach. -/
theorem Slot.pathLimit_le_of_outOfReach (patterns : List String) (parent : Path)
    (slots : List Slot) (location : Location)
    (member : location ∈ Slot.outOfReach patterns parent slots) :
    FileSystem.pathLimit ≤ (parent.descendant location).text.utf8ByteSize := by
  match slots with
  | [] => cases member
  | slot :: rest =>
    rw [Slot.outOfReach] at member
    split at member
    next => exact Slot.pathLimit_le_of_outOfReach patterns parent rest location member
    next =>
      rcases List.mem_append.1 member with here | later
      · obtain ⟨below, isBelow, rfl⟩ := List.mem_map.1 here
        exact Slot.pathLimit_le_of_outOfReachOne patterns parent slot below isBelow
      · exact Slot.pathLimit_le_of_outOfReach patterns parent rest location later
  termination_by structural slots

/-- What is out of reach below a slot has a path that is too long. -/
theorem Slot.pathLimit_le_of_outOfReachOne (patterns : List String) (parent : Path)
    (slot : Slot) (location : Location)
    (member : location ∈ slot.outOfReachOne patterns parent) :
    FileSystem.pathLimit ≤
      (parent.descendant (slot.name :: location)).text.utf8ByteSize := by
  match slot with
  | ⟨name, item⟩ =>
    exact Item.pathLimit_le_of_outOfReach patterns (parent.child name) item location member
  termination_by structural slot

/-- What is out of reach below an item has a path that is too long. -/
theorem Item.pathLimit_le_of_outOfReach (patterns : List String) (path : Path) (item : Item)
    (location : Location) (member : location ∈ item.outOfReach patterns path) :
    FileSystem.pathLimit ≤ (path.descendant location).text.utf8ByteSize := by
  match item with
  | .file _ => cases member
  | .link _ => cases member
  | .directory slots =>
    rw [Item.outOfReach] at member
    split at member
    next tooLong =>
      rw [List.mem_singleton.1 member]
      exact tooLong
    next => exact Slot.pathLimit_le_of_outOfReach patterns path slots location member
  termination_by structural item

end

/-- What is out of reach below some slots is so below one that is not ignored. -/
theorem Slot.mem_outOfReach {parent : Path} {slots : List Slot} {location : Location}
    (member : location ∈ Slot.outOfReach patterns parent slots) :
    ∃ slot ∈ slots, isIgnored patterns slot.name = false ∧
      ∃ below ∈ slot.item.outOfReach patterns (parent.child slot.name),
        location = slot.name :: below := by
  induction slots with
  | nil => cases member
  | cons slot rest ih =>
    rw [Slot.outOfReach] at member
    split at member
    next =>
      obtain ⟨other, isMember, facts⟩ := ih member
      exact ⟨other, List.mem_cons_of_mem _ isMember, facts⟩
    next notIgnored =>
      rcases List.mem_append.1 member with here | there
      · obtain ⟨below, isBelow, rfl⟩ := List.mem_map.1 here
        obtain ⟨name, item⟩ := slot
        exact ⟨_, List.mem_cons_self, Bool.eq_false_iff.2 notIgnored, below, isBelow, rfl⟩
      · obtain ⟨other, isMember, facts⟩ := ih there
        exact ⟨other, List.mem_cons_of_mem _ isMember, facts⟩

/-- If everything is in reach below some slots, so it is below each of them that is
not ignored. -/
theorem Slot.outOfReach_find? {parent : Path} {slots : List Slot}
    (reached : Slot.outOfReach patterns parent slots = []) {name : String}
    (notIgnored : isIgnored patterns name = false) {item : Item}
    (found : Slot.find? name slots = some item) :
    item.outOfReach patterns (parent.child name) = [] := by
  induction slots with
  | nil => cases found
  | cons slot rest ih =>
    obtain ⟨first, inner⟩ := slot
    rw [Slot.outOfReach] at reached
    rw [Slot.find?] at found
    split at found
    next isFirst =>
      cases isFirst
      cases found
      simp only [notIgnored, Bool.false_eq_true, if_false, List.append_eq_nil_iff,
        List.map_eq_nil_iff] at reached
      exact reached.1
    next =>
      split at reached
      next => exact ih reached found
      next => exact ih (List.append_eq_nil_iff.1 reached).2 found

/-- If everything is in reach below an item, so it is below each directory there on
whose way nothing is ignored. -/
theorem Item.outOfReach_at? {path : Path} {item : Item}
    (reached : item.outOfReach patterns path = []) {names : List String}
    (notIgnored : ∀ name ∈ names, isIgnored patterns name = false) {inner : Item}
    (found : item.at? names = some inner) :
    inner.outOfReach patterns (path.descendant names) = [] := by
  induction names generalizing item path with
  | nil =>
    rw [Item.at?_nil] at found
    cases found
    exact reached
  | cons name rest ih =>
    cases item with
    | file => cases found
    | link => cases found
    | directory slots =>
      rw [Item.at?_cons] at found
      obtain ⟨next, isNext, isBelow⟩ := Option.bind_eq_some_iff.1 found
      rw [Item.outOfReach] at reached
      split at reached
      next => cases reached
      next =>
        exact ih (Slot.outOfReach_find? reached (notIgnored name List.mem_cons_self) isNext)
          (fun other member => notIgnored other (List.mem_cons_of_mem _ member)) isBelow

/-- Only where there are no locations is none of them first. -/
theorem Location.eq_nil_of_first? {locations : List Location}
    (none : Location.first? locations = none) : locations = [] := by
  cases locations with
  | nil => rfl
  | cons location rest =>
    rw [Location.first?] at none
    split at none
    next => cases none
    next => split at none <;> cases none

/-- The first of some locations is one of them. -/
theorem Location.mem_of_first? {locations : List Location} {location : Location}
    (isFirst : Location.first? locations = some location) : location ∈ locations := by
  induction locations with
  | nil => cases isFirst
  | cons first rest ih =>
    rw [Location.first?] at isFirst
    split at isFirst
    next =>
      cases isFirst
      exact List.mem_cons_self
    next other isOther =>
      split at isFirst
      next =>
        cases isFirst
        exact List.mem_cons_of_mem _ (ih isOther)
      next =>
        cases isFirst
        exact List.mem_cons_self

/-! ## Scans -/

namespace FileSystem

variable {fs : FileSystem} {root : Path} {tree : Folder}

/-- A scan succeeds exactly for a directory in which every path is short enough,
and then records its slots. -/
theorem scan_eq_ok_iff :
    fs.scan patterns root = .ok tree ↔
      ∃ slots, fs.lookUp .follow root = .ok (.directory slots) ∧
        Item.outOfReach patterns root (.directory slots) = [] ∧
        tree = ⟨(Folder.root root).label, Slot.record patterns (Folder.root root).label slots⟩ := by
  rw [scan]
  constructor
  · intro scanned
    split at scanned
    next => cases scanned
    next slots isDirectory =>
      split at scanned
      next => cases scanned
      next reached =>
        cases scanned
        exact ⟨slots, isDirectory, Location.eq_nil_of_first? reached, rfl⟩
    next => cases scanned
  · rintro ⟨slots, isDirectory, reached, rfl⟩
    rw [isDirectory]
    simp only [reached, Location.first?]

/-- What is scanned is a directory. -/
theorem exists_rootAt_of_scan (scanned : fs.scan patterns root = .ok tree) :
    ∃ top, fs.RootAt root top := by
  obtain ⟨slots, isDirectory, -⟩ := scan_eq_ok_iff.1 scanned
  obtain ⟨top, isTop, found⟩ := lookUp_eq_ok_iff.1 isDirectory
  exact ⟨top, isTop, kind?_eq_directory_iff.2 ⟨slots, found⟩⟩

/-- A scan of a directory fails only for a path that is too long. -/
theorem scan_error {slots : List Slot}
    (isDirectory : fs.lookUp .follow root = .ok (.directory slots)) {failure : Failure}
    (failed : fs.scan patterns root = .error failure) :
    ∃ path, failure = .io path .nameTooLong ∧ pathLimit ≤ path.text.utf8ByteSize := by
  rw [scan, isDirectory] at failed
  dsimp only at failed
  split at failed
  next location isFirst =>
    cases failed
    exact ⟨_, rfl, Item.pathLimit_le_of_outOfReach patterns root _ location
      (Location.mem_of_first? isFirst)⟩
  next => cases failed

/-- Whether the directory at a location offers a file at the end of the given names
that takes part in routing. -/
def Offers (fs : FileSystem) (patterns : List String) (top : Location) (names : List String) :
    Prop :=
  Admitted patterns names ∧ fs.kind? (top ++ names) = some .file

/-- A scan gives a canonical tree with the label of the root, which records what the
directory of the root offers. -/
theorem scan_records {valid : String → Prop} (tidy : fs.Tidy valid) {top : Location}
    (isTop : fs.resolve .follow root = .ok top) (scanned : fs.scan patterns root = .ok tree) :
    tree.label = (Folder.root root).label ∧ tree.Canonical ∧
      ∀ names, tree.Records names ↔ fs.Offers patterns top names := by
  obtain ⟨slots, isDirectory, -, rfl⟩ := scan_eq_ok_iff.1 scanned
  obtain ⟨location, isLocation, found⟩ := lookUp_eq_ok_iff.1 isDirectory
  obtain rfl : top = location := Except.ok.inj (isTop.symm.trans isLocation)
  refine ⟨rfl, Slot.canonical_record patterns _ slots, fun names => ?_⟩
  rw [Folder.Records, Slot.records_record (Item.Tidy.of_at? tidy found), Offers,
    kind?_append found]

/-- A canonical tree with the label of the root, which records what the directory of
the root offers, is what a scan gives. -/
theorem eq_of_scan {valid : String → Prop} (tidy : fs.Tidy valid) {top : Location}
    (isTop : fs.resolve .follow root = .ok top) (label : tree.label = (Folder.root root).label)
    (canonical : tree.Canonical)
    (records : ∀ names, tree.Records names ↔ fs.Offers patterns top names) {fresh : Folder}
    (scanned : fs.scan patterns root = .ok fresh) : tree = fresh := by
  obtain ⟨labelFresh, canonicalFresh, recordsFresh⟩ := scan_records tidy isTop scanned
  exact canonical.ext canonicalFresh (label.trans labelFresh.symm)
    fun names => (records names).trans (recordsFresh names).symm

/-- A scan succeeds only if the path of every directory on whose way nothing is
ignored is short enough. -/
theorem short_of_scan {top : Location} (isTop : fs.resolve .follow root = .ok top)
    (scanned : fs.scan patterns root = .ok tree) {names : List String}
    (notIgnored : ∀ name ∈ names, isIgnored patterns name = false)
    (isDirectory : fs.kind? (top ++ names) = some .directory) :
    (root.descendant names).text.utf8ByteSize < pathLimit := by
  obtain ⟨slots, isRoot, reached, -⟩ := scan_eq_ok_iff.1 scanned
  obtain ⟨location, isLocation, found⟩ := lookUp_eq_ok_iff.1 isRoot
  cases isTop.symm.trans isLocation
  obtain ⟨inner, isInner⟩ := kind?_eq_directory_iff.1 isDirectory
  rw [item?_append, found, Option.bind_some] at isInner
  have reachedInner := Item.outOfReach_at? reached notIgnored isInner
  rw [Item.outOfReach] at reachedInner
  split at reachedInner
  next => cases reachedInner
  next short => exact Nat.lt_of_not_le short

/-- A scan of an empty directory finds nothing. -/
theorem scan_of_empty {top : Location} (isTop : fs.resolve .follow root = .ok top)
    (isEmpty : fs.item? top = some (.directory [])) :
    fs.scan patterns root = .ok (Folder.root root) := by
  have inOrder := textError?_eq_none_iff.1 (resolve_eq_ok_iff.1 isTop).1
  have short := inOrder.2.2.resolve_left (by decide)
  refine scan_eq_ok_iff.2 ⟨[], lookUp_eq_ok_iff.2 ⟨top, isTop, isEmpty⟩, ?_, rfl⟩
  rw [Item.outOfReach, if_neg (Nat.not_le.2 short)]
  rfl

/-- Where a file is on offer, a scan finds something. -/
theorem scan_ne_root {valid : String → Prop} (tidy : fs.Tidy valid) {top : Location}
    (isTop : fs.resolve .follow root = .ok top) {names : List String}
    (offers : fs.Offers patterns top names) : fs.scan patterns root ≠ .ok (Folder.root root) := by
  intro scanned
  obtain ⟨-, -, records⟩ := scan_records tidy isTop scanned
  have recorded := (records names).2 offers
  cases names with
  | nil => exact Entry.not_records_nil _ recorded
  | cons name rest => exact Entry.records_cons_of_none rfl rest recorded

end FileSystem

end RouteAtlas
