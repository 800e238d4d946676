import RouteAtlas.FileSystem.Basic

/-!
# Items and their locations

What stands where is seen through the item at each location, without what a
directory holds (`FileSystem.seen?`), or only through its kind
(`FileSystem.kind?`). Placing an item under a name of a directory changes what is
seen at and below that name to the item, clearing one makes it vanish, and all
else stays.

A file system is tidy if no directory has a name twice and all names are valid,
in whatever sense is asked for. Placing an item that is tidy itself under a valid
name, and clearing one, keep a file system tidy.
-/

set_option autoImplicit false

namespace RouteAtlas

/-! ## Kinds -/

/-- What kind of item something is; a link is known with its target. -/
inductive ItemKind where
  | file
  | link (target : Path)
  | directory
  deriving DecidableEq, Repr

/-- The kind of an item. -/
def Item.kind : Item → ItemKind
  | .file _ => .file
  | .link target => .link target
  | .directory _ => .directory

/-- An item without what it holds, if it is a directory. -/
def Item.hollow : Item → Item
  | .directory _ => .directory []
  | item => item

/-- The kind of an item does not depend on what it holds. -/
@[simp] theorem Item.kind_hollow (item : Item) : item.hollow.kind = item.kind := by
  cases item <;> rfl

/-- The kind of the item at a location. -/
def FileSystem.kind? (fs : FileSystem) (location : Location) : Option ItemKind :=
  (fs.item? location).map Item.kind

/-- What is seen at a location without going further. -/
def FileSystem.seen? (fs : FileSystem) (location : Location) : Option Item :=
  (fs.item? location).map Item.hollow

/-- The kind is seen. -/
theorem FileSystem.kind?_eq_map_seen? (fs : FileSystem) (location : Location) :
    fs.kind? location = (fs.seen? location).map Item.kind := by
  rw [seen?, Option.map_map]
  exact Option.map_congr fun item _ => item.kind_hollow.symm

/-- Where the same is seen, the kind is the same. -/
theorem FileSystem.kind?_congr {fs other : FileSystem} {location : Location}
    (same : other.seen? location = fs.seen? location) :
    other.kind? location = fs.kind? location := by
  rw [kind?_eq_map_seen?, kind?_eq_map_seen?, same]

namespace Item

/-- An item stands at its own location. -/
@[simp] theorem at?_nil (item : Item) : item.at? [] = some item := by
  cases item <;> rfl

/-- The first name of a location is looked up among the slots. -/
theorem at?_cons (slots : List Slot) (name : String) (rest : Location) :
    (directory slots).at? (name :: rest) = (Slot.find? name slots).bind (·.at? rest) := by
  rw [at?]
  cases Slot.find? name slots <;> rfl

/-- Below a file or a link there is nothing. -/
theorem at?_cons_of_ne {item : Item} (isLeaf : item.kind ≠ .directory) (name : String)
    (rest : Location) : item.at? (name :: rest) = none := by
  cases item with
  | file => rfl
  | link => rfl
  | directory => exact absurd rfl isLeaf

/-- An item is looked up in two parts of its location, one after the other. -/
theorem at?_append (item : Item) (location rest : Location) :
    item.at? (location ++ rest) = (item.at? location).bind (·.at? rest) := by
  induction location generalizing item with
  | nil => simp
  | cons name names ih =>
    cases item with
    | file => rfl
    | link => rfl
    | directory slots =>
      rw [List.cons_append, at?_cons, at?_cons, Option.bind_assoc]
      exact Option.bind_congr fun inner _ => ih inner

/-- The items of this kind are the directories. -/
theorem kind_eq_directory_iff {item : Item} :
    item.kind = .directory ↔ ∃ slots, item = directory slots := by
  cases item <;> simp [kind]

/-- What a directory lies in, or is, is a directory. -/
theorem kind_of_at?_directory {item : Item} {location : Location} {slots : List Slot}
    (found : item.at? location = some (directory slots)) : item.kind = .directory := by
  cases location with
  | nil =>
    rw [at?_nil] at found
    cases found
    rfl
  | cons name rest =>
    refine Decidable.byContradiction fun isLeaf => ?_
    rw [at?_cons_of_ne isLeaf] at found
    cases found

end Item

namespace Slot

/-- An item that is put under a name is found by it, and other names find what they did. -/
theorem find?_put (name : String) (item : Item) (slots : List Slot) (other : String) :
    find? other (put name item slots) =
      if name = other then some item else find? other slots := by
  induction slots with
  | nil => rfl
  | cons slot rest ih =>
    rw [put]
    split
    next isSlot =>
      rw [find?, find?, isSlot]
      split <;> rfl
    next isNot =>
      rw [find?, ih, find?]
      split
      next isOther => rw [if_neg fun same => isNot (isOther.trans same.symm)]
      next => rfl

/-- An item that is put under a name takes the place of the one put there before. -/
theorem put_put (name : String) (item other : Item) (slots : List Slot) :
    put name item (put name other slots) = put name item slots := by
  induction slots with
  | nil => simp [put]
  | cons slot rest ih =>
    rw [put]
    split
    next isSlot => rw [put, if_pos rfl, put, if_pos isSlot]
    next isNot => rw [put, if_neg isNot, ih, put, if_neg isNot]

/-- To edit a directory twice is to do both edits at a time. -/
theorem editAt_editAt (edit again : List Slot → List Slot) (location : Location)
    (slots : List Slot) :
    editAt again location (editAt edit location slots) =
      editAt (fun inner => again (edit inner)) location slots := by
  induction location generalizing slots with
  | nil => rfl
  | cons name rest ih =>
    cases found : find? name slots with
    | none => simp only [editAt, found]
    | some item =>
      cases item with
      | file => simp only [editAt, found]
      | link => simp only [editAt, found]
      | directory inner => simp only [editAt, found, find?_put, if_true, put_put, ih]

/-- A name that is removed finds nothing, and other names find what they did. -/
theorem find?_remove (name : String) (slots : List Slot) (other : String) :
    find? other (remove name slots) = if name = other then none else find? other slots := by
  induction slots with
  | nil => simp [remove, find?]
  | cons slot rest ih =>
    rw [remove] at ih ⊢
    by_cases isSlot : slot.name = name
    · rw [List.filter_cons_of_neg (by simp [isSlot]), ih, find?, isSlot]
      split <;> rfl
    · rw [List.filter_cons_of_pos (by simp [isSlot]), find?, ih, find?]
      by_cases isOther : slot.name = other
      · rw [if_pos isOther, if_pos isOther, if_neg fun same => isSlot (isOther.trans same.symm)]
      · rw [if_neg isOther, if_neg isOther]

/-- An item that is found has its slot among the slots. -/
theorem mem_of_find? {name : String} {slots : List Slot} {item : Item}
    (found : find? name slots = some item) : ⟨name, item⟩ ∈ slots := by
  induction slots with
  | nil => cases found
  | cons slot rest ih =>
    obtain ⟨first, inner⟩ := slot
    rw [find?] at found
    split at found
    next isSlot =>
      cases found
      cases isSlot
      exact List.mem_cons_self
    next => exact List.mem_cons_of_mem _ (ih found)

/-- An item is found by the name of its slot, if no other slot has it. -/
theorem find?_of_mem {slots : List Slot} (distinct : (slots.map Slot.name).Nodup)
    {slot : Slot} (member : slot ∈ slots) : find? slot.name slots = some slot.item := by
  induction slots with
  | nil => cases member
  | cons first rest ih =>
    obtain ⟨isNew, distinctRest⟩ := List.nodup_cons.1 distinct
    rw [find?]
    rcases List.mem_cons.1 member with rfl | later
    · exact if_pos rfl
    · rw [if_neg, ih distinctRest later]
      intro same
      rw [same] at isNew
      exact isNew (List.mem_map_of_mem later)

/-- To put an item under a name adds the name at the end, unless it is there. -/
theorem names_put (name : String) (item : Item) (slots : List Slot) :
    (put name item slots).map Slot.name =
      if name ∈ slots.map Slot.name then slots.map Slot.name
      else slots.map Slot.name ++ [name] := by
  induction slots with
  | nil => rfl
  | cons slot rest ih =>
    rw [put]
    by_cases isSlot : slot.name = name
    · simp [isSlot]
    · have isOther : name ≠ slot.name := Ne.symm isSlot
      rw [if_neg isSlot, List.map_cons, ih, List.map_cons]
      simp only [List.mem_cons, isOther, false_or]
      split <;> rfl

/-- The slots after an item is put are the new one and old ones. -/
theorem mem_put {name : String} {item : Item} {slots : List Slot} {slot : Slot}
    (member : slot ∈ put name item slots) : slot = ⟨name, item⟩ ∨ slot ∈ slots := by
  induction slots with
  | nil => exact .inl (List.mem_singleton.1 member)
  | cons first rest ih =>
    rw [put] at member
    split at member
    next =>
      rcases List.mem_cons.1 member with new | later
      · exact .inl new
      · exact .inr (List.mem_cons_of_mem _ later)
    next =>
      rcases List.mem_cons.1 member with isFirst | later
      · exact .inr (isFirst ▸ List.mem_cons_self)
      · exact (ih later).imp_right (List.mem_cons_of_mem _)

/-- An edited listing stands where the listing stood. -/
theorem at?_editAt (edit : List Slot → List Slot) {location : Location}
    {slots inner : List Slot}
    (found : (Item.directory slots).at? location = some (.directory inner)) :
    (Item.directory (editAt edit location slots)).at? location =
      some (.directory (edit inner)) := by
  induction location generalizing slots with
  | nil =>
    cases found
    rfl
  | cons name rest ih =>
    rw [Item.at?_cons] at found
    obtain ⟨item, isHere, isBelow⟩ := Option.bind_eq_some_iff.1 found
    obtain ⟨below, rfl⟩ := Item.kind_eq_directory_iff.1 (Item.kind_of_at?_directory isBelow)
    rw [editAt, isHere]
    simp only [Item.at?_cons, find?_put, if_true, Option.bind_some]
    exact ih isBelow

/-- Editing a listing keeps all items that are not below it, as they are seen. -/
theorem hollow_editAt_apart (edit : List Slot → List Slot) {location other : Location}
    (slots : List Slot) (elsewhere : ¬ location <+: other) :
    ((Item.directory (editAt edit location slots)).at? other).map Item.hollow =
      ((Item.directory slots).at? other).map Item.hollow := by
  induction location generalizing other slots with
  | nil => exact absurd List.nil_prefix elsewhere
  | cons name rest ih =>
    rw [editAt]
    split
    next below isHere =>
      cases other with
      | nil => rfl
      | cons first others =>
        rw [Item.at?_cons, Item.at?_cons, find?_put]
        split
        next same =>
          subst same
          rw [isHere]
          exact ih below fun before => elsewhere (List.cons_prefix_cons.2 ⟨rfl, before⟩)
        next => rfl
    next => rfl

end Slot

namespace FileSystem

variable {fs : FileSystem}

/-- What stands below an item is looked up from the item. -/
theorem item?_append (fs : FileSystem) (location rest : Location) :
    fs.item? (location ++ rest) = (fs.item? location).bind (·.at? rest) :=
  Item.at?_append _ location rest

/-- The kinds below an item are looked up from the item. -/
theorem kind?_append {location : Location} {item : Item}
    (found : fs.item? location = some item) (rest : Location) :
    fs.kind? (location ++ rest) = (item.at? rest).map Item.kind := by
  rw [kind?, item?_append, found, Option.bind_some]

/-- What is seen below an item is looked up from the item. -/
theorem seen?_append {location : Location} {item : Item}
    (found : fs.item? location = some item) (rest : Location) :
    fs.seen? (location ++ rest) = (item.at? rest).map Item.hollow := by
  rw [seen?, item?_append, found, Option.bind_some]

/-- At a location of this kind stands a directory. -/
theorem kind?_eq_directory_iff {location : Location} :
    fs.kind? location = some .directory ↔
      ∃ slots, fs.item? location = some (.directory slots) := by
  rw [kind?, Option.map_eq_some_iff]
  constructor
  · rintro ⟨item, found, isDirectory⟩
    obtain ⟨slots, rfl⟩ := Item.kind_eq_directory_iff.1 isDirectory
    exact ⟨slots, found⟩
  · rintro ⟨slots, found⟩
    exact ⟨_, found, rfl⟩

/-- What stands above an item is a directory. -/
theorem kind?_of_append {location rest : Location} (more : rest ≠ [])
    (present : fs.kind? (location ++ rest) ≠ none) :
    fs.kind? location = some .directory := by
  rw [kind?, item?_append] at present
  cases found : fs.item? location with
  | none =>
    rw [found] at present
    exact absurd rfl present
  | some item =>
    obtain ⟨name, names, rfl⟩ := List.exists_cons_of_ne_nil more
    rw [kind?, found, Option.map_some]
    refine congrArg some (Decidable.byContradiction fun isLeaf => present ?_)
    rw [found, Option.bind_some, Item.at?_cons_of_ne isLeaf]
    rfl

/-- Below nothing there is nothing. -/
theorem kind?_append_of_none {location : Location} (free : fs.kind? location = none)
    (rest : Location) : fs.kind? (location ++ rest) = none := by
  rw [kind?, Option.map_eq_none_iff] at free
  rw [kind?, item?_append, free]
  rfl

/-! ## Placing and clearing -/

/-- To place an item is to put it into its directory. -/
theorem place_append (fs : FileSystem) (parent : Location) (name : String) (item : Item) :
    fs.place (parent ++ [name]) item =
      { fs with top := Slot.editAt (Slot.put name item) parent fs.top } := by
  rw [place, List.getLast?_concat, List.dropLast_concat]

/-- To clear a location is to remove the name from its directory. -/
theorem clear_append (fs : FileSystem) (parent : Location) (name : String) :
    fs.clear (parent ++ [name]) =
      { fs with top := Slot.editAt (Slot.remove name) parent fs.top } := by
  rw [clear, List.getLast?_concat, List.dropLast_concat]

/-- Whether a location is a name of a directory, taken or not. -/
def HasRoom (fs : FileSystem) (location : Location) : Prop :=
  ∃ parent name, location = parent ++ [name] ∧ fs.kind? parent = some .directory

/-- There is room for another item where one stands. -/
theorem hasRoom_of_present {location : Location} (below : location ≠ [])
    (present : fs.kind? location ≠ none) : fs.HasRoom location := by
  obtain ⟨parent, name, rfl⟩ := List.eq_nil_or_concat location |>.resolve_left below
  rw [List.concat_eq_append] at present ⊢
  exact ⟨parent, name, rfl, kind?_of_append (List.cons_ne_nil _ _) present⟩

/-- Above a place with room stand only directories. -/
theorem HasRoom.above {location before : Location} (room : fs.HasRoom location)
    (isBefore : before <+: location) (proper : before ≠ location) :
    fs.kind? before = some .directory := by
  obtain ⟨parent, name, rfl, isDirectory⟩ := room
  obtain ⟨rest, rfl⟩ := (List.prefix_concat_iff.1 isBefore).resolve_left proper
  by_cases last : rest = []
  · rwa [last, List.append_nil] at isDirectory
  · exact kind?_of_append last (by rw [isDirectory]; exact nofun)

/-- An edit of one name of a directory keeps all that is seen, but not at or below
that name. -/
theorem seen?_editAt_apart {edit : List Slot → List Slot} {parent : Location}
    {name : String} (isDirectory : fs.kind? parent = some .directory)
    (others : ∀ slots other, name ≠ other →
      Slot.find? other (edit slots) = Slot.find? other slots)
    {location : Location} (elsewhere : ¬ parent ++ [name] <+: location) :
    ({ fs with top := Slot.editAt edit parent fs.top } : FileSystem).seen? location =
      fs.seen? location := by
  obtain ⟨slots, found⟩ := kind?_eq_directory_iff.1 isDirectory
  by_cases inside : parent <+: location
  · obtain ⟨rest, rfl⟩ := inside
    have edited : ({ fs with top := Slot.editAt edit parent fs.top } : FileSystem).item? parent =
        some (.directory (edit slots)) := Slot.at?_editAt edit found
    rw [seen?_append edited, seen?_append found]
    cases rest with
    | nil => rfl
    | cons first rest =>
      have different : name ≠ first := by
        rintro rfl
        exact elsewhere ⟨rest, by rw [List.append_assoc, List.singleton_append]⟩
      rw [Item.at?_cons, Item.at?_cons, others slots first different]
  · exact Slot.hollow_editAt_apart edit fs.top inside

/-- At and below the place of an item stands what the item holds. -/
theorem item?_place {location : Location} (room : fs.HasRoom location) (item : Item)
    (rest : Location) :
    (fs.place location item).item? (location ++ rest) = item.at? rest := by
  obtain ⟨parent, name, rfl, isDirectory⟩ := room
  obtain ⟨slots, found⟩ := kind?_eq_directory_iff.1 isDirectory
  have edited : (fs.place (parent ++ [name]) item).item? parent =
      some (.directory (Slot.put name item slots)) := by
    rw [place_append]
    exact Slot.at?_editAt _ found
  rw [List.append_assoc, item?_append, edited, Option.bind_some, List.singleton_append,
    Item.at?_cons, Slot.find?_put, if_pos rfl, Option.bind_some]

/-- Placing an item keeps what is seen elsewhere. -/
theorem seen?_place_apart {location other : Location} (room : fs.HasRoom location)
    (item : Item) (elsewhere : ¬ location <+: other) :
    (fs.place location item).seen? other = fs.seen? other := by
  obtain ⟨parent, name, rfl, isDirectory⟩ := room
  rw [place_append]
  refine seen?_editAt_apart isDirectory (fun slots other different => ?_) elsewhere
  rw [Slot.find?_put, if_neg different]

/-- To place an item does not change the kinds elsewhere. -/
theorem kind?_place_apart {location other : Location} (room : fs.HasRoom location)
    (item : Item) (elsewhere : ¬ location <+: other) :
    (fs.place location item).kind? other = fs.kind? other :=
  kind?_congr (seen?_place_apart room item elsewhere)

/-- Clearing a location removes what stands there and below, and nothing
else. -/
theorem kind?_clear {location : Location} (room : fs.HasRoom location) (other : Location) :
    (fs.clear location).kind? other = if location <+: other then none else fs.kind? other := by
  obtain ⟨parent, name, rfl, isDirectory⟩ := room
  split
  next below =>
    obtain ⟨rest, rfl⟩ := below
    obtain ⟨slots, found⟩ := kind?_eq_directory_iff.1 isDirectory
    have edited : (fs.clear (parent ++ [name])).item? parent =
        some (.directory (Slot.remove name slots)) := by
      rw [clear_append]
      exact Slot.at?_editAt _ found
    rw [List.append_assoc, kind?_append edited, List.singleton_append, Item.at?_cons,
      Slot.find?_remove, if_pos rfl]
    rfl
  next elsewhere =>
    rw [clear_append]
    refine kind?_congr (seen?_editAt_apart isDirectory (fun slots other different => ?_) elsewhere)
    rw [Slot.find?_remove, if_neg different]

end FileSystem

/-! ## Tidy file systems -/

/-- An item in which no directory has a name twice and all names are valid. -/
inductive Item.Tidy (valid : String → Prop) : Item → Prop
  | file (contents : String) : Item.Tidy valid (.file contents)
  | link (target : Path) : Item.Tidy valid (.link target)
  | directory (slots : List Slot) (distinct : (slots.map Slot.name).Nodup)
      (named : ∀ slot ∈ slots, valid slot.name)
      (inside : ∀ slot ∈ slots, slot.item.Tidy valid) : Item.Tidy valid (.directory slots)

/-- A file system in which no directory has a name twice and all names are
valid. -/
def FileSystem.Tidy (valid : String → Prop) (fs : FileSystem) : Prop :=
  (Item.directory fs.top).Tidy valid

variable {valid : String → Prop}

namespace Item.Tidy

variable {slots : List Slot}

/-- A tidy directory has no name twice. -/
theorem distinct_names (tidy : (Item.directory slots).Tidy valid) :
    (slots.map Slot.name).Nodup := by
  cases tidy
  assumption

/-- A tidy directory has valid names only. -/
theorem valid_names (tidy : (Item.directory slots).Tidy valid) :
    ∀ slot ∈ slots, valid slot.name := by
  cases tidy
  assumption

/-- A tidy directory holds tidy items. -/
theorem items (tidy : (Item.directory slots).Tidy valid) :
    ∀ slot ∈ slots, slot.item.Tidy valid := by
  cases tidy
  assumption

/-- An empty directory is tidy. -/
theorem nil : (Item.directory []).Tidy valid := .directory [] .nil nofun nofun

/-- A directory stays tidy if a tidy item is added under a new valid name. -/
theorem cons {name : String} (isValid : valid name) (isNew : name ∉ slots.map Slot.name)
    {item : Item} (tidyItem : item.Tidy valid) (tidy : (Item.directory slots).Tidy valid) :
    (Item.directory (⟨name, item⟩ :: slots)).Tidy valid := by
  refine .directory _ (List.nodup_cons.2 ⟨isNew, tidy.distinct_names⟩) ?_ ?_ <;>
    rw [List.forall_mem_cons]
  · exact ⟨isValid, tidy.valid_names⟩
  · exact ⟨tidyItem, tidy.items⟩

/-- A directory with a single tidy item under a valid name is tidy. -/
theorem single {name : String} (isValid : valid name) {item : Item} (tidy : item.Tidy valid) :
    (Item.directory [⟨name, item⟩]).Tidy valid :=
  .cons isValid List.not_mem_nil tidy .nil

/-- What is tidy in a strict sense is so in any looser one. -/
theorem mono {item : Item} (tidy : item.Tidy valid) {allowed : String → Prop}
    (implies : ∀ name, valid name → allowed name) : item.Tidy allowed := by
  induction tidy with
  | file contents => exact .file contents
  | link target => exact .link target
  | directory slots distinct named _ ih =>
    exact .directory slots distinct (fun slot member => implies _ (named slot member)) ih

/-- What a tidy directory holds under a name is tidy. -/
theorem of_find? (tidy : (Item.directory slots).Tidy valid) {name : String} {item : Item}
    (found : Slot.find? name slots = some item) : item.Tidy valid :=
  tidy.items _ (Slot.mem_of_find? found)

/-- What stands anywhere below a tidy item is tidy. -/
theorem of_at? {item inner : Item} {location : Location} (tidy : item.Tidy valid)
    (found : item.at? location = some inner) : inner.Tidy valid := by
  induction location generalizing item with
  | nil =>
    rw [at?_nil] at found
    cases found
    exact tidy
  | cons name rest ih =>
    cases item with
    | file => cases found
    | link => cases found
    | directory slots =>
      rw [at?_cons] at found
      obtain ⟨next, isNext, isBelow⟩ := Option.bind_eq_some_iff.1 found
      exact ih (tidy.of_find? isNext) isBelow

/-- All names on the way to an item of a tidy directory are valid. -/
theorem valid_of_at? {item inner : Item} {location : Location} (tidy : item.Tidy valid)
    (found : item.at? location = some inner) : ∀ name ∈ location, valid name := by
  induction location generalizing item with
  | nil => exact fun _ member => absurd member List.not_mem_nil
  | cons first rest ih =>
    cases item with
    | file => cases found
    | link => cases found
    | directory slots =>
      rw [at?_cons] at found
      obtain ⟨next, isNext, isBelow⟩ := Option.bind_eq_some_iff.1 found
      intro name member
      rcases List.mem_cons.1 member with rfl | later
      · exact tidy.valid_names _ (Slot.mem_of_find? isNext)
      · exact ih (tidy.of_find? isNext) isBelow name later

/-- A tidy directory stays so if a tidy item is put under a valid name. -/
theorem put (tidy : (Item.directory slots).Tidy valid) {name : String} (isValid : valid name)
    {item : Item} (tidyItem : item.Tidy valid) :
    (Item.directory (Slot.put name item slots)).Tidy valid := by
  refine .directory _ ?_ ?_ ?_
  · rw [Slot.names_put]
    split
    next => exact tidy.distinct_names
    next isNew =>
      refine List.nodup_append.2 ⟨tidy.distinct_names, List.pairwise_singleton _ _, ?_⟩
      rintro other member _ last rfl
      exact isNew (List.mem_singleton.1 last ▸ member)
  · intro slot member
    rcases Slot.mem_put member with rfl | old
    · exact isValid
    · exact tidy.valid_names slot old
  · intro slot member
    rcases Slot.mem_put member with rfl | old
    · exact tidyItem
    · exact tidy.items slot old

/-- A tidy directory stays so if a name is removed. -/
theorem remove (tidy : (Item.directory slots).Tidy valid) (name : String) :
    (Item.directory (Slot.remove name slots)).Tidy valid := by
  have kept : (Slot.remove name slots).Sublist slots := List.filter_sublist
  exact .directory _ (tidy.distinct_names.sublist (kept.map Slot.name))
    (fun slot member => tidy.valid_names slot (kept.subset member))
    (fun slot member => tidy.items slot (kept.subset member))

/-- A tidy directory stays so if a directory below it is changed in a way that keeps it
tidy. -/
theorem editAt (tidy : (Item.directory slots).Tidy valid) {edit : List Slot → List Slot}
    (keeps : ∀ inner, (Item.directory inner).Tidy valid → (Item.directory (edit inner)).Tidy valid)
    (location : Location) : (Item.directory (Slot.editAt edit location slots)).Tidy valid := by
  induction location generalizing slots with
  | nil => exact keeps slots tidy
  | cons name rest ih =>
    rw [Slot.editAt]
    split
    next below isHere =>
      exact tidy.put (tidy.valid_names _ (Slot.mem_of_find? isHere)) (ih (tidy.of_find? isHere))
    next => exact tidy

end Item.Tidy

namespace FileSystem.Tidy

variable {fs : FileSystem}

/-- A tidy file system stays so if a tidy item is placed under a valid name. -/
theorem place (tidy : fs.Tidy valid) {location : Location}
    (isValid : ∀ name ∈ location.getLast?, valid name) {item : Item}
    (tidyItem : item.Tidy valid) : (fs.place location item).Tidy valid := by
  rw [FileSystem.place]
  split
  next name isLast =>
    exact Item.Tidy.editAt tidy (fun _ inner => inner.put (isValid name isLast) tidyItem) _
  next => exact tidy

/-- A tidy file system stays so if a location is cleared. -/
theorem clear (tidy : fs.Tidy valid) (location : Location) :
    (fs.clear location).Tidy valid := by
  rw [FileSystem.clear]
  split
  next name _ => exact Item.Tidy.editAt tidy (fun _ inner => inner.remove name) _
  next => exact tidy

end FileSystem.Tidy

end RouteAtlas
