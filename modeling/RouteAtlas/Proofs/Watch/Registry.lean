import RouteAtlas.Proofs.Registry.Owners
import RouteAtlas.Proofs.Watch.Incremental
import RouteAtlas.Watch.Batch

/-!
# Several apps

An event goes to one app, the owner of its path, although a scan of every app whose root
holds the path sees the change. So after a file is written or an item is removed, and the
notice of it is handled, the owner has the tree that a fresh scan gives, and so has every
app whose root does not hold the path; an app around the owner, or with an equal root,
keeps the tree it had (`Registry.process_keeps_in_step`). The registry tells the owner's
name exactly if the owner's tree has changed.

Two views of the path are brought together. The owner is chosen by components
(`Registry.Owns`): its root lies between any other root above the path and the path, so
that the path is spelled below it by the last of the names. A scan goes by locations: what
the change leaves alone is told by its place (`FileSystem.Confined`).
-/

set_option autoImplicit false

namespace RouteAtlas

/-! ## Changes at a place -/

namespace FileSystem

variable {fs other : FileSystem} {patterns : List String} {root path : Path}
  {top place : Location} {tree next : Folder} {names : List String}

/-- A file is new at a place, or an item is removed there, and a notice of this kind tells
it. The path leads to the place. -/
inductive Reported (fs : FileSystem) (path : Path) (place : Location) :
    NoticeKind → FileSystem → Prop
  | created {other : FileSystem} {contents : String} (free : fs.kind? place = none)
      (written : fs.write path contents = .ok other) : Reported fs path place .created other
  | removed {other : FileSystem} (removed : fs.apply (.remove path) = .ok other) :
      Reported fs path place .removed other

/-- Two file systems differ only at a place and below it, where the second one has no
directory. -/
structure Confined (fs other : FileSystem) (place : Location) : Prop where
  elsewhere : ∀ location, ¬ place <+: location → other.kind? location = fs.kind? location
  noDirectory : ∀ location, place <+: location → other.kind? location ≠ some .directory
  distinct : fs.Distinct → other.Distinct

/-- A change that is confined to a place makes no directory. -/
theorem Confined.directory (confined : Confined fs other place) {location : Location}
    (isDirectory : other.kind? location = some .directory) :
    fs.kind? location = some .directory := by
  rw [← confined.elsewhere location fun inside =>
    confined.noDirectory location inside isDirectory]
  exact isDirectory

/-- Below a directory that stays and does not hold the place, nothing changes. -/
theorem Confined.kind?_apart (confined : Confined fs other place)
    (isDirectory : other.kind? top = some .directory) (outside : ¬ top <+: place)
    (names : List String) : other.kind? (top ++ names) = fs.kind? (top ++ names) := by
  refine confined.elsewhere _ fun inside => ?_
  rcases List.prefix_or_prefix_of_prefix inside (List.prefix_append top names) with gone | holds
  · exact confined.noDirectory top gone isDirectory
  · exact outside holds

/-- To place a file is confined to the place. -/
theorem confined_place {contents : String} (room : fs.HasRoom place) :
    Confined fs (fs.place place (.file contents)) place where
  elsewhere _ outside := kind?_place_apart room _ outside
  noDirectory := by
    rintro _ ⟨rest, rfl⟩
    rw [kind?, item?_place room]
    cases rest <;> simp [Item.at?, Item.kind]
  distinct distinct := distinct.place (fun _ _ => trivial) (.file contents)

/-- To clear a place is confined to it. -/
theorem confined_clear (room : fs.HasRoom place) : Confined fs (fs.clear place) place where
  elsewhere location outside := by rw [kind?_clear room, if_neg outside]
  noDirectory location inside := by
    rw [kind?_clear room, if_pos inside]
    exact nofun
  distinct distinct := distinct.clear place

/-- What is reported at a place below a root, through no link, is confined to it. -/
theorem Reported.confined {kind : NoticeKind} (rootAt : fs.RootAt root top)
    (spells : root.Spells path names) (below : names ≠ []) (plain : fs.Plain top names)
    (reported : fs.Reported path (top ++ names) kind other) :
    Confined fs other (top ++ names) := by
  cases reported with
  | created free written =>
    obtain ⟨room, rfl, -⟩ := place_of_write rootAt spells below plain free written
    exact confined_place room
  | removed removed =>
    obtain ⟨room, rfl⟩ := clear_of_apply_remove rootAt spells below plain removed
    exact confined_clear room

/-! ## Scans -/

/-- The tree of a root that stays and does not hold the place of a change stays what a scan
gives. -/
theorem Confined.scan_apart (confined : Confined fs other place) (distinct : fs.Distinct)
    (rootAt : fs.RootAt root top) (stays : other.RootAt root top) (outside : ¬ top <+: place)
    (scanned : fs.scan patterns root = .ok tree) : other.scan patterns root = .ok tree := by
  have mirrored := MirroredBy.of_scan distinct rootAt.1 scanned
  have mirroredOn : other.MirroredBy patterns root top tree := by
    refine ⟨confined.distinct distinct, stays, mirrored.label, mirrored.canonical, ?_⟩
    intro names
    rw [mirrored.records, Offers, Offers, confined.kind?_apart stays.2 outside]
  exact mirroredOn.scan rootAt scanned fun _ => confined.directory

/-- The event of a notice keeps the tree of a root that stays mirroring the files, if the
path is spelled below the root through no link. -/
theorem Reported.step {kind : NoticeKind} (mirrored : fs.MirroredBy patterns root top tree)
    (spells : root.Spells path names) (below : names ≠ []) (plain : fs.Plain top names)
    (reported : fs.Reported path (top ++ names) kind other) (stays : other.RootAt root top) :
    ∃ event, Notice.events ⟨kind, [path]⟩ other = [(path, event)] ∧
      other.affected patterns path event = [path] ∧
      other.MirroredBy patterns root top (tree.edited patterns names event).1 := by
  have confined := reported.confined mirrored.rootAt spells below plain
  have distinct := confined.distinct mirrored.distinct
  cases reported with
  | created free written =>
    obtain ⟨room, rfl, isFile⟩ := place_of_write mirrored.rootAt spells below plain free written
    refine ⟨.create, rfl, by rw [affected, createdFiles, isFile], distinct, stays, ?_, ?_,
      mirrored.records_create (files_of_place room (by simp [free]))⟩
    · rw [Folder.edited_label, mirrored.label]
    · exact mirrored.canonical.edited _ _ _
  | removed removed =>
    obtain ⟨-, -, files⟩ := apply_remove_below mirrored.rootAt spells below plain removed
    refine ⟨.delete, rfl, rfl, distinct, stays, ?_, ?_, mirrored.records_delete below files⟩
    · rw [Folder.edited_label, mirrored.label]
    · exact mirrored.canonical.edited _ _ _

end FileSystem

/-! ## Registries -/

namespace Registry

variable {fs : FileSystem} {path : Path} {registry : Registry} {position : Nat}
  {owner app : App} {top ownTop : Location} {names : List String}

/-- Every app has the tree that a fresh scan of its root gives. -/
def InStep (registry : Registry) (fs : FileSystem) : Prop :=
  ∀ app ∈ registry.apps, fs.scan registry.patterns app.root = .ok app.tree

instance (registry : Registry) (fs : FileSystem) : Decidable (registry.InStep fs) :=
  inferInstanceAs (Decidable
    (∀ app ∈ registry.apps, fs.scan registry.patterns app.root = .ok app.tree))

/-- A notice that stands for one event on one path hands it to the registry. -/
theorem process_one {notice : Notice} {event : Event}
    (events : notice.events fs = [(path, event)])
    (affected : fs.affected registry.patterns path event = [path]) :
    registry.process fs [.notice notice] = Progress.applyOne ⟨registry, []⟩ event path := by
  simp only [process, List.foldl_cons, List.foldl_nil, Progress.applyReport, events,
    Progress.applyEvent, affected]

/-- An event on a path changes the tree of the owner, and tells the owner's name if it
does. -/
theorem applyOne_of_owns (isPosition : registry.ownerPosition? path = some position)
    (owns : Owns path registry.apps position owner) (label : owner.tree.label.path = owner.root)
    (spells : owner.root.Spells path names) (event : Event) :
    Progress.applyOne ⟨registry, []⟩ event path =
      ⟨registry.withTree position (owner.tree.edited registry.patterns names event).1,
        if (owner.tree.edited registry.patterns names event).2 then [owner.name] else []⟩ := by
  have applied : registry.apply path event =
      .ok (registry.withTree position (owner.tree.edited registry.patterns names event).1,
        if (owner.tree.edited registry.patterns names event).2 then some owner.name
        else none) := by
    rw [apply, isPosition]
    simp only [owns.atPosition]
    rw [Folder.apply_of_spells (by rwa [label])]
    rfl
  rw [Progress.applyOne, applied]
  cases (owner.tree.edited registry.patterns names event).2 <;> rfl

/-- A path that is spelled below the root of some app through no link is spelled so below
the root of its owner. -/
theorem Owns.located (owns : Owns path registry.apps position owner)
    (member : app ∈ registry.apps) (rootAt : fs.RootAt app.root top)
    (spells : app.root.Spells path names) (plain : fs.Plain top names)
    (ownerAt : fs.RootAt owner.root ownTop) :
    ∃ rest, owner.root.Spells path rest ∧ top ++ names = ownTop ++ rest ∧
      fs.Plain ownTop rest := by
  obtain ⟨front, rest, spellsOwner, spellsRest, rfl⟩ :=
    spells.between (owns.prefix_root member spells.isBelow) owns.isBelow
  obtain rfl := rootAt.eq_append_of_plain spellsOwner (plain.front (List.prefix_append _ _))
    ownerAt
  refine ⟨rest, spellsRest, (List.append_assoc _ _ _).symm, fun before isBefore => ?_⟩
  rw [List.append_assoc]
  exact plain _ ((List.prefix_append_right_inj front).2 isBefore)

/-- All roots stay over a change. -/
def RootsStay (registry : Registry) (fs other : FileSystem) : Prop :=
  ∀ app ∈ registry.apps, ∀ top, fs.RootAt app.root top → other.RootAt app.root top

/-- All roots stay where they are when an item is placed at a free place. -/
theorem RootsStay.place {place : Location} (room : fs.HasRoom place)
    (free : fs.kind? place = none) (item : Item) : registry.RootsStay fs (fs.place place item) :=
  fun _ _ _ rootAt => rootAt.mono
    (fun _ _ isKind => FileSystem.kind?_place_of_free room free item isKind)
    (FileSystem.place_workingDirectory fs place item)

/-- If a new file or a removed item is reported at a place below the root of some app, and
all roots stay, then afterwards the owner of the path has the tree that a fresh scan gives,
and so has every app whose root does not hold the place. The owner is the only app whose
tree can have changed, and the one that is told if it has. -/
theorem process_keeps_in_step (registry : Registry) (fs other : FileSystem) (path : Path)
    (kind : NoticeKind) (app : App) (top : Location) (names : List String)
    (distinct : fs.Distinct) (inStep : registry.InStep fs) (member : app ∈ registry.apps)
    (rootAt : fs.RootAt app.root top) (spells : app.root.Spells path names)
    (below : names ≠ []) (plain : fs.Plain top names)
    (reported : fs.Reported path (top ++ names) kind other)
    (stay : registry.RootsStay fs other) :
    ∃ position owner next, registry.ownerPosition? path = some position ∧
      Owns path registry.apps position owner ∧
      (registry.process other [.notice ⟨kind, [path]⟩]).registry =
        registry.withTree position next ∧
      other.scan registry.patterns owner.root = .ok next ∧
      (∀ app ∈ registry.apps, ∀ holder, fs.RootAt app.root holder →
        ¬ holder <+: top ++ names → other.scan registry.patterns app.root = .ok app.tree) ∧
      ∀ name, name ∈ (registry.process other [.notice ⟨kind, [path]⟩]).changed ↔
        name = owner.name ∧ next ≠ owner.tree := by
  obtain ⟨position, owner, isPosition, owns⟩ := exists_owns member spells.isBelow
  have isOwner : owner ∈ registry.apps := List.mem_of_getElem? owns.atPosition
  have scanned := inStep owner isOwner
  obtain ⟨ownTop, ownerAt⟩ := FileSystem.exists_rootAt_of_scan scanned
  have ownerStays := stay owner isOwner ownTop ownerAt
  have confined := reported.confined rootAt spells below plain
  obtain ⟨rest, spellsRest, isPlace, plainRest⟩ :=
    owns.located member rootAt spells plain ownerAt
  rw [isPlace] at reported confined ⊢
  have more : rest ≠ [] := by
    rintro rfl
    rw [List.append_nil] at confined
    exact confined.noDirectory _ List.prefix_rfl ownerStays.2
  have mirrored := FileSystem.MirroredBy.of_scan distinct ownerAt.1 scanned
  obtain ⟨event, events, affected, mirroredNext⟩ :=
    reported.step mirrored spellsRest more plainRest ownerStays
  have changed := Folder.edited_changed_iff_ne mirrored.canonical registry.patterns rest event
  rw [process_one events affected,
    applyOne_of_owns isPosition owns (by rw [mirrored.label]; rfl) spellsRest event]
  refine ⟨position, owner, (owner.tree.edited registry.patterns rest event).1, isPosition, owns,
    rfl, mirroredNext.scan ownerAt scanned fun _ => confined.directory, ?_, fun name => ?_⟩
  · intro app member holder holderAt outside
    exact confined.scan_apart distinct holderAt (stay app member holder holderAt) outside
      (inStep app member)
  · rw [← changed]
    cases (owner.tree.edited registry.patterns rest event).2 <;> simp

/-- A file is made in the directory of an app inside another one, and a third app stands
apart. -/
theorem process_keeps_in_step_nested :
    let fs : FileSystem :=
      ⟨[⟨"r", .directory [⟨"n", .directory []⟩]⟩, ⟨"s", .directory []⟩], []⟩
    let outer : App := ⟨"outer", ⟨"r"⟩, Folder.root ⟨"r"⟩⟩
    let inner : App := ⟨"inner", ⟨"r/n"⟩, Folder.root ⟨"r/n"⟩⟩
    let apart : App := ⟨"apart", ⟨"s"⟩, Folder.root ⟨"s"⟩⟩
    let registry : Registry := ⟨[outer, inner, apart], []⟩
    let path : Path := ⟨"r/n/a.entrypoint.js"⟩
    let other : FileSystem := fs.place ["r", "n", "a.entrypoint.js"] (.file "")
    fs.Distinct ∧ registry.InStep fs ∧ fs.RootAt outer.root ["r"] ∧
      outer.root.Spells path ["n", "a.entrypoint.js"] ∧
      fs.Plain ["r"] ["n", "a.entrypoint.js"] ∧
      fs.Reported path ["r", "n", "a.entrypoint.js"] .created other ∧
      registry.RootsStay fs other ∧
      ∃ next, (registry.process other [.notice ⟨.created, [path]⟩]).registry =
          registry.withTree 1 next ∧
        other.scan [] inner.root = .ok next ∧ other.scan [] apart.root = .ok apart.tree ∧
        "inner" ∈ (registry.process other [.notice ⟨.created, [path]⟩]).changed := by
  intro fs outer inner apart registry path other
  have distinct : fs.Distinct :=
    .cons trivial (by decide) (.single trivial .nil) (.single trivial .nil)
  have inStep : registry.InStep fs := by decide +kernel
  have rootAt : fs.RootAt outer.root ["r"] := by constructor <;> decide +kernel
  have apartAt : fs.RootAt apart.root ["s"] := by constructor <;> decide +kernel
  have spells : outer.root.Spells path ["n", "a.entrypoint.js"] :=
    ⟨[.name "n", .name "a.entrypoint.js"], by decide +kernel, rfl⟩
  have room : fs.HasRoom ["r", "n", "a.entrypoint.js"] := ⟨["r", "n"], _, rfl, rfl⟩
  have plain : fs.Plain ["r"] ["n", "a.entrypoint.js"] := .of_room room rfl
  have resolved : fs.resolve .create path = .ok ["r", "n", "a.entrypoint.js"] := by
    decide +kernel
  have written : fs.write path "" = .ok other :=
    FileSystem.write_eq_ok_iff.2 ⟨_, resolved, nofun, rfl⟩
  have reported : fs.Reported path ["r", "n", "a.entrypoint.js"] .created other :=
    .created rfl written
  have stay : registry.RootsStay fs other := .place room rfl _
  obtain ⟨position, owner, next, isPosition, owns, after, scanned, others, changed⟩ :=
    process_keeps_in_step registry fs other path .created outer ["r"] ["n", "a.entrypoint.js"]
      distinct inStep List.mem_cons_self rootAt spells (by decide) plain reported stay
  cases isPosition.symm.trans (by decide +kernel : registry.ownerPosition? path = some 1)
  cases owns.atPosition
  have isApart := others apart (by simp [registry]) ["s"] apartAt (by decide)
  have isNew : other.scan [] inner.root ≠ .ok inner.tree := by decide +kernel
  have told := (changed "inner").2 ⟨rfl, fun same => isNew (same ▸ scanned)⟩
  exact ⟨distinct, inStep, rootAt, spells, plain, reported, stay, next, after, scanned, isApart,
    told⟩

/-- A registry that is in step with the files falls behind when a new file below the root
of one of its apps is reported, although all roots stay. -/
def FallsBehind (registry : Registry) (fs : FileSystem) (path : Path) (place : Location) : Prop :=
  ∃ other app top, fs.Distinct ∧ registry.InStep fs ∧ app ∈ registry.apps ∧
    app.root.isBelow path = true ∧ fs.RootAt app.root top ∧ top <+: place ∧ top ≠ place ∧
    fs.Reported path place .created other ∧ registry.RootsStay fs other ∧
    ¬ (registry.process other [.notice ⟨.created, [path]⟩]).registry.InStep other

/-- An app falls behind if, after a file is written below its root, the registry is not in
step. -/
theorem FallsBehind.of_write {place : Location} (distinct : fs.Distinct)
    (inStep : registry.InStep fs) (member : app ∈ registry.apps)
    (isBelow : app.root.isBelow path = true) (rootAt : fs.RootAt app.root top)
    (holds : top <+: place) (proper : top ≠ place) (room : fs.HasRoom place)
    (free : fs.kind? place = none)
    (written : fs.write path "" = .ok (fs.place place (.file "")))
    (behind : ¬ (registry.process (fs.place place (.file ""))
      [.notice ⟨.created, [path]⟩]).registry.InStep (fs.place place (.file ""))) :
    registry.FallsBehind fs path place :=
  ⟨_, app, top, distinct, inStep, member, isBelow, rootAt, holds, proper, .created free written,
    .place room free _, behind⟩

/-- An app keeps its tree when a file is made in the directory of another app inside it,
and when it is made in its own directory but the last app has the same root; an app alone
keeps its tree when the path of the file steps up. And if the names of two files are no
texts and are read as the same one, an app drops both when one of them is removed. -/
theorem process_falls_behind :
    let fs : FileSystem := ⟨[⟨"r", .directory [⟨"n", .directory []⟩]⟩], []⟩
    let outer : App := ⟨"outer", ⟨"r"⟩, Folder.root ⟨"r"⟩⟩
    let inner : App := ⟨"inner", ⟨"r/n"⟩, Folder.root ⟨"r/n"⟩⟩
    let twin : App := ⟨"twin", ⟨"r"⟩, Folder.root ⟨"r"⟩⟩
    FallsBehind ⟨[outer, inner], []⟩ fs ⟨"r/n/a.entrypoint.js"⟩ ["r", "n", "a.entrypoint.js"] ∧
      FallsBehind ⟨[outer, twin], []⟩ fs ⟨"r/a.entrypoint.js"⟩ ["r", "a.entrypoint.js"] ∧
      FallsBehind ⟨[outer], []⟩ fs ⟨"r/n/../a.entrypoint.js"⟩ ["r", "a.entrypoint.js"] ∧
      ∃ tree, (Host.single ⟨"r"⟩ [⟨0xFE :: Text.bytes ".entrypoint.js", .file⟩,
          ⟨0xFF :: Text.bytes ".entrypoint.js", .file⟩]).scan (.lastFirst 4) [] ⟨"r"⟩ = .ok tree ∧
        tree.apply [] ⟨"r/\uFFFD.entrypoint.js"⟩ .delete = .ok (Folder.root ⟨"r"⟩, true) ∧
        (Host.single ⟨"r"⟩ [⟨0xFF :: Text.bytes ".entrypoint.js", .file⟩]).scan (.lastFirst 4) []
          ⟨"r"⟩ ≠ .ok (Folder.root ⟨"r"⟩) := by
  intro fs outer inner twin
  have distinct : fs.Distinct := .single trivial (.single trivial .nil)
  have rootAt : fs.RootAt outer.root ["r"] := by constructor <;> decide +kernel
  have room : fs.HasRoom ["r", "a.entrypoint.js"] := ⟨["r"], _, rfl, rfl⟩
  have roomBelow : fs.HasRoom ["r", "n", "a.entrypoint.js"] := ⟨["r", "n"], _, rfl, rfl⟩
  obtain ⟨both, alone⟩ := Host.scan_lossy_files (.lastFirst 4)
  refine ⟨?_, ?_, ?_, _, both, by decide +kernel, ?_⟩
  · exact .of_write distinct (by decide +kernel) List.mem_cons_self (by decide +kernel) rootAt
      (by decide) (by decide) roomBelow rfl rfl (by decide +kernel)
  · exact .of_write distinct (by decide +kernel) List.mem_cons_self (by decide +kernel) rootAt
      (by decide) (by decide) room rfl rfl (by decide +kernel)
  · exact .of_write distinct (by decide +kernel) List.mem_cons_self (by decide +kernel) rootAt
      (by decide) (by decide) room rfl rfl (by decide +kernel)
  · rw [alone]
    decide +kernel

end Registry

end RouteAtlas
