import RouteAtlas.Proofs.Watch.Handling

/-!
# Batches that come late

While an app is watched, its files change and the changes are reported in a queue,
from whose front batches are handled at any later time, against the files as they are
by then. Whenever the queue is empty, the tree is what a fresh scan gives
(`FileSystem.Watched.scan_of_settled`).

What carries this over a run is `FileSystem.Trails`: the tree is behind the files by
no more than the queue still tells. A change adds to the queue what it tells
(`FileSystem.Turns.backlog`), and a batch takes it off (`FileSystem.Trails.batch`).

The paths have to be short enough whenever a batch is handled. Otherwise a run can end
with another tree (`FileSystem.watched_misses_long_paths`).
-/

set_option autoImplicit false

namespace RouteAtlas

variable {fs other : FileSystem} {name : String} {patterns : List String} {root path : Path}
  {top : Location} {tree : Folder} {names : List String}

/-! ## Changes -/

/-- A path reports the entry at a location. Below the root it is the path of the root
with the names behind it; elsewhere it does not lie below the root. -/
inductive Path.Reports (root : Path) (top : Location) : Path → Location → Prop
  | below {names : List String} (some : names ≠ []) :
      Path.Reports root top (root.descendant names) (top ++ names)
  | elsewhere {path : Path} {location : Location} (outside : ¬ top <+: location)
      (notBelow : root.isBelow path = false) : Path.Reports root top path location

namespace FileSystem

/-- A place for a new item: a directory does not have its name, which is valid. -/
structure Vacant (fs : FileSystem) (location : Location) : Prop where
  room : fs.HasRoom location
  free : fs.kind? location = none
  valid : ∀ name ∈ location.getLast?, IsFileName name

/-- A change of the files with the notices that report it. A file that is written
together with missing parents is several such changes. -/
inductive Turns (root : Path) (top : Location) : FileSystem → List Notice → FileSystem → Prop
  /-- Makes a file, a link or an empty directory. -/
  | make {fs : FileSystem} {path : Path} {location : Location} {item : Item}
      (reports : root.Reports top path location) (vacant : fs.Vacant location)
      (isNew : ∀ slots, item = .directory slots → slots = []) :
      Turns root top fs [⟨.created, [path]⟩] (fs.place location item)
  /-- Removes an item with all it holds. -/
  | remove {fs : FileSystem} {path : Path} {location : Location}
      (reports : root.Reports top path location) (proper : location ≠ [])
      (present : fs.kind? location ≠ none) :
      Turns root top fs [⟨.removed, [path]⟩] (fs.clear location)
  /-- Moves an item; one notice tells both sides. -/
  | renameBoth {fs other : FileSystem} {old new : Path} {source target : Location}
      (reportsOld : root.Reports top old source) (reportsNew : root.Reports top new target)
      (present : fs.kind? source ≠ none) (vacant : fs.Vacant target)
      (moved : fs.move source target = .ok other) :
      Turns root top fs [⟨.renamedBoth, [old, new]⟩] other
  /-- Moves an item; each side has a notice of its own. -/
  | renameHalves {fs other : FileSystem} {old new : Path} {source target : Location}
      (reportsOld : root.Reports top old source) (reportsNew : root.Reports top new target)
      (present : fs.kind? source ≠ none) (vacant : fs.Vacant target)
      (moved : fs.move source target = .ok other) :
      Turns root top fs [⟨.renamedFrom, [old]⟩, ⟨.renamedTo, [new]⟩] other

variable {location : Location} {signals : List Signal}

/-- A free name of a directory is a place for a new item. -/
theorem Vacant.of_kind? {parent : Location} (isDirectory : fs.kind? parent = some .directory)
    (isName : IsFileName name) (free : fs.kind? (parent ++ [name]) = none) :
    fs.Vacant (parent ++ [name]) := by
  refine ⟨⟨parent, name, rfl, isDirectory⟩, free, ?_⟩
  rw [List.getLast?_concat]
  rintro _ ⟨⟩
  exact isName

/-- The names on the way to a place for a new item can stand in a directory. -/
theorem Vacant.areNames (vacant : fs.Vacant location) (tidy : fs.Tidy IsFileName) :
    ∀ name ∈ location, IsFileName name := by
  obtain ⟨⟨parent, last, rfl, isDirectory⟩, -, valid⟩ := vacant
  intro name member
  rcases List.mem_append.1 member with inParent | isLast
  · exact tidy.valid_of_kind? (by rw [isDirectory]; exact nofun) name inParent
  · rw [List.mem_singleton.1 isLast]
    exact valid last (by rw [List.getLast?_concat]; rfl)

/-- What is put elsewhere changes nothing below the root. -/
theorem Vacant.kind?_place_elsewhere (vacant : fs.Vacant location) (outside : ¬ top <+: location)
    (isTop : fs.kind? top ≠ none) (item : Item) (others : List String) :
    (fs.place location item).kind? (top ++ others) = fs.kind? (top ++ others) := by
  refine kind?_place_apart vacant.room item fun above => ?_
  rcases List.prefix_or_prefix_of_prefix above (List.prefix_append top others) with
    ⟨rest, rfl⟩ | inside
  · exact isTop (kind?_append_of_none vacant.free rest)
  · exact outside inside

/-- What is removed elsewhere changes nothing below the root, as long as the root
stays. -/
theorem kind?_clear_elsewhere (room : fs.HasRoom location) (outside : ¬ top <+: location)
    (isTop : (fs.clear location).kind? top ≠ none) (others : List String) :
    (fs.clear location).kind? (top ++ others) = fs.kind? (top ++ others) := by
  rw [kind?_clear room] at isTop ⊢
  refine if_neg fun above => ?_
  rcases List.prefix_or_prefix_of_prefix above (List.prefix_append top others) with
    gone | inside
  · exact isTop (if_pos gone)
  · exact outside inside

/-- Where an item is removed, the queue tells what its path reports. -/
theorem backlog_clear (reports : root.Reports top path location) (tidy : fs.Tidy IsFileName)
    (proper : location ≠ []) (present : fs.kind? location ≠ none)
    (isTop : (fs.clear location).kind? top ≠ none)
    (backlog : tree.Backlog fs patterns top signals) :
    ∃ more, Tells root [(path, .delete)] more ∧
      tree.Backlog (fs.clear location) patterns top (signals ++ more) := by
  have room := hasRoom_of_present proper present
  cases reports with
  | @below names some =>
    have areNames : ∀ name ∈ names, IsFileName name := fun name member =>
      tidy.valid_of_kind? present name (List.mem_append_right top member)
    refine ⟨[.removed names], .removed some areNames .nil, backlog.prune fun others => ?_⟩
    simp only [kind?_clear room, List.prefix_append_right_inj]
  | elsewhere outside notBelow =>
    refine ⟨[], .elsewhere notBelow _ .nil, ?_⟩
    rw [List.append_nil]
    exact backlog.elsewhere (kind?_clear_elsewhere room outside isTop)

/-- Where an item is put, the queue tells what its path reports. -/
theorem backlog_place (reports : root.Reports top path location) (tidy : fs.Tidy IsFileName)
    (vacant : fs.Vacant location) (isTop : fs.kind? top ≠ none) (item : Item)
    (backlog : tree.Backlog fs patterns top signals) :
    ∃ more, Tells root [(path, .create)] more ∧
      tree.Backlog (fs.place location item) patterns top (signals ++ more) := by
  cases reports with
  | @below names some =>
    have areNames : ∀ name ∈ names, IsFileName name := fun name member =>
      vacant.areNames tidy name (List.mem_append_right top member)
    refine ⟨[.created names], .created some areNames .nil, backlog.graft vacant.free ?_ ?_⟩
    · intro above isAbove isProper
      exact vacant.room.above ((List.prefix_append_right_inj top).2 isAbove)
        fun same => isProper (List.append_cancel_left same)
    · intro others notBelow
      exact kind?_place_apart vacant.room item
        fun below => notBelow ((List.prefix_append_right_inj top).1 below)
  | elsewhere outside notBelow =>
    refine ⟨[], .elsewhere notBelow _ .nil, ?_⟩
    rw [List.append_nil]
    exact backlog.elsewhere (vacant.kind?_place_elsewhere outside isTop item)

/-- An item is moved to a vacant place by clearing its own place first. -/
theorem move_eq_ok {source target : Location} (present : fs.kind? source ≠ none)
    (vacant : fs.Vacant target) (moved : fs.move source target = .ok other) :
    ∃ item, fs.item? source = some item ∧ ¬ source <+: target ∧
      other = (fs.clear source).place target item := by
  obtain ⟨item, found⟩ : ∃ item, fs.item? source = some item :=
    Option.ne_none_iff_exists'.1 fun isNone => present (by rw [kind?, isNone]; rfl)
  rcases move_cases found moved with ⟨rfl, -⟩ | ⟨notAbove, -, isMoved⟩
  · exact absurd vacant.free present
  · exact ⟨item, found, notAbove, isMoved⟩

/-- A move adds to the queue what the old path and the new path report. -/
theorem backlog_move {old new : Path} {source target : Location}
    (reportsOld : root.Reports top old source) (reportsNew : root.Reports top new target)
    (tidy : fs.Tidy IsFileName) (rootAt : fs.RootAt root top) (present : fs.kind? source ≠ none)
    (vacant : fs.Vacant target) (moved : fs.move source target = .ok other)
    (isTop : other.kind? top ≠ none) (backlog : tree.Backlog fs patterns top signals) :
    other.Tidy IsFileName ∧ ∃ more, Tells root [(old, .delete), (new, .create)] more ∧
      tree.Backlog other patterns top (signals ++ more) := by
  obtain ⟨item, found, notAbove, rfl⟩ := move_eq_ok present vacant moved
  have proper : source ≠ [] := by
    rintro rfl
    exact notAbove List.nil_prefix
  have kinds := kind?_clear (hasRoom_of_present proper present)
  have vacantNext : (fs.clear source).Vacant target := by
    obtain ⟨⟨parent, last, rfl, isDirectory⟩, free, valid⟩ := vacant
    refine ⟨⟨parent, last, rfl, ?_⟩, ?_, valid⟩
    · rw [kinds, if_neg fun above => notAbove (above.trans (List.prefix_append _ _))]
      exact isDirectory
    · rw [kinds, if_neg notAbove]
      exact free
  have isTopNext : (fs.clear source).kind? top ≠ none := by
    have notBelow : ¬ target <+: top := by
      rintro ⟨rest, rfl⟩
      have gone := kind?_append_of_none vacant.free rest
      rw [rootAt.2] at gone
      cases gone
    rwa [kind?_place_apart vacantNext.room item notBelow] at isTop
  have tidyNext := tidy.clear source
  obtain ⟨first, tells, backlogNext⟩ :=
    backlog_clear reportsOld tidy proper present isTopNext backlog
  obtain ⟨second, tellsOn, backlogLast⟩ :=
    backlog_place reportsNew tidyNext vacantNext isTopNext item backlogNext
  refine ⟨tidyNext.place vacant.valid (Item.Tidy.of_at? tidy found), first ++ second,
    tells.append tellsOn, ?_⟩
  rwa [← List.append_assoc]

/-- A change adds to the queue what its notices report. -/
theorem Turns.backlog {notices : List Notice} (turns : Turns root top fs notices other)
    (tidy : fs.Tidy IsFileName) (rootAt : fs.RootAt root top) (isTop : other.kind? top ≠ none)
    (backlog : tree.Backlog fs patterns top signals) :
    other.Tidy IsFileName ∧ ∃ more, Tells root (notices.flatMap (·.events other)) more ∧
      tree.Backlog other patterns top (signals ++ more) := by
  cases turns with
  | make reports vacant isNew =>
    have here : fs.kind? top ≠ none := by
      rw [rootAt.2]
      exact nofun
    refine ⟨tidy.place vacant.valid ?_, backlog_place reports tidy vacant here _ backlog⟩
    rename_i item
    cases item with
    | file contents => exact .file contents
    | link target => exact .link target
    | directory slots =>
      rw [isNew slots rfl]
      exact .nil
  | remove reports proper present =>
    exact ⟨tidy.clear _, backlog_clear reports tidy proper present isTop backlog⟩
  | renameBoth reportsOld reportsNew present vacant moved =>
    exact backlog_move reportsOld reportsNew tidy rootAt present vacant moved isTop backlog
  | renameHalves reportsOld reportsNew present vacant moved =>
    exact backlog_move reportsOld reportsNew tidy rootAt present vacant moved isTop backlog

/-- The notices of a change tell the sides of a rename apart. -/
theorem Turns.definite {notices : List Notice} (turns : Turns root top fs notices other) :
    ∀ notice ∈ notices, notice.kind ≠ .renamed := by
  cases turns <;> simp

/-! ## Runs -/

/-- The file systems, registries and queues of a run: an app is scanned, and then
changes add their notices to the queue and batches are taken from its front, while the
root leads to the same directory. Batches are handled only where `fit` holds. -/
inductive Watched (fit : FileSystem → Prop) (name : String) (patterns : List String)
    (root : Path) (top : Location) : FileSystem → Registry → List Notice → Prop
  | start {fs : FileSystem} {registry : Registry} (tidy : fs.Tidy IsFileName)
      (isTop : fs.resolve .follow root = .ok top)
      (scanned : Registry.scan fs patterns [(name, root)] = .ok registry) :
      Watched fit name patterns root top fs registry []
  | change {fs other : FileSystem} {registry : Registry} {queue notices : List Notice}
      (watched : Watched fit name patterns root top fs registry queue)
      (turns : Turns root top fs notices other) (stays : other.RootAt root top) :
      Watched fit name patterns root top other registry (queue ++ notices)
  | batch {fs : FileSystem} {registry : Registry} {batch rest : List Notice}
      (watched : Watched fit name patterns root top fs registry (batch ++ rest))
      (fits : fit fs) :
      Watched fit name patterns root top fs
        (registry.process fs (batch.map .notice)).registry rest

/-- A tree is behind the files by no more than a queue still tells. -/
structure Trails (fs : FileSystem) (patterns : List String) (root : Path) (top : Location)
    (queue : List Notice) (tree : Folder) : Prop where
  tidy : fs.Tidy IsFileName
  rootAt : fs.RootAt root top
  label : tree.label = (Folder.root root).label
  definite : ∀ notice ∈ queue, notice.kind ≠ .renamed
  backlog : ∃ signals, Tells root (queue.flatMap (·.events fs)) signals ∧
    tree.Backlog fs patterns top signals
  settled : queue = [] → ∃ fresh, fs.scan patterns root = .ok fresh

/-- What a scan gives is behind by nothing. -/
theorem Trails.of_scan (tidy : fs.Tidy IsFileName) (isTop : fs.resolve .follow root = .ok top)
    (scanned : fs.scan patterns root = .ok tree) : fs.Trails patterns root top [] tree := by
  obtain ⟨label, canonical, records⟩ := scan_records tidy isTop scanned
  obtain ⟨_, rootAt⟩ := exists_rootAt_of_scan scanned
  cases isTop.symm.trans rootAt.1
  exact ⟨tidy, rootAt, label, nofun, ⟨[], .nil, .of_records canonical records⟩,
    fun _ => ⟨tree, scanned⟩⟩

/-- A change keeps a tree trailing the files. -/
theorem Trails.change {queue notices : List Notice}
    (trails : fs.Trails patterns root top queue tree) (turns : Turns root top fs notices other)
    (stays : other.RootAt root top) : other.Trails patterns root top (queue ++ notices) tree := by
  obtain ⟨signals, tells, backlog⟩ := trails.backlog
  obtain ⟨tidy, more, tellsOn, backlogOn⟩ := turns.backlog trails.tidy trails.rootAt
    (by rw [stays.2]; exact nofun) backlog
  have sameEvents : queue.flatMap (·.events fs) = queue.flatMap (·.events other) :=
    List.flatMap_congr fun notice member =>
      Notice.events_eq (trails.definite notice member) fs other
  rw [sameEvents] at tells
  refine ⟨tidy, stays, trails.label, fun notice member => ?_, ⟨signals ++ more, ?_, backlogOn⟩,
    fun none => ?_⟩
  · exact (List.mem_append.1 member).elim (trails.definite notice) (turns.definite notice)
  · rw [List.flatMap_append]
    exact tells.append tellsOn
  · rw [(List.append_eq_nil_iff.1 none).2] at turns
    cases turns

/-- A batch keeps a tree trailing the files. -/
theorem Trails.batch {batch rest : List Notice}
    (trails : fs.Trails patterns root top (batch ++ rest) tree)
    (inReach : fs.InReach patterns root) :
    ∃ next, ((Registry.alone name root patterns tree).process fs (batch.map .notice)).registry =
        .alone name root patterns next ∧ fs.Trails patterns root top rest next := by
  obtain ⟨signals, tells, backlog⟩ := trails.backlog
  rw [List.flatMap_append] at tells
  have isAlone : (⟨.alone name root patterns tree, []⟩ : Progress).registry =
      .alone name root patterns tree := rfl
  obtain ⟨next, after, isNext, label, tellsOn, backlogOn⟩ :=
    foldl_applyEvent_backlog trails.tidy trails.rootAt inReach isAlone
      (by rw [trails.label]; rfl) tells backlog
  refine ⟨next, (Progress.registry_process _ fs batch).trans isNext, trails.tidy, trails.rootAt,
    label.trans trails.label,
    fun notice member => trails.definite notice (List.mem_append_right _ member),
    ⟨after, tellsOn, backlogOn⟩, fun _ => ?_⟩
  exact inReach.imp fun _ => And.left

/-- All along a run there is one app, and its tree trails the files. -/
theorem Watched.trails {registry : Registry} {queue : List Notice}
    (watched : Watched (·.InReach patterns root) name patterns root top fs registry queue) :
    ∃ tree, registry = .alone name root patterns tree ∧
      fs.Trails patterns root top queue tree := by
  induction watched with
  | start tidy isTop scanned =>
    obtain ⟨tree, scannedTree, rfl⟩ := Registry.scan_alone_iff.1 scanned
    exact ⟨tree, rfl, .of_scan tidy isTop scannedTree⟩
  | change _ turns stays ih =>
    obtain ⟨tree, rfl, trails⟩ := ih
    exact ⟨tree, rfl, trails.change turns stays⟩
  | batch _ fits ih =>
    obtain ⟨tree, rfl, trails⟩ := ih
    exact trails.batch fits

/-- Whenever the queue is empty, the registry is what a fresh scan gives. -/
theorem Watched.scan_of_settled {registry : Registry}
    (watched : Watched (·.InReach patterns root) name patterns root top fs registry []) :
    Registry.scan fs patterns [(name, root)] = .ok registry := by
  obtain ⟨tree, rfl, trails⟩ := watched.trails
  obtain ⟨fresh, scanned⟩ := trails.settled rfl
  obtain ⟨signals, tells, backlog⟩ := trails.backlog
  cases tells
  have isFresh : tree = fresh := eq_of_scan trails.tidy trails.rootAt.1 trails.label
    backlog.canonical (fun _ => backlog.records_iff) scanned
  rw [isFresh]
  exact Registry.scan_eq_ok_alone_iff.2 scanned

/-- A file is made and renamed before the first batch, which holds half of the rename. -/
theorem Watched.scan_of_settled_rename :
    let root : Path := ⟨"r"⟩
    let fs : FileSystem := ⟨[⟨"r", .directory [⟨"y.entrypoint.js", .file ""⟩]⟩], []⟩
    ∃ registry, Watched (·.InReach [] root) "app" [] root ["r"] fs registry [] ∧
      Registry.scan fs [] [("app", root)] = .ok registry := by
  intro root fs
  let bare : FileSystem := ⟨[⟨"r", .directory []⟩], []⟩
  let made : FileSystem := ⟨[⟨"r", .directory [⟨"x.entrypoint.js", .file ""⟩]⟩], []⟩
  let x : Path := root.descendant ["x.entrypoint.js"]
  let y : Path := root.descendant ["y.entrypoint.js"]
  have reports : ∀ step, root.Reports ["r"] (root.descendant [step]) (["r"] ++ [step]) :=
    fun step => .below (List.cons_ne_nil step [])
  have makes : Turns root ["r"] bare [⟨.created, [x]⟩] made :=
    @Turns.make root ["r"] bare x _ (.file "") (reports _)
      (.of_kind? (by decide +kernel) (by decide) (by decide +kernel)) nofun
  have renames : Turns root ["r"] made [⟨.renamedFrom, [x]⟩, ⟨.renamedTo, [y]⟩] fs :=
    .renameHalves (reports "x.entrypoint.js") (reports "y.entrypoint.js") (by decide +kernel)
      (.of_kind? (by decide +kernel) (by decide) (by decide +kernel)) rfl
  have inReach : fs.InReach [] root := by
    have checked : (fs.scan [] root).map (fun tree =>
        decide (∀ label ∈ tree.files, label.path.text.utf8ByteSize < pathLimit)) = .ok true := by
      decide +kernel
    obtain ⟨tree, scanned, short⟩ := map_eq_ok_iff.1 checked
    exact ⟨tree, scanned, of_decide_eq_true short⟩
  have isTop : bare.resolve .follow root = .ok ["r"] := by decide +kernel
  have start : Watched (·.InReach [] root) "app" [] root ["r"] bare _ [] :=
    .start (.single (by decide) .nil) isTop
      (Registry.scan_eq_ok_alone_iff.2 (scan_of_empty isTop rfl))
  have changed := (start.change makes (by constructor <;> decide +kernel)).change renames
    (by constructor <;> decide +kernel)
  have first := @Watched.batch _ _ _ _ _ _ _ [⟨.created, [x]⟩, ⟨.renamedFrom, [x]⟩]
    [⟨.renamedTo, [y]⟩] changed inReach
  have last := @Watched.batch _ _ _ _ _ _ _ [⟨.renamedTo, [y]⟩] [] first inReach
  exact ⟨_, last, last.scan_of_settled⟩

/-! ## Paths that are too long -/

/-- A path that is too long to be looked at adds nothing. -/
theorem createdFiles_of_long (long : pathLimit ≤ path.text.utf8ByteSize) :
    fs.createdFiles patterns path = [] := by
  have notFound : ∀ item, fs.lookUp .keepLink path ≠ .ok item := by
    intro item lookedUp
    obtain ⟨location, resolved, -⟩ := lookUp_eq_ok_iff.1 lookedUp
    have short := (textError?_eq_none_iff.1 (resolve_eq_ok_iff.1 resolved).1).2.2
    exact absurd (short.resolve_left (by decide)) (Nat.not_lt.2 long)
  refine List.eq_nil_iff_forall_not_mem.2 fun file member => ?_
  rcases mem_createdFiles member with ⟨_, lookedUp, -⟩ | ⟨_, _, lookedUp, -⟩
  · exact notFound _ lookedUp
  · exact notFound _ lookedUp

/-- A directory adds nothing if the path of a directory in it is too long. -/
theorem createdFiles_of_long_below (rootAt : fs.RootAt root top) (tidy : fs.Tidy IsFileName)
    (below : names ≠ []) {more : List String}
    (notIgnored : ∀ name ∈ more, isIgnored patterns name = false)
    (isDirectory : fs.kind? (top ++ names ++ more) = some .directory)
    (long : pathLimit ≤ (root.descendant (names ++ more)).text.utf8ByteSize) :
    fs.createdFiles patterns (root.descendant names) = [] := by
  have present : fs.kind? (top ++ names ++ more) ≠ none := by
    rw [isDirectory]
    exact nofun
  have areNames : ∀ name ∈ names, IsFileName name := fun name member =>
    tidy.valid_of_kind? present name (List.mem_append_left _ (List.mem_append_right _ member))
  have directories : ∀ before, before <+: names →
      fs.kind? (top ++ before) = some .directory := by
    rintro before ⟨rest, rfl⟩
    by_cases last : rest ++ more = []
    · obtain ⟨rfl, rfl⟩ := List.append_eq_nil_iff.1 last
      rwa [List.append_nil, List.append_nil] at isDirectory
    · refine kind?_of_append last ?_
      rwa [← List.append_assoc, List.append_assoc top]
  refine List.eq_nil_iff_forall_not_mem.2 fun file member => ?_
  rcases mem_createdFiles member with ⟨contents, isFile, -⟩ | ⟨slots, tree, -, scanned, -⟩
  · obtain ⟨-, found⟩ := (rootAt.lookUp_keepLink below areNames
      fun before isBefore _ => directories before isBefore).1 isFile
    have here := directories names List.prefix_rfl
    rw [kind?, found] at here
    cases here
  · obtain ⟨place, placeAt, -⟩ := mem_paths_of_scan tidy scanned
    obtain rfl := rootAt.eq_append
      (root.spells_descendant fun name member => (areNames name member).toIsName)
      (fun name member => (areNames name member).short)
      (fun before _ isBefore => directories before isBefore) placeAt
    have short := short_of_scan placeAt.1 scanned notIgnored isDirectory
    rw [← Path.descendant_append] at short
    exact absurd short (Nat.not_lt.2 long)

/-- A created path that adds no files changes nothing. -/
theorem applyEvent_create_of_nil {progress : Progress}
    (isAlone : progress.registry = .alone name root patterns tree)
    (nothing : fs.createdFiles patterns path = []) :
    progress.applyEvent fs (path, .create) = progress := by
  rw [Progress.applyEvent, isAlone]
  simp only [Registry.alone, affected, nothing, List.foldl_nil]

/-- A batch with such a path changes nothing. -/
theorem process_created_of_nil (nothing : fs.createdFiles patterns path = []) :
    ((Registry.alone name root patterns tree).process fs
      ([⟨.created, [path]⟩].map .notice)).registry = .alone name root patterns tree := by
  rw [Progress.registry_process]
  show (Progress.applyEvent fs _ (path, .create)).registry = _
  rw [applyEvent_create_of_nil rfl nothing]

/-- A notice that an entry from elsewhere came to a path that adds nothing changes
nothing. -/
theorem process_renamed_of_nil {old new : Path} (notBelow : root.isBelow old = false)
    (nothing : fs.createdFiles patterns new = []) :
    ((Registry.alone name root patterns tree).process fs
      ([⟨.renamedBoth, [old, new]⟩].map .notice)).registry = .alone name root patterns tree := by
  have gone :
      (Progress.applyEvent fs ⟨.alone name root patterns tree, []⟩ (old, .delete)).registry =
        .alone name root patterns tree := Progress.applyOne_alone_of_not_below rfl notBelow .delete
  rw [Progress.registry_process]
  show (Progress.applyEvent fs (Progress.applyEvent fs _ (old, .delete))
    (new, .create)).registry = _
  rw [applyEvent_create_of_nil gone nothing, gone]

/-- A removal from an empty tree changes nothing. -/
theorem process_removed_of_empty (spells : root.Spells path names) :
    ((Registry.alone name root patterns (Folder.root root)).process fs
      ([⟨.removed, [path]⟩].map .notice)).registry =
        .alone name root patterns (Folder.root root) := by
  have unchanged : ((Folder.root root).edited patterns names .delete).1 = Folder.root root := by
    rw [Folder.edited]
    split
    next => rfl
    next =>
      cases names with
      | nil => rfl
      | cons step rest => cases rest <;> rfl
  have deleted := @Progress.applyOne_alone_of_spells name patterns root path (Folder.root root)
    names ⟨.alone name root patterns (Folder.root root), []⟩ rfl rfl spells .delete
  rw [unchanged] at deleted
  rw [Progress.registry_process]
  exact deleted

/-- A file with a path that is too long is made, and its event does not record it,
although scans succeed all along. -/
theorem watched_misses_long_file :
    ∃ registry, Watched (fun fs => ∃ tree, fs.scan [] (Path.slashed ⟨"r"⟩ 4090) = .ok tree) "app"
        [] (Path.slashed ⟨"r"⟩ 4090) ["r"]
        ⟨[⟨"r", .directory [⟨"x.entrypoint.js", .file ""⟩]⟩], []⟩ registry [] ∧
      Registry.scan ⟨[⟨"r", .directory [⟨"x.entrypoint.js", .file ""⟩]⟩], []⟩ []
        [("app", Path.slashed ⟨"r"⟩ 4090)] ≠ .ok registry := by
  -- The root becomes a variable, so that its text is never computed with.
  obtain ⟨root, isRoot⟩ : ∃ root, root = Path.slashed ⟨"r"⟩ 4090 := ⟨_, rfl⟩
  obtain ⟨size, slash, -, leads⟩ := slashed_r (by decide) (by decide : 1 + 4090 < pathLimit)
  rw [← isRoot] at size slash leads ⊢
  let bare : FileSystem := ⟨[⟨"r", .directory []⟩], []⟩
  let made : FileSystem := ⟨[⟨"r", .directory [⟨"x.entrypoint.js", .file ""⟩]⟩], []⟩
  let x : Path := root.descendant ["x.entrypoint.js"]
  have bareAt : bare.RootAt root ["r"] := leads (by constructor <;> decide +kernel)
  have madeAt : made.RootAt root ["r"] := leads (by constructor <;> decide +kernel)
  have start : Watched (fun fs => ∃ tree, fs.scan [] root = .ok tree) "app" [] root ["r"] bare
      (.alone "app" root [] (Folder.root root)) [] :=
    .start (.single (by decide) .nil) bareAt.1
      (Registry.scan_eq_ok_alone_iff.2 (scan_of_empty bareAt.1 rfl))
  have makes : Turns root ["r"] bare [⟨.created, [x]⟩] made :=
    @Turns.make root ["r"] bare x _ (.file "") (.below (List.cons_ne_nil "x.entrypoint.js" []))
      (.of_kind? bareAt.2 (by decide) (by decide +kernel)) nofun
  have scans : ∃ tree, made.scan [] root = .ok tree := by
    refine ⟨_, scan_eq_ok_iff.2 ⟨_, lookUp_eq_ok_iff.2 ⟨["r"], madeAt.1, rfl⟩, ?_, rfl⟩⟩
    rw [Item.outOfReach, size]
    rfl
  have long : pathLimit ≤ x.text.utf8ByteSize := by
    rw [Path.utf8ByteSize_descendant_of_endsInSlash slash (by decide), size]
    decide
  have handled := @Watched.batch _ _ _ _ _ _ _ [⟨.created, [x]⟩] []
    (start.change makes madeAt) scans
  rw [process_created_of_nil (createdFiles_of_long long)] at handled
  refine ⟨_, handled, fun scanned => ?_⟩
  have tidy : made.Tidy IsFileName := .single (by decide) (.single (by decide) (.file ""))
  have offers : made.Offers [] ["r"] ["x.entrypoint.js"] := by
    refine ⟨admitted_singleton.2 ?_, ?_⟩ <;> decide +kernel
  exact scan_ne_root tidy madeAt.1 offers (Registry.scan_eq_ok_alone_iff.1 scanned)

/-- A file in a directory of the root is in reach, as long as its path is short
enough. -/
theorem inReach_nested
    (rootAt : RootAt ⟨[⟨"r", .directory [⟨"b", .directory [⟨"x.entrypoint.js", .file ""⟩]⟩]⟩], []⟩
      root ["r"])
    (slash : root.endsInSlash = true) (short : root.text.utf8ByteSize + 17 < pathLimit) :
    InReach ⟨[⟨"r", .directory [⟨"b", .directory [⟨"x.entrypoint.js", .file ""⟩]⟩]⟩], []⟩ []
      root := by
  have sizes : ∀ {rest : List String}, (∀ step ∈ "b" :: rest, IsName step) →
      (root.descendant ("b" :: rest)).text.utf8ByteSize = root.text.utf8ByteSize + 1 +
        (rest.map fun name => 1 + name.utf8ByteSize).sum :=
    Path.utf8ByteSize_descendant_of_endsInSlash slash
  have sizeB : (root.child "b").text.utf8ByteSize = root.text.utf8ByteSize + 1 :=
    sizes (by decide : ∀ step ∈ ["b"], IsName step)
  have sizeX : (root.descendant ["b", "x.entrypoint.js"]).text.utf8ByteSize =
      root.text.utf8ByteSize + 17 :=
    sizes (by decide)
  refine ⟨_, scan_eq_ok_iff.2 ⟨_, lookUp_eq_ok_iff.2 ⟨["r"], rootAt.1, rfl⟩, ?_, rfl⟩, ?_⟩
  · have notLong : ¬ pathLimit ≤ root.text.utf8ByteSize := by omega
    have notLongB : ¬ pathLimit ≤ (root.child "b").text.utf8ByteSize := by omega
    rw [Item.outOfReach, if_neg notLong, Slot.outOfReach, Slot.outOfReachOne, Item.outOfReach,
      if_neg notLongB]
    rfl
  · intro label member
    obtain rfl := List.mem_singleton.1 (show label ∈ [_] from member)
    show (root.descendant ["b", "x.entrypoint.js"]).text.utf8ByteSize < pathLimit
    rwa [sizeX]

/-- A directory is moved below the root while a path in it is too long, so that its event
records nothing; when that path is gone, a scan finds the file that came along. -/
theorem watched_misses_long_directory :
    ∃ registry, Watched (fun _ => True) "app" [] (Path.slashed ⟨"r"⟩ 4069) ["r"]
        ⟨[⟨"r", .directory [⟨"b", .directory [⟨"x.entrypoint.js", .file ""⟩]⟩]⟩], []⟩ registry [] ∧
      InReach ⟨[⟨"r", .directory [⟨"b", .directory [⟨"x.entrypoint.js", .file ""⟩]⟩]⟩], []⟩ []
        (Path.slashed ⟨"r"⟩ 4069) ∧
      Registry.scan ⟨[⟨"r", .directory [⟨"b", .directory [⟨"x.entrypoint.js", .file ""⟩]⟩]⟩], []⟩ []
        [("app", Path.slashed ⟨"r"⟩ 4069)] ≠ .ok registry := by
  -- The root becomes a variable, so that its text is never computed with.
  obtain ⟨root, isRoot⟩ : ∃ root, root = Path.slashed ⟨"r"⟩ 4069 := ⟨_, rfl⟩
  obtain ⟨size, slash, components, leads⟩ :=
    slashed_r (by decide) (by decide : 1 + 4069 < pathLimit)
  rw [← isRoot] at size slash components leads ⊢
  let x : Slot := ⟨"x.entrypoint.js", .file ""⟩
  let c : Slot := ⟨"c", .directory [⟨"directory-with-long-name", .directory []⟩]⟩
  let before : FileSystem := ⟨[⟨"o", .directory [x, c]⟩, ⟨"r", .directory []⟩], []⟩
  let moved : FileSystem := ⟨[⟨"r", .directory [⟨"b", .directory [x, c]⟩]⟩], []⟩
  let cut : FileSystem := ⟨[⟨"r", .directory [⟨"b", .directory [x]⟩]⟩], []⟩
  let b : Path := root.descendant ["b"]
  have beforeAt : before.RootAt root ["r"] := leads (by constructor <;> decide +kernel)
  have movedAt : moved.RootAt root ["r"] := leads (by constructor <;> decide +kernel)
  have cutAt : cut.RootAt root ["r"] := leads (by constructor <;> decide +kernel)
  have tidyXC : (Item.directory [x, c]).Tidy IsFileName :=
    .cons (by decide) (by decide) (.file "") (.single (by decide) (.single (by decide) .nil))
  have tidyBefore : before.Tidy IsFileName :=
    .cons (by decide) (by decide) tidyXC (.single (by decide) .nil)
  have tidyMoved : moved.Tidy IsFileName := .single (by decide) (.single (by decide) tidyXC)
  have tidyCut : cut.Tidy IsFileName :=
    .single (by decide) (.single (by decide) (.single (by decide) (.file "")))
  have notBelow : root.isBelow ⟨"o"⟩ = false := by
    rw [Path.isBelow, components]
    decide +kernel
  have start : Watched (fun _ => True) "app" [] root ["r"] before
      (.alone "app" root [] (Folder.root root)) [] :=
    .start tidyBefore beforeAt.1
      (Registry.scan_eq_ok_alone_iff.2 (scan_of_empty beforeAt.1 rfl))
  have renames : Turns root ["r"] before [⟨.renamedBoth, [⟨"o"⟩, b]⟩] moved :=
    @Turns.renameBoth root ["r"] before moved ⟨"o"⟩ b ["o"] _ (.elsewhere (by decide) notBelow)
      (.below (List.cons_ne_nil "b" [])) (by decide +kernel)
      (.of_kind? beforeAt.2 (by decide) (by decide +kernel)) rfl
  have removes : Turns root ["r"] moved [⟨.removed, [root.descendant ["b", "c"]]⟩] cut :=
    @Turns.remove root ["r"] moved _ _ (.below (List.cons_ne_nil "b" ["c"])) (by decide)
      (by decide +kernel)
  have nothing : moved.createdFiles [] b = [] := by
    refine @createdFiles_of_long_below _ _ _ _ _ movedAt tidyMoved (List.cons_ne_nil _ _)
      ["c", "directory-with-long-name"] (by decide +kernel) (by decide +kernel) ?_
    rw [List.singleton_append, Path.utf8ByteSize_descendant_of_endsInSlash slash (by decide), size]
    decide
  have first := @Watched.batch _ _ _ _ _ _ _ [⟨.renamedBoth, [⟨"o"⟩, b]⟩] []
    (start.change renames movedAt) trivial
  rw [process_renamed_of_nil notBelow nothing] at first
  have last := @Watched.batch _ _ _ _ _ _ _ [⟨.removed, [root.descendant ["b", "c"]]⟩] []
    (first.change removes cutAt) trivial
  rw [process_removed_of_empty
    (root.spells_descendant (by decide : ∀ step ∈ ["b", "c"], IsName step))] at last
  refine ⟨_, last, ?_, fun scanned => ?_⟩
  · exact inReach_nested cutAt slash (by rw [size]; decide)
  · have offers : cut.Offers [] ["r"] ["b", "x.entrypoint.js"] := by
      refine ⟨(admitted_cons (List.cons_ne_nil _ _)).2 ⟨?_, admitted_singleton.2 ?_⟩, ?_⟩ <;>
        decide +kernel
    exact scan_ne_root tidyCut cutAt.1 offers (Registry.scan_eq_ok_alone_iff.1 scanned)

/-- A run can end with an empty queue and another tree than a scan gives, both when the
path of a file and when that of a directory was too long. -/
theorem watched_misses_long_paths :
    (∃ registry, Watched (fun fs => ∃ tree, fs.scan [] (Path.slashed ⟨"r"⟩ 4090) = .ok tree) "app"
        [] (Path.slashed ⟨"r"⟩ 4090) ["r"]
        ⟨[⟨"r", .directory [⟨"x.entrypoint.js", .file ""⟩]⟩], []⟩ registry [] ∧
      Registry.scan ⟨[⟨"r", .directory [⟨"x.entrypoint.js", .file ""⟩]⟩], []⟩ []
        [("app", Path.slashed ⟨"r"⟩ 4090)] ≠ .ok registry) ∧
    ∃ registry, Watched (fun _ => True) "app" [] (Path.slashed ⟨"r"⟩ 4069) ["r"]
        ⟨[⟨"r", .directory [⟨"b", .directory [⟨"x.entrypoint.js", .file ""⟩]⟩]⟩], []⟩ registry [] ∧
      InReach ⟨[⟨"r", .directory [⟨"b", .directory [⟨"x.entrypoint.js", .file ""⟩]⟩]⟩], []⟩ []
        (Path.slashed ⟨"r"⟩ 4069) ∧
      Registry.scan ⟨[⟨"r", .directory [⟨"b", .directory [⟨"x.entrypoint.js", .file ""⟩]⟩]⟩], []⟩ []
        [("app", Path.slashed ⟨"r"⟩ 4069)] ≠ .ok registry :=
  ⟨watched_misses_long_file, watched_misses_long_directory⟩

end FileSystem

end RouteAtlas
