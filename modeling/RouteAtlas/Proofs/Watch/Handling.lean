import RouteAtlas.Proofs.Watch.Backlog
import RouteAtlas.Proofs.Watch.Created

/-!
# Handling late events

Events come from the front of a queue and are handled against the files as they are by
then. For a registry of one app, `Tells` says which entries below the root the events in
the queue are about, and handling an event takes off what it tells, so that the tree
stays behind the files by no more than the rest of the queue
(`FileSystem.foldl_applyEvent_backlog`).

A created path that is too long to be looked at adds nothing, although a scan finds the
file. So the paths have to be short enough whenever an event is handled
(`FileSystem.InReach`).
-/

set_option autoImplicit false

namespace RouteAtlas

variable {fs other : FileSystem} {name : String} {patterns : List String} {root path : Path}
  {top : Location} {tree : Folder} {names : List String}

/-! ## A registry of one app -/

/-- A registry of one app. -/
def Registry.alone (name : String) (root : Path) (patterns : List String) (tree : Folder) :
    Registry :=
  ⟨[⟨name, root, tree⟩], patterns⟩

/-- A registry of one app is scanned by scanning its root. -/
theorem Registry.scan_alone_iff {registry : Registry} :
    Registry.scan fs patterns [(name, root)] = .ok registry ↔
      ∃ tree, fs.scan patterns root = .ok tree ∧ registry = alone name root patterns tree := by
  rw [Registry.scan, if_neg (by simp), scanApps]
  cases scanned : fs.scan patterns root with
  | error => exact iff_of_false nofun nofun
  | ok tree =>
    simp only [scanApps, Except.map, Except.ok.injEq, exists_eq_left', alone, eq_comm]

/-- A registry with one app is scanned if its root is. -/
theorem Registry.scan_eq_ok_alone_iff :
    Registry.scan fs patterns [(name, root)] = .ok (alone name root patterns tree) ↔
      fs.scan patterns root = .ok tree := by
  rw [scan_alone_iff]
  constructor
  · rintro ⟨other, scanned, same⟩
    cases same
    exact scanned
  · exact fun scanned => ⟨tree, scanned, rfl⟩

namespace Progress

variable {progress : Progress}

/-- An event on a path that is spelled below the root is one on its names in the tree of
the only app. -/
theorem applyOne_alone_of_spells (isAlone : progress.registry = .alone name root patterns tree)
    (label : tree.label.path = root) (spells : root.Spells path names) (event : Event) :
    (progress.applyOne event path).registry =
      .alone name root patterns (tree.edited patterns names event).1 := by
  have applied : progress.registry.apply path event =
      .ok (.alone name root patterns (tree.edited patterns names event).1,
        if (tree.edited patterns names event).2 then some name else none) := by
    rw [isAlone, Registry.apply, Registry.ownerPosition?, Registry.alone, Registry.ownerAmong,
      Registry.ownerAmong]
    simp only [spells.isBelow, if_true, Option.map_some, List.getElem?_cons_zero]
    rw [Folder.apply_of_spells (by rwa [label])]
    rfl
  rw [applyOne, applied]
  cases (tree.edited patterns names event).2 <;> rfl

/-- An event on a path that is not below the root does not reach the only app. -/
theorem applyOne_alone_of_not_below
    (isAlone : progress.registry = .alone name root patterns tree)
    (notBelow : root.isBelow path = false) (event : Event) :
    (progress.applyOne event path).registry = .alone name root patterns tree := by
  have applied : progress.registry.apply path event =
      .ok (.alone name root patterns tree, none) := by
    rw [isAlone, Registry.apply, Registry.ownerPosition?, Registry.alone, Registry.ownerAmong,
      Registry.ownerAmong]
    simp only [notBelow, Bool.false_eq_true, if_false, Option.map_none]
  rw [applyOne, applied]

/-- Creating some paths creates the files that they spell below the root. -/
theorem foldl_applyOne_create {paths : List Path}
    (isAlone : progress.registry = .alone name root patterns tree)
    (label : tree.label.path = root)
    (reached : ∀ path ∈ paths, root.isBelow path = false ∨ ∃ names, root.Spells path names) :
    ∃ files, (paths.foldl (fun progress path => progress.applyOne .create path) progress).registry =
        .alone name root patterns (Folder.createAll patterns tree files) ∧
      ∀ names, names ∈ files ↔ ∃ path ∈ paths, root.Spells path names := by
  induction paths generalizing progress tree with
  | nil => exact ⟨[], isAlone, fun names => by simp⟩
  | cons path rest ih =>
    have reachedRest := fun other member => reached other (List.mem_cons_of_mem path member)
    rcases reached path List.mem_cons_self with notBelow | ⟨first, spells⟩
    · obtain ⟨files, isFolded, members⟩ :=
        ih (applyOne_alone_of_not_below isAlone notBelow .create) label reachedRest
      refine ⟨files, isFolded, fun names => ?_⟩
      have notFirst : ¬ root.Spells path names := by
        intro spells
        rw [spells.isBelow] at notBelow
        cases notBelow
      simp only [members, List.mem_cons, exists_eq_or_imp, notFirst, false_or]
    · obtain ⟨files, isFolded, members⟩ :=
        ih (applyOne_alone_of_spells isAlone label spells .create)
          (by rwa [Folder.edited_label]) reachedRest
      refine ⟨first :: files, isFolded, fun names => ?_⟩
      have isFirst : names = first ↔ root.Spells path names := by
        refine ⟨?_, fun spellsNames => spellsNames.unique spells⟩
        rintro rfl
        exact spells
      simp only [members, List.mem_cons, exists_eq_or_imp, isFirst]

/-- Handling a batch handles its events one after the other. -/
theorem registry_process (registry : Registry) (fs : FileSystem) (batch : List Notice) :
    (registry.process fs (batch.map .notice)).registry =
      ((batch.flatMap (·.events fs)).foldl (applyEvent fs) ⟨registry, []⟩).registry := by
  rw [Registry.process, List.foldl_map, List.foldl_flatMap]
  rfl

end Progress

/-! ## What a queue tells -/

/-- Some events, below the root, are about entries at the end of these names; the paths
of the others do not lie below it. -/
inductive Tells (root : Path) : List (Path × Event) → List Signal → Prop
  | nil : Tells root [] []
  | created {events : List (Path × Event)} {signals : List Signal} {names : List String}
      (below : names ≠ []) (areNames : ∀ name ∈ names, IsFileName name)
      (tells : Tells root events signals) :
      Tells root ((root.descendant names, .create) :: events) (.created names :: signals)
  | removed {events : List (Path × Event)} {signals : List Signal} {names : List String}
      (below : names ≠ []) (areNames : ∀ name ∈ names, IsFileName name)
      (tells : Tells root events signals) :
      Tells root ((root.descendant names, .delete) :: events) (.removed names :: signals)
  | elsewhere {events : List (Path × Event)} {signals : List Signal} {path : Path}
      (notBelow : root.isBelow path = false) (event : Event) (tells : Tells root events signals) :
      Tells root ((path, event) :: events) signals

/-- Events that tell signals do so in two parts, one after the other. -/
theorem Tells.append {events others : List (Path × Event)} {signals more : List Signal}
    (tells : Tells root events signals) (tellsOn : Tells root others more) :
    Tells root (events ++ others) (signals ++ more) := by
  induction tells with
  | nil => exact tellsOn
  | created below areNames _ ih => exact .created below areNames ih
  | removed below areNames _ ih => exact .removed below areNames ih
  | elsewhere notBelow event _ ih => exact .elsewhere notBelow event ih

/-- What a notice stands for does not depend on the files, unless the sides of a rename
are not told apart. -/
theorem Notice.events_eq {notice : Notice} (definite : notice.kind ≠ .renamed)
    (fs other : FileSystem) : notice.events fs = notice.events other := by
  obtain ⟨kind, paths⟩ := notice
  cases kind with
  | renamed => exact absurd rfl definite
  | _ => rfl

namespace FileSystem

/-! ## Handling an event -/

/-- A scan of the root succeeds, and the paths of the files it finds are short enough to
be looked at. -/
def InReach (fs : FileSystem) (patterns : List String) (root : Path) : Prop :=
  ∃ tree, fs.scan patterns root = .ok tree ∧
    ∀ label ∈ tree.files, label.path.text.utf8ByteSize < pathLimit

/-- Within reach, the path of every file on offer is short enough. -/
theorem InReach.short (inReach : fs.InReach patterns root) (tidy : fs.Tidy IsFileName)
    (rootAt : fs.RootAt root top) (offers : fs.Offers patterns top names) :
    (root.descendant names).text.utf8ByteSize < pathLimit := by
  obtain ⟨tree, scanned, short⟩ := inReach
  obtain ⟨place, placeAt, lists⟩ := mem_paths_of_scan tidy scanned
  cases rootAt.1.symm.trans placeAt.1
  obtain ⟨label, listed, isPath⟩ := List.mem_map.1 ((lists _).2 ⟨names, offers, rfl⟩)
  rw [← isPath]
  exact short label listed

/-- A created path records the files that it adds below the root. -/
theorem applyEvent_create {progress : Progress}
    (isAlone : progress.registry = .alone name root patterns tree)
    (label : tree.label.path = root)
    (reached : ∀ file ∈ fs.createdFiles patterns path,
      root.isBelow file = false ∨ ∃ names, root.Spells file names) :
    ∃ files, (progress.applyEvent fs (path, .create)).registry =
        .alone name root patterns (Folder.createAll patterns tree files) ∧
      ∀ names, names ∈ files ↔
        ∃ file ∈ fs.createdFiles patterns path, root.Spells file names := by
  rw [Progress.applyEvent, isAlone]
  exact Progress.foldl_applyOne_create isAlone label reached

/-- Handling a created entry takes its signal off. -/
theorem applyEvent_created (tidy : fs.Tidy IsFileName) (rootAt : fs.RootAt root top)
    (inReach : fs.InReach patterns root) {progress : Progress}
    (isAlone : progress.registry = .alone name root patterns tree)
    (label : tree.label.path = root) (below : names ≠ [])
    (areNames : ∀ name ∈ names, IsFileName name) {signals : List Signal}
    (backlog : tree.Backlog fs patterns top (.created names :: signals)) :
    ∃ next, (progress.applyEvent fs (root.descendant names, .create)).registry =
        .alone name root patterns next ∧ next.label = tree.label ∧
      next.Backlog fs patterns top signals := by
  have spelled : ∀ {others : List String}, (∀ name ∈ others, IsFileName name) →
      root.Spells (root.descendant others) others :=
    fun areOthers => root.spells_descendant fun name member => (areOthers name member).toIsName
  have excused : ∀ file ∈ fs.createdFiles patterns (root.descendant names),
      ∃ others, root.Spells file others ∧ fs.Excuses top signals others := by
    intro file member
    obtain ⟨more, rfl, areMore, isFile⟩ :=
      kind?_of_mem_createdFiles rootAt tidy below areNames member
    refine ⟨names ++ more, spelled fun name member => ?_,
      excuses_of_anchored backlog.anchored.1 isFile⟩
    exact (List.mem_append.1 member).elim (areNames name) (areMore name)
  obtain ⟨files, isFolded, members⟩ := applyEvent_create isAlone label fun file member =>
    .inr ((excused file member).imp fun _ => And.left)
  refine ⟨_, isFolded, Folder.createAll_label _ _ _, backlog.created (fun file member _ => ?_) ?_⟩
  · obtain ⟨path, listed, spells⟩ := (members file).1 member
    obtain ⟨others, spellsOthers, isExcused⟩ := excused path listed
    rwa [spells.unique spellsOthers]
  · rintro _ offers ⟨more, rfl⟩
    obtain ⟨fresh, scanned, -⟩ := id inReach
    refine (members _).2 ⟨_, mem_createdFiles_of_offers rootAt tidy scanned below offers
      (inReach.short tidy rootAt offers), spelled fun name member => ?_⟩
    exact tidy.valid_of_kind? (by rw [offers.2]; exact nofun) name
      (List.mem_append_right _ member)

/-- Handling an event elsewhere takes nothing off. -/
theorem applyEvent_elsewhere (tidy : fs.Tidy IsFileName) (rootAt : fs.RootAt root top)
    {progress : Progress} (isAlone : progress.registry = .alone name root patterns tree)
    (label : tree.label.path = root) (notBelow : root.isBelow path = false) (event : Event)
    {signals : List Signal} (backlog : tree.Backlog fs patterns top signals) :
    ∃ next, (progress.applyEvent fs (path, event)).registry = .alone name root patterns next ∧
      next.label = tree.label ∧ next.Backlog fs patterns top signals := by
  cases event with
  | create =>
    have real := fun file (member : file ∈ fs.createdFiles patterns path) =>
      kind?_of_mem_createdFiles_elsewhere rootAt tidy notBelow member
    obtain ⟨files, isFolded, members⟩ := applyEvent_create isAlone label fun file member =>
      (real file member).imp_right fun found => found.imp fun _ => And.left
    refine ⟨_, isFolded, Folder.createAll_label _ _ _,
      backlog.createdElsewhere fun names member admitted => ?_⟩
    obtain ⟨file, listed, spells⟩ := (members names).1 member
    rcases real file listed with outside | ⟨others, spellsOthers, isFile⟩
    · rw [spells.isBelow] at outside
      cases outside
    · rw [spells.unique spellsOthers] at admitted ⊢
      exact excuses_of_file (isFile admitted.ne_nil) signals
  | delete => exact ⟨tree, Progress.applyOne_alone_of_not_below isAlone notBelow _, rfl, backlog⟩
  | update => exact ⟨tree, Progress.applyOne_alone_of_not_below isAlone notBelow _, rfl, backlog⟩

/-- Handling an event takes off what it tells. -/
theorem applyEvent_backlog (tidy : fs.Tidy IsFileName) (rootAt : fs.RootAt root top)
    (inReach : fs.InReach patterns root) {progress : Progress}
    (isAlone : progress.registry = .alone name root patterns tree)
    (label : tree.label.path = root) {event : Path × Event} {events : List (Path × Event)}
    {signals : List Signal} (tells : Tells root (event :: events) signals)
    (backlog : tree.Backlog fs patterns top signals) :
    ∃ next rest, (progress.applyEvent fs event).registry = .alone name root patterns next ∧
      next.label = tree.label ∧ Tells root events rest ∧ next.Backlog fs patterns top rest := by
  cases tells with
  | @created _ rest names below areNames tellsOn =>
    obtain ⟨next, isNext, labelNext, backlogNext⟩ :=
      applyEvent_created tidy rootAt inReach isAlone label below areNames backlog
    exact ⟨next, rest, isNext, labelNext, tellsOn, backlogNext⟩
  | @removed _ rest names below areNames tellsOn =>
    have spells := root.spells_descendant fun name member => (areNames name member).toIsName
    exact ⟨_, rest, Progress.applyOne_alone_of_spells isAlone label spells .delete,
      Folder.edited_label _ _ _ _, tellsOn, backlog.removed below⟩
  | elsewhere notBelow kind tellsOn =>
    obtain ⟨next, isNext, labelNext, backlogNext⟩ :=
      applyEvent_elsewhere tidy rootAt isAlone label notBelow kind backlog
    exact ⟨next, signals, isNext, labelNext, tellsOn, backlogNext⟩

/-- Handling some events takes off what they tell. -/
theorem foldl_applyEvent_backlog (tidy : fs.Tidy IsFileName) (rootAt : fs.RootAt root top)
    (inReach : fs.InReach patterns root) {progress : Progress}
    (isAlone : progress.registry = .alone name root patterns tree)
    (label : tree.label.path = root) {events others : List (Path × Event)}
    {signals : List Signal} (tells : Tells root (events ++ others) signals)
    (backlog : tree.Backlog fs patterns top signals) :
    ∃ next rest, (events.foldl (Progress.applyEvent fs) progress).registry =
        .alone name root patterns next ∧
      next.label = tree.label ∧ Tells root others rest ∧ next.Backlog fs patterns top rest := by
  induction events generalizing progress tree signals with
  | nil => exact ⟨tree, signals, isAlone, rfl, tells, backlog⟩
  | cons event events ih =>
    obtain ⟨mid, middle, isMid, labelMid, tellsMid, backlogMid⟩ :=
      applyEvent_backlog tidy rootAt inReach isAlone label tells backlog
    obtain ⟨next, rest, isNext, labelNext, tellsNext, backlogNext⟩ :=
      ih isMid (by rwa [labelMid]) tellsMid backlogMid
    exact ⟨next, rest, isNext, labelNext.trans labelMid, tellsNext, backlogNext⟩

end FileSystem

end RouteAtlas
