import RouteAtlas.Proofs.Registry.Isolation
import RouteAtlas.Watch.Batch

/-!
# What a batch changes and reports

A batch reports what it changed, and whatever is of no use in it might as well be left out
(`Registry.process_reports_changes`). It names each app whose tree is another one
afterwards, and names no app whose tree no event has changed on the way; and two batches
handled one after the other against the same files do what they do as one.

Handling a batch is one run of events: every notice stands for some events, and each of
them is applied to all paths that it affects (`Report.occurrences`). The files and the
ignore patterns stay the same meanwhile, so the run is known before it starts
(`Registry.process_eq`), and everything else is said about runs. What a run reports are the
names that the registry tells on the way (`Registry.mem_tells_iff`), in order and each once
(`Registry.sorted_changed`). An event that is refused, or whose path lies below no root,
does nothing whatever happened before, since roots do not move (`Registry.ignores_after`).
-/

set_option autoImplicit false

namespace RouteAtlas

variable {fs : FileSystem} {registry : Registry} {occurrence : Path × Event}
  {events : List (Path × Event)} {name : String} {position : Nat}

/-- The events that a report leads to, one for each path that is affected, in order. -/
def Report.occurrences (fs : FileSystem) (patterns : List String) : Report → List (Path × Event)
  | .trouble _ => []
  | .notice noticed => (noticed.events fs).flatMap fun event =>
    (fs.affected patterns event.1 event.2).map (·, event.2)

namespace Registry

/-- The events that a batch leads to. -/
def occurrences (registry : Registry) (fs : FileSystem) (batch : List Report) :
    List (Path × Event) :=
  batch.flatMap (Report.occurrences fs registry.patterns)

/-- The tree of the app at a position. -/
def treeAt (registry : Registry) (position : Nat) : Option Folder :=
  registry.apps[position]?.map (·.tree)

/-- The names that the registry tells in a run, in their order. -/
def tells (registry : Registry) : List (Path × Event) → List String
  | [] => []
  | occurrence :: rest =>
    (registry.told occurrence).toList ++ (registry.after occurrence).tells rest

/-- Whether an event is refused because its path leaves the root of the owner. -/
def refuses (registry : Registry) (occurrence : Path × Event) : Bool :=
  match registry.apply occurrence.1 occurrence.2 with
  | .error (.pathEscapes _) => true
  | _ => false

/-- Whether an event is refused or its path lies below no root. -/
def ignores (registry : Registry) (occurrence : Path × Event) : Bool :=
  (registry.ownerPosition? occurrence.1).isNone || registry.refuses occurrence

end Registry

/-- Whether a report is of no use: the watch has failed, nothing that concerns a route or
nothing but contents has changed, or every event that the notice leads to is ignored. -/
def Report.isIdle (fs : FileSystem) (registry : Registry) : Report → Bool
  | .trouble _ => true
  | .notice noticed =>
    match noticed.kind with
    | .unrelated => true
    | .modified => true
    | _ => (occurrences fs registry.patterns (.notice noticed)).all registry.ignores

/-! ## Names in order -/

/-- The names after one is put in are that one and the old ones. -/
theorem mem_insertName {other : String} {names : List String} :
    other ∈ insertName name names ↔ other = name ∨ other ∈ names := by
  induction names with
  | nil => simp [insertName]
  | cons first rest ih =>
    rw [insertName]
    split_ifs with less same
    · exact List.mem_cons
    · simp [same]
    · simp [ih, or_left_comm]

/-- To put a name in keeps the order. -/
theorem sorted_insertName {names : List String} (sorted : names.Pairwise (· < ·)) :
    (insertName name names).Pairwise (· < ·) := by
  induction names with
  | nil => exact List.pairwise_singleton _ _
  | cons first rest ih =>
    obtain ⟨least, sortedRest⟩ := List.pairwise_cons.1 sorted
    rw [insertName]
    split_ifs with less same
    · refine List.pairwise_cons.2 ⟨List.forall_mem_cons.2 ⟨less, fun other later => ?_⟩, sorted⟩
      exact String.lt_trans less (least other later)
    · exact sorted
    · refine List.pairwise_cons.2 ⟨fun other member => ?_, ih sortedRest⟩
      rcases mem_insertName.1 member with rfl | later
      · exact Decidable.byContradiction fun notGreater =>
          same (String.le_antisymm (String.not_lt.1 notGreater) (String.not_lt.1 less))
      · exact least other later

/-- Puts some names into a list of names in increasing order. -/
def insertNames (names sorted : List String) : List String :=
  names.foldl (fun sorted name => insertName name sorted) sorted

/-- The names after some are put in are these and the old ones. -/
theorem mem_insertNames {names sorted : List String} :
    name ∈ insertNames names sorted ↔ name ∈ names ∨ name ∈ sorted := by
  induction names generalizing sorted with
  | nil => simp [insertNames]
  | cons first rest ih =>
    refine ih.trans ?_
    simp only [mem_insertName, List.mem_cons, or_assoc, or_left_comm]

/-- To put names in keeps the order. -/
theorem sorted_insertNames {names sorted : List String} (isSorted : sorted.Pairwise (· < ·)) :
    (insertNames names sorted).Pairwise (· < ·) := by
  induction names generalizing sorted with
  | nil => exact isSorted
  | cons first rest ih => exact ih (sorted_insertName isSorted)

/-! ## Runs -/

namespace Registry

/-- Events are run in two parts, one after the other. -/
theorem run_append (registry : Registry) (events others : List (Path × Event)) :
    registry.run (events ++ others) = (registry.run events).run others :=
  List.foldl_append

/-- What two runs of events tell comes one after the other. -/
theorem tells_append (registry : Registry) (events others : List (Path × Event)) :
    registry.tells (events ++ others) =
      registry.tells events ++ (registry.run events).tells others := by
  induction events generalizing registry with
  | nil => rfl
  | cons occurrence rest ih =>
    rw [List.cons_append, tells, tells, ih, List.append_assoc]
    rfl

/-- A run tells a name exactly if some event of it does. -/
theorem mem_tells_iff : name ∈ registry.tells events ↔
    ∃ before occurrence after, events = before ++ occurrence :: after ∧
      (registry.run before).told occurrence = some name := by
  constructor
  · induction events generalizing registry with
    | nil => exact nofun
    | cons occurrence rest ih =>
      intro member
      rcases List.mem_append.1 member with first | later
      · exact ⟨[], occurrence, rest, rfl, Option.mem_toList.1 first⟩
      · obtain ⟨before, other, after, rfl, tells⟩ := ih later
        exact ⟨occurrence :: before, other, after, rfl, tells⟩
  · rintro ⟨before, occurrence, after, rfl, isTold⟩
    rw [tells_append, tells, isTold]
    simp

/-- An event tells a name exactly if it gives an app of this name another tree. -/
theorem told_eq_some_iff_treeAt (canonical : registry.Canonical) :
    registry.told occurrence = some name ↔
      ∃ position app, registry.apps[position]? = some app ∧ app.name = name ∧
        (registry.after occurrence).treeAt position ≠ registry.treeAt position := by
  rw [told_eq_some_iff canonical]
  refine exists_congr fun position => exists_congr fun app => ?_
  constructor
  · rintro ⟨isOwner, atPosition, rfl, different⟩
    refine ⟨atPosition, rfl, ?_⟩
    simpa [treeAt, getElem?_after, atPosition, isOwner] using different
  · rintro ⟨atPosition, rfl, different⟩
    have isOwner : registry.ownerPosition? occurrence.1 = some position := by
      refine Decidable.byContradiction fun elsewhere => different ?_
      simp [treeAt, getElem?_after, elsewhere]
    refine ⟨isOwner, atPosition, rfl, ?_⟩
    simpa [treeAt, getElem?_after, atPosition, isOwner] using different

/-- A canonical registry stays so through a run of events. -/
theorem Canonical.run (canonical : registry.Canonical) (events : List (Path × Event)) :
    (registry.run events).Canonical := by
  induction events generalizing registry with
  | nil => exact canonical
  | cons occurrence rest ih => exact ih (canonical.after occurrence)

/-- A run does not change the names of the apps. -/
theorem exists_name_run_iff (registry : Registry) (events : List (Path × Event))
    (position : Nat) (name : String) :
    (∃ app, (registry.run events).apps[position]? = some app ∧ app.name = name) ↔
      ∃ app, registry.apps[position]? = some app ∧ app.name = name := by
  rw [getElem?_run]
  cases registry.apps[position]? <;> simp

/-- A run tells a name exactly if some event of it gives an app of this name another
tree. -/
theorem mem_tells_iff_treeAt (canonical : registry.Canonical) :
    name ∈ registry.tells events ↔
      ∃ before occurrence after, events = before ++ occurrence :: after ∧
        ∃ position app, registry.apps[position]? = some app ∧ app.name = name ∧
          (registry.run (before ++ [occurrence])).treeAt position ≠
            (registry.run before).treeAt position := by
  rw [mem_tells_iff]
  refine exists_congr fun before => exists_congr fun occurrence => exists_congr fun after =>
    and_congr_right fun _ => ?_
  rw [told_eq_some_iff_treeAt (canonical.run before), run_append]
  refine exists_congr fun position => ?_
  simp only [← and_assoc, exists_and_right, exists_name_run_iff]
  rfl

/-- If a run gives an app another tree, then some event of it does. -/
theorem exists_event_of_treeAt_ne
    (different : (registry.run events).treeAt position ≠ registry.treeAt position) :
    ∃ before occurrence after, events = before ++ occurrence :: after ∧
      (registry.run (before ++ [occurrence])).treeAt position ≠
        (registry.run before).treeAt position := by
  induction events generalizing registry with
  | nil => exact absurd rfl different
  | cons occurrence rest ih =>
    by_cases same : (registry.after occurrence).treeAt position = registry.treeAt position
    · rw [← same] at different
      obtain ⟨before, other, after, rfl, changes⟩ := ih different
      exact ⟨occurrence :: before, other, after, rfl, changes⟩
    · exact ⟨[], occurrence, rest, rfl, same⟩

/-- A run tells the name of each app whose tree is another one afterwards. -/
theorem mem_tells_of_treeAt_ne (canonical : registry.Canonical) {app : App}
    (atPosition : registry.apps[position]? = some app)
    (different : (registry.run events).treeAt position ≠ registry.treeAt position) :
    app.name ∈ registry.tells events := by
  obtain ⟨before, occurrence, after, isSplit, changes⟩ := exists_event_of_treeAt_ne different
  exact (mem_tells_iff_treeAt canonical).2
    ⟨before, occurrence, after, isSplit, position, app, atPosition, rfl, changes⟩

/-! ## Ignored events -/

/-- An event is refused if an app owns its path and the path leaves the root of the app's
tree. -/
theorem refuses_iff : registry.refuses occurrence = true ↔
    ∃ position app, registry.ownerPosition? occurrence.1 = some position ∧
      registry.apps[position]? = some app ∧ app.tree.label.path.Escapes occurrence.1 := by
  obtain ⟨path, event⟩ := occurrence
  rw [refuses]
  cases isPosition : registry.ownerPosition? path with
  | none => simp [apply_of_none isPosition]
  | some own =>
    obtain ⟨owner, owns⟩ := exists_owns_of_ownerPosition? isPosition
    simp only [apply_of_owns isPosition owns, Option.some.injEq]
    by_cases escapes : owner.tree.label.path.Escapes path
    · rw [Folder.apply_of_escapes escapes]
      exact iff_of_true rfl ⟨own, owner, rfl, owns.atPosition, escapes⟩
    · have answered : ∃ outcome,
          owner.tree.apply registry.patterns path event = .ok outcome := by
        rcases Path.exists_spells_of_not_escapes escapes with ⟨names, spells⟩ | apart
        · exact ⟨_, Folder.apply_of_spells spells event⟩
        · exact ⟨_, Folder.apply_of_not_below apart⟩
      obtain ⟨outcome, isOutcome⟩ := answered
      rw [isOutcome]
      refine iff_of_false Bool.false_ne_true ?_
      rintro ⟨position, app, rfl, atPosition, escapesApp⟩
      cases owns.atPosition.symm.trans atPosition
      exact escapes escapesApp

/-- Events do not move the roots, and so do not change what is ignored. -/
theorem ignores_after (registry : Registry) (first occurrence : Path × Event) :
    (registry.after first).ignores occurrence = registry.ignores occurrence := by
  have same : (registry.after first).refuses occurrence = registry.refuses occurrence := by
    rw [Bool.eq_iff_iff, refuses_iff, refuses_iff]
    refine exists_congr fun position => ?_
    rw [ownerPosition?_after, getElem?_after]
    cases registry.apps[position]? with
    | none => simp
    | some app => by_cases own : registry.ownerPosition? first.1 = some position <;> simp [own]
  rw [ignores, ignores, ownerPosition?_after, same]

/-- What is ignored stays so through a run of events. -/
theorem ignores_run (registry : Registry) (events : List (Path × Event))
    (occurrence : Path × Event) :
    (registry.run events).ignores occurrence = registry.ignores occurrence := by
  induction events generalizing registry with
  | nil => rfl
  | cons first rest ih => exact (ih _).trans (registry.ignores_after first occurrence)

/-- An event that is ignored changes nothing and tells nothing. -/
theorem after_of_ignores (ignored : registry.ignores occurrence = true) :
    registry.after occurrence = registry ∧ registry.told occurrence = none := by
  rw [ignores, Bool.or_eq_true, Option.isNone_iff_eq_none] at ignored
  rcases ignored with none | refused
  · rw [after, told, apply_of_none none]
    exact ⟨rfl, rfl⟩
  · rw [refuses] at refused
    rw [after, told]
    split at refused
    next failed => exact ⟨by rw [failed], by rw [failed]⟩
    next => cases refused

/-- An update changes nothing and tells nothing. -/
theorem after_of_update (registry : Registry) (path : Path) :
    registry.after (path, .update) = registry ∧ registry.told (path, .update) = none := by
  have idle : ∀ app ∈ registry.apps, app.tree.after registry.patterns (path, .update) = app.tree ∧
      app.tree.reply registry.patterns (path, .update) ≠ .ok true := by
    intro app _
    rw [Folder.after, Folder.reply]
    rcases app.tree.apply_cases registry.patterns path .update with
      ⟨failure, refused⟩ | unchanged | ⟨names, -, edited⟩
    · simp [refused, Except.map]
    · simp [unchanged, Except.map]
    · simp [edited, Folder.edited, Except.map]
  constructor
  · refine ext_getElem? (patterns_after _ _) fun position => ?_
    rw [getElem?_after]
    cases atPosition : registry.apps[position]? with
    | none => rfl
    | some app => simp [(idle app (List.mem_of_getElem? atPosition)).1]
  · refine Option.eq_none_iff_forall_not_mem.2 fun name isTold => ?_
    cases isPosition : registry.ownerPosition? path with
    | none =>
      rw [Option.mem_def, told, apply_of_none isPosition] at isTold
      cases isTold
    | some own =>
      obtain ⟨owner, owns⟩ := exists_owns_of_ownerPosition? isPosition
      exact (idle owner (List.mem_of_getElem? owns.atPosition)).2
        ((told_of_owns isPosition owns).1 isTold).2

end Registry

/-! ## Batches as runs -/

namespace Progress

/-- Handles a run of events. -/
def follow (progress : Progress) (events : List (Path × Event)) : Progress :=
  ⟨progress.registry.run events, insertNames (progress.registry.tells events) progress.changed⟩

variable {progress : Progress}

/-- Events are followed in two parts, one after the other. -/
theorem follow_append (progress : Progress) (events others : List (Path × Event)) :
    progress.follow (events ++ others) = (progress.follow events).follow others := by
  simp only [follow, Registry.run_append, Registry.tells_append, insertNames, List.foldl_append]

/-- Events that do nothing leave the progress as it is. -/
theorem follow_of_idle (idle : ∀ occurrence ∈ events,
    progress.registry.after occurrence = progress.registry ∧
      progress.registry.told occurrence = none) : progress.follow events = progress := by
  induction events with
  | nil => rfl
  | cons occurrence rest ih =>
    obtain ⟨⟨stays, silent⟩, others⟩ := List.forall_mem_cons.1 idle
    have first : progress.follow [occurrence] = progress := by
      simp [follow, Registry.run, Registry.tells, insertNames, stays, silent]
    rw [← List.singleton_append, follow_append, first, ih others]

/-- If each item is handled by following some events, so is a list of items. -/
theorem foldl_eq_follow {α : Type} {handle : Progress → α → Progress}
    (eventsOf : List String → α → List (Path × Event))
    (each : ∀ progress item,
      handle progress item = progress.follow (eventsOf progress.registry.patterns item))
    (progress : Progress) (items : List α) :
    items.foldl handle progress =
      progress.follow (items.flatMap (eventsOf progress.registry.patterns)) := by
  induction items generalizing progress with
  | nil => rfl
  | cons item rest ih =>
    have samePatterns : ∀ events, (progress.follow events).registry.patterns =
        progress.registry.patterns := fun events => Registry.patterns_run _ _
    rw [List.foldl_cons, ih, each, samePatterns, List.flatMap_cons, follow_append]

/-- To apply an event to a path is to follow it. -/
theorem applyOne_eq (progress : Progress) (event : Event) (path : Path) :
    progress.applyOne event path = progress.follow [(path, event)] := by
  simp only [follow, Registry.run, Registry.tells, List.foldl_cons, List.foldl_nil,
    List.append_nil]
  rw [applyOne, Registry.after, Registry.told]
  rcases progress.registry.apply path event with failure | ⟨next, told⟩
  · rfl
  · cases told <;> rfl

/-- To apply an event is to follow it on every path that it affects. -/
theorem applyEvent_eq (fs : FileSystem) (progress : Progress) (event : Path × Event) :
    progress.applyEvent fs event = progress.follow
      ((fs.affected progress.registry.patterns event.1 event.2).map (·, event.2)) := by
  rw [applyEvent, List.map_eq_flatMap]
  exact foldl_eq_follow (fun _ path => [(path, event.2)])
    (fun progress path => progress.applyOne_eq event.2 path) progress _

/-- To apply a report is to follow what occurs by it. -/
theorem applyReport_eq (fs : FileSystem) (progress : Progress) (report : Report) :
    progress.applyReport fs report =
      progress.follow (report.occurrences fs progress.registry.patterns) := by
  cases report with
  | trouble => rfl
  | notice noticed =>
    exact foldl_eq_follow
      (fun patterns event => (fs.affected patterns event.1 event.2).map (·, event.2))
      (applyEvent_eq fs) progress (noticed.events fs)

end Progress

namespace Registry

/-- Handling a batch is a run of the events that it leads to. -/
theorem process_eq (registry : Registry) (fs : FileSystem) (batch : List Report) :
    registry.process fs batch = Progress.follow ⟨registry, []⟩ (registry.occurrences fs batch) :=
  Progress.foldl_eq_follow (Report.occurrences fs) (Progress.applyReport_eq fs) ⟨registry, []⟩ batch

/-- A report that is of no use leads to events that change nothing and tell nothing. -/
theorem after_of_isIdle {report : Report} (isIdle : report.isIdle fs registry = true)
    (member : occurrence ∈ report.occurrences fs registry.patterns) :
    registry.after occurrence = registry ∧ registry.told occurrence = none := by
  cases report with
  | trouble => cases member
  | notice noticed =>
    obtain ⟨kind, paths⟩ := noticed
    have ignored : (Report.occurrences fs registry.patterns (.notice ⟨kind, paths⟩)).all
        registry.ignores = true → registry.after occurrence = registry ∧
          registry.told occurrence = none :=
      fun all => after_of_ignores (List.all_eq_true.1 all occurrence member)
    cases kind with
    | unrelated => cases member
    | modified =>
      obtain ⟨event, isEvent, affected⟩ := List.mem_flatMap.1 member
      obtain ⟨path, -, rfl⟩ := List.mem_map.1 isEvent
      obtain ⟨other, -, rfl⟩ := List.mem_map.1 affected
      exact after_of_update registry other
    | created | removed | renamedFrom | renamedTo | renamedBoth | renamed => exact ignored isIdle

/-- What is of no use does not depend on what happened before. -/
theorem isIdle_run (registry : Registry) (events : List (Path × Event)) (report : Report) :
    report.isIdle fs (registry.run events) = report.isIdle fs registry := by
  cases report with
  | trouble => rfl
  | notice noticed =>
    have same : (registry.run events).ignores = registry.ignores :=
      funext fun occurrence => registry.ignores_run events occurrence
    rw [Report.isIdle, Report.isIdle, patterns_run, same]

end Registry

/-- Reports that are of no use may be left out of a batch. -/
theorem Progress.foldl_applyReport_filter (fs : FileSystem) (progress : Progress)
    (batch : List Report) :
    batch.foldl (Progress.applyReport fs) progress =
      (batch.filter fun report => !report.isIdle fs progress.registry).foldl
        (Progress.applyReport fs) progress := by
  induction batch generalizing progress with
  | nil => rfl
  | cons report rest ih =>
    have handled := Progress.applyReport_eq fs progress report
    rw [List.foldl_cons, ih, List.filter_cons]
    cases isIdle : report.isIdle fs progress.registry with
    | true =>
      rw [Progress.follow_of_idle fun _ => Registry.after_of_isIdle isIdle] at handled
      simp [handled]
    | false => simp [handled, Progress.follow, Registry.isIdle_run]

namespace Registry

/-- The names reported are in order, each once. -/
theorem sorted_changed (registry : Registry) (fs : FileSystem) (batch : List Report) :
    (registry.process fs batch).changed.Pairwise (· < ·) := by
  rw [process_eq]
  exact sorted_insertNames .nil

/-- The names that a batch reports are those that its events tell. -/
theorem mem_changed_iff {batch : List Report} : name ∈ (registry.process fs batch).changed ↔
    name ∈ registry.tells (registry.occurrences fs batch) := by
  rw [process_eq, Progress.follow, mem_insertNames]
  simp

/-- What occurs by two batches comes one after the other. -/
theorem occurrences_append (registry : Registry) (fs : FileSystem) (batch later : List Report) :
    registry.occurrences fs (batch ++ later) =
      registry.occurrences fs batch ++ registry.occurrences fs later :=
  List.flatMap_append

/-- Handling a batch comes to the same without the reports that are of no use. It applies
the events that the batch leads to, one after the other. If the trees are as scans build
them, they still are afterwards, the name of each app whose tree is another one is reported,
and no other name than that of an app whose tree some event has changed. Two batches one
after the other do and report together what they do and report as one. -/
theorem process_reports_changes (registry : Registry) (fs : FileSystem) (batch : List Report) :
    registry.process fs batch =
      registry.process fs (batch.filter fun report => !report.isIdle fs registry) ∧
    (registry.process fs batch).registry = registry.run (registry.occurrences fs batch) ∧
    (registry.Canonical →
      (registry.process fs batch).registry.Canonical ∧
      (∀ position app, registry.apps[position]? = some app →
        (registry.process fs batch).registry.treeAt position ≠ registry.treeAt position →
        app.name ∈ (registry.process fs batch).changed) ∧
      ∀ name ∈ (registry.process fs batch).changed,
        ∃ before occurrence after,
          registry.occurrences fs batch = before ++ occurrence :: after ∧
          ∃ position app, registry.apps[position]? = some app ∧ app.name = name ∧
            (registry.run (before ++ [occurrence])).treeAt position ≠
              (registry.run before).treeAt position) ∧
    ∀ later,
      (registry.process fs (batch ++ later)).registry =
        ((registry.process fs batch).registry.process fs later).registry ∧
      ∀ name, name ∈ (registry.process fs (batch ++ later)).changed ↔
        name ∈ (registry.process fs batch).changed ∨
          name ∈ ((registry.process fs batch).registry.process fs later).changed := by
  have isRun : (registry.process fs batch).registry =
      registry.run (registry.occurrences fs batch) := by
    rw [process_eq]
    rfl
  refine ⟨Progress.foldl_applyReport_filter fs ⟨registry, []⟩ batch, isRun,
    fun canonical => ⟨?_, ?_, ?_⟩, fun later => ?_⟩
  · rw [isRun]
    exact canonical.run _
  · intro position app atPosition different
    rw [isRun] at different
    exact mem_changed_iff.2 (mem_tells_of_treeAt_ne canonical atPosition different)
  · exact fun name reported => (mem_tells_iff_treeAt canonical).1 (mem_changed_iff.1 reported)
  · have sameEvents : (registry.process fs batch).registry.occurrences fs later =
        registry.occurrences fs later := by
      rw [isRun, occurrences, patterns_run, occurrences]
    constructor
    · rw [process_eq, process_eq _ fs later, sameEvents, occurrences_append, isRun]
      exact run_append registry _ _
    · intro name
      rw [mem_changed_iff, mem_changed_iff, mem_changed_iff, sameEvents, occurrences_append, isRun,
        tells_append, List.mem_append]

/-- A file is removed and written again, so that its app is reported with the tree that it
had before; the other app gets a file. A failure of the watch, other contents and a path
that leaves the root could have been left out. -/
theorem process_reports_changes_recreated :
    let file (name : String) : Slot := ⟨name, .file ""⟩
    let before : FileSystem :=
      ⟨[⟨"r", .directory [⟨"n", .directory [file "c.entrypoint.js"]⟩]⟩, file "b.entrypoint.js"], []⟩
    let fs : FileSystem :=
      ⟨[⟨"r", .directory [⟨"n", .directory [file "c.entrypoint.js"]⟩, file "a.entrypoint.js"]⟩,
        file "b.entrypoint.js"], []⟩
    let notice (kind : NoticeKind) (path : String) : Report := .notice ⟨kind, [⟨path⟩]⟩
    let useful : List Report := [notice .removed "r/n/c.entrypoint.js", notice .created "r//n/",
      notice .created "r/a.entrypoint.js"]
    let batch : List Report := [.trouble "", notice .modified "r/n/c.entrypoint.js",
      notice .created "r/../b.entrypoint.js"] ++ useful
    ∃ registry app,
      Registry.scan before [] [("outer", ⟨"r"⟩), ("inner", ⟨"r/n"⟩)] = .ok registry ∧
      registry.Canonical ∧ registry.apps[0]? = some app ∧
      registry.process fs batch = registry.process fs useful ∧
      (registry.process fs batch).registry.treeAt 0 ≠ registry.treeAt 0 ∧
      app.name ∈ (registry.process fs batch).changed ∧
      (registry.process fs batch).registry.treeAt 1 = registry.treeAt 1 ∧
      "inner" ∈ (registry.process fs batch).changed := by
  intro file before fs notice useful batch
  have checked : (Registry.scan before [] [("outer", ⟨"r"⟩), ("inner", ⟨"r/n"⟩)]).map
      (fun registry =>
        (registry.apps[0]?.map (·.name), batch.map (·.isIdle fs registry),
          decide ((registry.process fs batch).registry.treeAt 0 = registry.treeAt 0),
          decide ((registry.process fs batch).registry.treeAt 1 = registry.treeAt 1),
          (registry.process fs batch).changed)) =
      .ok (some "outer", [true, true, true, false, false, false], false, true,
        ["inner", "outer"]) := by
    decide +kernel
  obtain ⟨registry, scanned, facts⟩ := map_eq_ok_iff.1 checked
  simp only [Prod.mk.injEq, decide_eq_true_eq, decide_eq_false_iff_not] at facts
  obtain ⟨isOuter, areIdle, differs, same, reported⟩ := facts
  obtain ⟨app, atPosition, -⟩ := Option.map_eq_some_iff.1 isOuter
  have left : batch.filter (fun report => !report.isIdle fs registry) = useful := by
    simp only [batch, useful, List.cons_append, List.nil_append, List.map_cons, List.map_nil,
      List.cons.injEq, and_true] at areIdle
    obtain ⟨first, second, third, fourth, fifth, sixth⟩ := areIdle
    simp [batch, useful, first, second, third, fourth, fifth, sixth]
  have canonical := canonical_of_scan scanned
  obtain ⟨without, -, changes, -⟩ := process_reports_changes registry fs batch
  rw [left] at without
  exact ⟨registry, app, scanned, canonical, atPosition, without, differs,
    (changes canonical).2.1 0 app atPosition differs, same, by simp [reported]⟩

end Registry

end RouteAtlas
