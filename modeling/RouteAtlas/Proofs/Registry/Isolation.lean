import RouteAtlas.Proofs.FileTree.Valid
import RouteAtlas.Proofs.Registry.Owners

/-!
# Apps do not disturb one another

An event reaches the tree of the app that owns its path and nothing else
(`Registry.getElem?_after`), and the registry tells a name exactly if that tree is another
one afterwards (`Registry.told_eq_some_iff`). Roots and names never change, so who owns a
path does not depend on what happened before. Therefore the tree of an app is made by the
events on its own paths, in their order (`Registry.getElem?_run`), and two runs that agree
on these for each app lead to the same registry: independent streams of events can be
mixed in any way (`Registry.owner_alone_follows_events`).
-/

set_option autoImplicit false

namespace RouteAtlas

/-- A scan makes a canonical tree of any file system. -/
theorem FileSystem.canonical_of_scan {fs : FileSystem} {patterns : List String} {root : Path}
    {tree : Folder} (scanned : fs.scan patterns root = .ok tree) : tree.Canonical := by
  obtain ⟨slots, -, -, rfl⟩ := FileSystem.scan_eq_ok_iff.1 scanned
  exact Slot.canonical_record patterns _ slots

namespace Registry

variable {registry : Registry} {path : Path} {event : Event} {position : Nat} {owner : App}
  {occurrence : Path × Event}

/-- The registry after an event on a path. An event that is refused leaves it as it
was. -/
def after (registry : Registry) (occurrence : Path × Event) : Registry :=
  match registry.apply occurrence.1 occurrence.2 with
  | .ok (next, _) => next
  | .error _ => registry

/-- The name that an event on a path makes the registry tell, if any. -/
def told (registry : Registry) (occurrence : Path × Event) : Option String :=
  match registry.apply occurrence.1 occurrence.2 with
  | .ok (_, told) => told
  | .error _ => none

/-- The registry after a run of events. -/
def run (registry : Registry) (events : List (Path × Event)) : Registry :=
  events.foldl after registry

/-- The events of a run whose paths the app at a position owns, in their order. -/
def eventsOf (registry : Registry) (position : Nat) (events : List (Path × Event)) :
    List (Path × Event) :=
  events.filter fun occurrence => registry.ownerPosition? occurrence.1 = some position

/-- Every app has a tree as scans build them. -/
def Canonical (registry : Registry) : Prop := ∀ app ∈ registry.apps, app.tree.Canonical

/-! ## One event -/

/-- An event that no app owns changes nothing. -/
theorem apply_of_none (none : registry.ownerPosition? path = none) :
    registry.apply path event = .ok (registry, .none) := by
  rw [apply, none]

/-- An event is applied to the tree of the app that owns its path. -/
theorem apply_of_owns (isPosition : registry.ownerPosition? path = some position)
    (owns : Owns path registry.apps position owner) :
    registry.apply path event =
      (owner.tree.apply registry.patterns path event).map fun (tree, changed) =>
        (registry.withTree position tree, if changed then some owner.name else none) := by
  rw [apply, isPosition]
  simp only [owns.atPosition]

/-- To give an app another tree changes the app at its position only. -/
theorem getElem?_withTree (registry : Registry) (position : Nat) (tree : Folder) (other : Nat) :
    (registry.withTree position tree).apps[other]? =
      registry.apps[other]?.map fun app =>
        if position = other then { app with tree := tree } else app := by
  rw [withTree, List.getElem?_modify]
  split <;> simp

/-- An event makes of the tree of an app what it makes of that tree alone, if the app owns
the path, and leaves the tree as it is otherwise. -/
theorem getElem?_after (registry : Registry) (occurrence : Path × Event) (position : Nat) :
    (registry.after occurrence).apps[position]? =
      registry.apps[position]?.map fun app =>
        if registry.ownerPosition? occurrence.1 = some position then
          { app with tree := app.tree.after registry.patterns occurrence }
        else app := by
  obtain ⟨path, event⟩ := occurrence
  cases isPosition : registry.ownerPosition? path with
  | none =>
    simp only [after, apply_of_none isPosition]
    simp
  | some own =>
    obtain ⟨owner, owns⟩ := exists_owns_of_ownerPosition? isPosition
    simp only [after, apply_of_owns isPosition owns, Option.some.injEq]
    cases applied : owner.tree.apply registry.patterns path event with
    | error failure =>
      by_cases same : own = position
      · subst same
        simp [Except.map, owns.atPosition, Folder.after, applied]
      · simp [Except.map, same]
    | ok outcome =>
      simp only [Except.map, getElem?_withTree]
      by_cases same : own = position
      · subst same
        simp [owns.atPosition, Folder.after, applied]
      · simp [same]

/-- The ignore patterns stay the same through an event. -/
@[simp] theorem patterns_after (registry : Registry) (occurrence : Path × Event) :
    (registry.after occurrence).patterns = registry.patterns := by
  obtain ⟨path, event⟩ := occurrence
  cases isPosition : registry.ownerPosition? path with
  | none => simp only [after, apply_of_none isPosition]
  | some own =>
    obtain ⟨owner, owns⟩ := exists_owns_of_ownerPosition? isPosition
    simp only [after, apply_of_owns isPosition owns]
    cases owner.tree.apply registry.patterns path event <;> rfl

/-- Events do not move the roots, and so do not change who owns a path. -/
@[simp] theorem ownerPosition?_after (registry : Registry) (occurrence : Path × Event)
    (path : Path) :
    (registry.after occurrence).ownerPosition? path = registry.ownerPosition? path := by
  refine congrArg (Option.map _) (ownerAmong_congr (List.ext_getElem? fun position => ?_))
  rw [List.getElem?_map, List.getElem?_map, getElem?_after, Option.map_map]
  refine Option.map_congr fun app _ => ?_
  simp only [Function.comp]
  split <;> rfl

/-- A name is told if it is the owner's and the owner's tree has changed. -/
theorem told_of_owns (isPosition : registry.ownerPosition? path = some position)
    (owns : Owns path registry.apps position owner) {name : String} :
    registry.told (path, event) = some name ↔
      name = owner.name ∧ owner.tree.reply registry.patterns (path, event) = .ok true := by
  simp only [told, apply_of_owns isPosition owns, Folder.reply]
  rcases owner.tree.apply registry.patterns path event with failure | ⟨next, changed⟩
  · simp [Except.map]
  · cases changed <;> simp [Except.map, eq_comm]

/-- An event tells a name exactly if the path has an owner of this name whose tree is
another one afterwards. -/
theorem told_eq_some_iff (canonical : registry.Canonical) {name : String} :
    registry.told occurrence = some name ↔
      ∃ position owner, registry.ownerPosition? occurrence.1 = some position ∧
        registry.apps[position]? = some owner ∧ name = owner.name ∧
        owner.tree.after registry.patterns occurrence ≠ owner.tree := by
  obtain ⟨path, event⟩ := occurrence
  cases isPosition : registry.ownerPosition? path with
  | none => simp [told, apply_of_none isPosition]
  | some own =>
    obtain ⟨owner, owns⟩ := exists_owns_of_ownerPosition? isPosition
    have differs := Folder.reply_eq_ok_true_iff
      (canonical owner (List.mem_of_getElem? owns.atPosition)) registry.patterns (path, event)
    rw [told_of_owns isPosition owns, differs]
    constructor
    · rintro ⟨isName, different⟩
      exact ⟨own, owner, rfl, owns.atPosition, isName, different⟩
    · rintro ⟨_, _, ⟨⟩, atPosition, isName, different⟩
      cases owns.atPosition.symm.trans atPosition
      exact ⟨isName, different⟩

/-- Two registries with the same patterns and the same app at each position are the same. -/
theorem ext_getElem? {other : Registry} (samePatterns : registry.patterns = other.patterns)
    (sameApps : ∀ position : Nat, registry.apps[position]? = other.apps[position]?) :
    registry = other := by
  obtain ⟨apps, patterns⟩ := registry
  obtain ⟨otherApps, otherPatterns⟩ := other
  obtain rfl : patterns = otherPatterns := samePatterns
  obtain rfl : apps = otherApps := List.ext_getElem? sameApps
  rfl

/-- An event that tells no name leaves the registry as it is. -/
theorem after_of_told_eq_none (canonical : registry.Canonical)
    (silent : registry.told occurrence = none) : registry.after occurrence = registry := by
  refine ext_getElem? (registry.patterns_after occurrence) fun position => ?_
  rw [getElem?_after]
  cases atPosition : registry.apps[position]? with
  | none => rfl
  | some app =>
    refine congrArg some (ite_eq_right_iff.2 fun isPosition => ?_)
    have same : app.tree.after registry.patterns occurrence = app.tree := by
      refine Decidable.byContradiction fun different => ?_
      have tells := (told_eq_some_iff canonical).2
        ⟨position, app, isPosition, atPosition, rfl, different⟩
      rw [silent] at tells
      cases tells
    rw [same]

/-! ## Canonical registries -/

/-- Apps that were scanned have canonical trees. -/
theorem canonical_of_scanApps {fs : FileSystem} {patterns : List String}
    {roots : List (String × Path)} {apps : List App}
    (scanned : scanApps fs patterns roots = .ok apps) : ∀ app ∈ apps, app.tree.Canonical := by
  induction roots generalizing apps with
  | nil =>
    cases scanned
    exact List.forall_mem_nil _
  | cons named rest ih =>
    rw [scanApps] at scanned
    split at scanned
    next => cases scanned
    next tree scannedTree =>
      obtain ⟨others, scannedOthers, rfl⟩ := map_eq_ok_iff.1 scanned
      exact List.forall_mem_cons.2 ⟨FileSystem.canonical_of_scan scannedTree, ih scannedOthers⟩

/-- Scans make canonical registries. -/
theorem canonical_of_scan {fs : FileSystem} {patterns : List String}
    {roots : List (String × Path)} (scanned : Registry.scan fs patterns roots = .ok registry) :
    registry.Canonical := by
  rw [scan] at scanned
  split at scanned
  next => cases scanned
  next =>
    obtain ⟨apps, scannedApps, rfl⟩ := map_eq_ok_iff.1 scanned
    exact canonical_of_scanApps scannedApps

/-- Events keep the trees of all apps as scans build them. -/
theorem Canonical.after (canonical : registry.Canonical) (occurrence : Path × Event) :
    (registry.after occurrence).Canonical := by
  intro app member
  obtain ⟨position, atPosition⟩ := List.mem_iff_getElem?.1 member
  rw [getElem?_after] at atPosition
  obtain ⟨before, wasAt, rfl⟩ := Option.map_eq_some_iff.1 atPosition
  have canonicalBefore := canonical before (List.mem_of_getElem? wasAt)
  split
  · exact canonicalBefore.after _ _
  · exact canonicalBefore

/-! ## Runs -/

/-- A run makes of the tree of an app what the events on the app's own paths make of
it. -/
theorem getElem?_run (registry : Registry) (events : List (Path × Event)) (position : Nat) :
    (registry.run events).apps[position]? =
      registry.apps[position]?.map fun app =>
        { app with
          tree := (registry.eventsOf position events).foldl
            (Folder.after registry.patterns) app.tree } := by
  induction events generalizing registry with
  | nil => simp [run, eventsOf]
  | cons occurrence rest ih =>
    have later := ih (registry.after occurrence)
    rw [run, List.foldl_cons]
    rw [run] at later
    rw [later, getElem?_after, Option.map_map]
    refine Option.map_congr fun app _ => ?_
    simp only [Function.comp, eventsOf, ownerPosition?_after, patterns_after, List.filter_cons]
    by_cases owned : registry.ownerPosition? occurrence.1 = some position
    · simp [owned]
    · simp [owned]

/-- The ignore patterns stay the same through a run of events. -/
@[simp] theorem patterns_run (registry : Registry) (events : List (Path × Event)) :
    (registry.run events).patterns = registry.patterns := by
  induction events generalizing registry with
  | nil => rfl
  | cons occurrence rest ih => exact (ih _).trans (registry.patterns_after occurrence)

/-- Runs with the same events for each app, in the same order, lead to the same
registry. -/
theorem run_eq_of_eventsOf_eq {events others : List (Path × Event)}
    (same : ∀ position, registry.eventsOf position events = registry.eventsOf position others) :
    registry.run events = registry.run others := by
  refine ext_getElem? (by rw [patterns_run, patterns_run]) fun position => ?_
  rw [getElem?_run, getElem?_run, same]

/-- A path has no owner exactly if no root begins it; otherwise the root of the owner
begins it, and all other roots that do begin that of the owner. An event on the path touches
no app but the owner. It tells a name exactly if the path has an owner, of this name, whose
tree is another one afterwards, and if it tells none or is refused, nothing has changed. So
runs that have, for each app, the same events on its paths in the same order lead to the
same registry. -/
theorem owner_alone_follows_events (registry : Registry) (canonical : registry.Canonical) :
    (∀ path, registry.owner? path = none ↔
      ∀ app ∈ registry.apps, ¬ app.root.components <+: path.components) ∧
    (∀ path owner, registry.owner? path = some owner →
      owner ∈ registry.apps ∧ owner.root.components <+: path.components ∧
        ∀ app ∈ registry.apps, app.root.components <+: path.components →
          app.root.components <+: owner.root.components) ∧
    (∀ occurrence position, registry.ownerPosition? occurrence.1 ≠ some position →
      (registry.after occurrence).apps[position]? = registry.apps[position]?) ∧
    (∀ occurrence name, registry.told occurrence = some name ↔
      ∃ position owner tree, registry.ownerPosition? occurrence.1 = some position ∧
        registry.apps[position]? = some owner ∧ name = owner.name ∧
        (registry.after occurrence).apps[position]? = some { owner with tree := tree } ∧
        tree ≠ owner.tree) ∧
    (∀ occurrence, registry.told occurrence = none → registry.after occurrence = registry) ∧
    ∀ events others,
      (∀ position, registry.eventsOf position events = registry.eventsOf position others) →
      registry.run events = registry.run others := by
  refine ⟨?_, ?_, ?_, ?_, fun _ => after_of_told_eq_none canonical,
    fun _ _ => run_eq_of_eventsOf_eq⟩
  · intro path
    rw [← ownerPosition?_eq_none_iff]
    cases isPosition : registry.ownerPosition? path with
    | none => simp [owner?, isPosition]
    | some position =>
      obtain ⟨owner, owns⟩ := exists_owns_of_ownerPosition? isPosition
      simp [owner?_of_owns isPosition owns]
  · intro path owner isOwner
    obtain ⟨position, -, owns⟩ := exists_owns_of_owner? isOwner
    refine ⟨List.mem_of_getElem? owns.atPosition, List.isPrefixOf_iff_prefix.1 owns.isBelow, ?_⟩
    exact fun app member isAbove =>
      owns.prefix_root member (List.isPrefixOf_iff_prefix.2 isAbove)
  · intro occurrence position elsewhere
    simp [getElem?_after, elsewhere]
  · intro occurrence name
    rw [told_eq_some_iff canonical]
    refine exists_congr fun position => exists_congr fun owner => ?_
    constructor
    · rintro ⟨isPosition, atPosition, isName, different⟩
      refine ⟨_, isPosition, atPosition, isName, ?_, different⟩
      rw [getElem?_after, atPosition, Option.map_some, if_pos isPosition]
    · rintro ⟨tree, isPosition, atPosition, isName, isAfter, different⟩
      rw [getElem?_after, atPosition, Option.map_some, if_pos isPosition] at isAfter
      obtain rfl := congrArg App.tree (Option.some.inj isAfter)
      exact ⟨isPosition, atPosition, isName, different⟩

/-- One root lies inside another one, and the events for both apps come mixed in two ways;
one of them is refused and another one comes twice. -/
theorem owner_alone_follows_events_mixed :
    let fs : FileSystem := ⟨[⟨"r", .directory [⟨"n", .directory []⟩]⟩], []⟩
    let roots : List (String × Path) := [("outer", ⟨"r"⟩), ("inner", ⟨"r//n/"⟩)]
    let here : Path × Event := (⟨"r/a.entrypoint.js"⟩, .create)
    let refused : Path × Event := (⟨"r/../b.entrypoint.js"⟩, .delete)
    let inside : Path × Event := (⟨"r/n/c.entrypoint.js"⟩, .create)
    ∃ registry, Registry.scan fs [] roots = .ok registry ∧ registry.Canonical ∧
      registry.told inside = some "inner" ∧ registry.told refused = none ∧
      registry.after refused = registry ∧
      (registry.after inside).apps[0]? = registry.apps[0]? ∧
      registry.run [here, inside, refused, inside] =
        registry.run [inside, inside, here, refused] := by
  intro fs roots here refused inside
  have checked : (Registry.scan fs [] roots).map (fun registry =>
      ([here, refused, inside].map fun occurrence => registry.ownerPosition? occurrence.1,
        registry.told inside, registry.told refused)) =
      .ok ([some 0, some 0, some 1], some "inner", none) := by decide +kernel
  obtain ⟨registry, scanned, facts⟩ := map_eq_ok_iff.1 checked
  simp only [List.map_cons, List.map_nil, Prod.mk.injEq, List.cons.injEq, and_true] at facts
  obtain ⟨⟨ownHere, ownRefused, ownInside⟩, tells, silent⟩ := facts
  have canonical := canonical_of_scan scanned
  obtain ⟨-, -, others, -, quiet, runs⟩ := owner_alone_follows_events registry canonical
  refine ⟨registry, scanned, canonical, tells, silent, quiet refused silent,
    others inside 0 (by simp [ownInside]), runs _ _ fun position => ?_⟩
  simp only [eventsOf, List.filter_cons, ownHere, ownRefused, ownInside]
  match position with
  | 0 => rfl
  | 1 => rfl
  | position + 2 => simp

end Registry

end RouteAtlas
