import Mathlib.Data.List.Nodup
import RouteAtlas.Proofs.Outcome
import RouteAtlas.Proofs.RoutesModule.Generator

/-!
# What a routes module binds

The module of a route tree imports the entry points of the tree in the order of
generation: the layout of a branch, its children, its index. This file says when
the module exists, what it imports, and which names its routes use.

`Branch.entryPoints` lists the entry points in that order and passes over nodes
that are out of place; `Branch.branches` lists the branches, so that "no node is
out of place" can be said without the order. `RoutesModule.names` reads the
imported names off the routes from left to right.

The main statement is `ofRoutes_binds_each_entry_point_once`: there is a module
exactly if no node is out of place and all names are different, its imports and
the names in its routes are then the same list, and a failure is about the first
visit that cannot be bound (`Branch.FirstOffence`).
-/

set_option autoImplicit false

namespace RouteAtlas

mutual

/-- The entry points among some nodes and below them, in the order of
generation. -/
def RouteNode.entryPoints : List RouteNode → List EntryPoint
  | [] => []
  | .leaf entry _ :: rest => entry :: RouteNode.entryPoints rest
  | .special _ _ :: rest => RouteNode.entryPoints rest
  | .branch inner :: rest => inner.entryPoints ++ RouteNode.entryPoints rest
  termination_by structural nodes => nodes

/-- The entry points of a branch: its layout, those of its children, its
index. -/
def Branch.entryPoints : Branch → List EntryPoint
  | ⟨_, _, layout, index, children⟩ =>
    layout.toList ++ (RouteNode.entryPoints children ++ index.toList)
  termination_by structural branch => branch

end

mutual

/-- The branches among some nodes and below them. -/
def RouteNode.branches : List RouteNode → List Branch
  | [] => []
  | .leaf _ _ :: rest => RouteNode.branches rest
  | .special _ _ :: rest => RouteNode.branches rest
  | .branch inner :: rest => inner.branches ++ RouteNode.branches rest
  termination_by structural nodes => nodes

/-- A branch and all branches below it. -/
def Branch.branches : Branch → List Branch
  | ⟨id, path, layout, index, children⟩ =>
    ⟨id, path, layout, index, children⟩ :: RouteNode.branches children
  termination_by structural branch => branch

end

/-- Whether no branch has a layout or an index among its children. -/
def Branch.NoStray (root : Branch) : Prop :=
  ∀ holder ∈ root.branches, ∀ role entry, RouteNode.special role entry ∉ holder.children

mutual

/-- The imported names that a value uses, from left to right. -/
def Value.names : Value → List String
  | .binding name => [name]
  | .text _ => []
  | .flag _ => []
  | .routes routes => RouteObject.allNames routes
  termination_by structural value => value

/-- The imported names that a property uses. -/
def Property.names : Property → List String
  | ⟨_, value⟩ => value.names
  termination_by structural property => property

/-- The imported names that some properties use, in order. -/
def Property.allNames : List Property → List String
  | [] => []
  | property :: rest => property.names ++ Property.allNames rest
  termination_by structural properties => properties

/-- The imported names that a route object uses, its properties read in order
and its children where they stand. -/
def RouteObject.names : RouteObject → List String
  | ⟨properties⟩ => Property.allNames properties
  termination_by structural object => object

/-- The imported names that some route objects use, in order. -/
def RouteObject.allNames : List RouteObject → List String
  | [] => []
  | object :: rest => object.names ++ RouteObject.allNames rest
  termination_by structural objects => objects

end

/-- The imported names that the routes of a module use, from left to right. -/
def RoutesModule.names (written : RoutesModule) : List String :=
  RouteObject.allNames written.routes

/-! ## Visits -/

/-- The entry point that a visit binds. -/
def Visit.entry? : Visit → Option EntryPoint
  | .entry found => some found
  | .stray .. => none

/-- The entry points among some visits. -/
def Visit.entries (visits : List Visit) : List EntryPoint := visits.filterMap Visit.entry?

/-- The entry points of two runs of visits come one after the other. -/
@[simp] theorem Visit.entries_append (before after : List Visit) :
    Visit.entries (before ++ after) = Visit.entries before ++ Visit.entries after := by
  simp [Visit.entries]

/-- A visit of an entry point meets it first. -/
@[simp] theorem Visit.entries_cons_entry (found : EntryPoint) (rest : List Visit) :
    Visit.entries (.entry found :: rest) = found :: Visit.entries rest := rfl

/-- A node out of place is no entry point that is bound. -/
@[simp] theorem Visit.entries_cons_stray (role : Role) (id directory : String)
    (rest : List Visit) :
    Visit.entries (.stray role id directory :: rest) = Visit.entries rest := rfl

/-- Visits of entry points meet just these. -/
theorem Visit.entries_map_entry (entries : List EntryPoint) :
    Visit.entries (entries.map .entry) = entries := by
  induction entries with
  | nil => rfl
  | cons first rest ih => simp [ih]

mutual

/-- The visits of some nodes meet their entry points in the order of
generation. -/
theorem RouteNode.entries_visits (directory : String) (nodes : List RouteNode) :
    Visit.entries (RouteNode.visits directory nodes) = RouteNode.entryPoints nodes := by
  match nodes with
  | [] => rfl
  | .leaf _ _ :: rest =>
    simp only [RouteNode.visits, RouteNode.entryPoints, Visit.entries_cons_entry,
      RouteNode.entries_visits directory rest]
  | .special _ _ :: rest =>
    simp only [RouteNode.visits, RouteNode.entryPoints, Visit.entries_cons_stray,
      RouteNode.entries_visits directory rest]
  | .branch inner :: rest =>
    simp only [RouteNode.visits, RouteNode.entryPoints, Visit.entries_append,
      Branch.entries_visits inner, RouteNode.entries_visits directory rest]
  termination_by structural nodes

/-- The visits of a branch meet its entry points in the order of generation. -/
theorem Branch.entries_visits (branch : Branch) :
    Visit.entries branch.visits = branch.entryPoints := by
  match branch with
  | ⟨id, _, _, _, children⟩ =>
    simp only [Branch.visits, Branch.entryPoints, Visit.entries_append,
      Visit.entries_map_entry, RouteNode.entries_visits id children]
  termination_by structural branch

end

/-- A visit of a node out of place comes from a role among the children of a
branch, which it tells by its id. -/
def Visit.StraysFrom (role : Role) (id directory : String) (holder : Branch) : Prop :=
  holder.id = directory ∧
    ∃ entry : EntryPoint, entry.id = id ∧ .special role entry ∈ holder.children

mutual

/-- The nodes out of place among some nodes are those nodes themselves and the
ones in the branches below. -/
theorem RouteNode.stray_mem_visits_iff (role : Role) (id directory own : String)
    (nodes : List RouteNode) :
    .stray role id directory ∈ RouteNode.visits own nodes ↔
      (own = directory ∧ ∃ entry : EntryPoint, entry.id = id ∧ .special role entry ∈ nodes) ∨
        ∃ holder ∈ RouteNode.branches nodes, Visit.StraysFrom role id directory holder := by
  match nodes with
  | [] => simp [RouteNode.visits, RouteNode.branches]
  | .leaf _ _ :: rest =>
    have ih := RouteNode.stray_mem_visits_iff role id directory own rest
    simpa [RouteNode.visits, RouteNode.branches] using ih
  | .special other entry :: rest =>
    have ih := RouteNode.stray_mem_visits_iff role id directory own rest
    simp only [RouteNode.visits, RouteNode.branches, List.mem_cons, ih, Visit.stray.injEq,
      RouteNode.special.injEq]
    constructor
    · rintro (⟨rfl, rfl, rfl⟩ | ⟨rfl, found, rfl, member⟩ | below)
      · exact .inl ⟨rfl, entry, rfl, .inl ⟨rfl, rfl⟩⟩
      · exact .inl ⟨rfl, found, rfl, .inr member⟩
      · exact .inr below
    · rintro (⟨rfl, found, rfl, ⟨rfl, rfl⟩ | member⟩ | below)
      · exact .inl ⟨rfl, rfl, rfl⟩
      · exact .inr (.inl ⟨rfl, found, rfl, member⟩)
      · exact .inr (.inr below)
  | .branch inner :: rest =>
    have ih := RouteNode.stray_mem_visits_iff role id directory own rest
    have inside := Branch.stray_mem_visits_iff role id directory inner
    simp only [RouteNode.visits, RouteNode.branches, List.mem_append, ih, inside, List.mem_cons,
      reduceCtorEq, false_or, or_and_right, exists_or]
    exact or_left_comm
  termination_by structural nodes

/-- The nodes out of place in a branch are the roles among the children of the
branch and of the branches below it. -/
theorem Branch.stray_mem_visits_iff (role : Role) (id directory : String) (branch : Branch) :
    .stray role id directory ∈ branch.visits ↔
      ∃ holder ∈ branch.branches, Visit.StraysFrom role id directory holder := by
  match branch with
  | ⟨own, path, layout, index, children⟩ =>
    have ih := RouteNode.stray_mem_visits_iff role id directory own children
    simp only [Branch.visits, Branch.branches, List.mem_append, List.mem_map, reduceCtorEq,
      and_false, exists_false, false_or, or_false, ih, List.mem_cons, or_and_right, exists_or,
      exists_eq_left]
    rfl
  termination_by structural branch

end

/-- Whether no visit meets a node out of place. -/
def Visit.AllEntries (visits : List Visit) : Prop :=
  ∀ role id directory, Visit.stray role id directory ∉ visits

/-- Among no visits nothing is out of place. -/
@[simp] theorem Visit.allEntries_nil : Visit.AllEntries [] := by
  simp [Visit.AllEntries]

/-- An entry point does not count against other visits. -/
@[simp] theorem Visit.allEntries_cons_entry (found : EntryPoint) (rest : List Visit) :
    Visit.AllEntries (.entry found :: rest) ↔ Visit.AllEntries rest := by
  simp [Visit.AllEntries]

/-- A node out of place does. -/
@[simp] theorem Visit.not_allEntries_cons_stray (role : Role) (id directory : String)
    (rest : List Visit) : ¬ Visit.AllEntries (.stray role id directory :: rest) :=
  fun clean => clean role id directory List.mem_cons_self

/-- In two runs of visits nothing is out of place if that is so in each. -/
@[simp] theorem Visit.allEntries_append (before after : List Visit) :
    Visit.AllEntries (before ++ after) ↔ Visit.AllEntries before ∧ Visit.AllEntries after := by
  simp only [Visit.AllEntries, List.mem_append, not_or, forall_and]

/-- A branch has no node out of place exactly if its visits meet none. -/
theorem Branch.noStray_iff (branch : Branch) :
    branch.NoStray ↔ Visit.AllEntries branch.visits := by
  simp only [Branch.NoStray, Visit.AllEntries, Branch.stray_mem_visits_iff]
  constructor
  · rintro clean role id directory ⟨holder, below, -, entry, -, member⟩
    exact clean holder below role entry member
  · intro clean holder below role entry member
    exact clean role entry.id holder.id ⟨holder, below, rfl, entry, rfl, member⟩

/-! ## Binding -/

/-- The import of an entry point under its own name. -/
def EntryPoint.toImport (entry : EntryPoint) : Import := ⟨entry.localName, entry.source.text⟩

/-- What is wrong with a visit, given the entry points that are bound before it:
it meets a node out of place, or an entry point whose name is taken. -/
inductive Visit.Offends (bound : List EntryPoint) : Visit → Failure → Prop where
  | stray (role : Role) (id directory : String) :
      Offends bound (.stray role id directory) (.strayRole role id directory)
  | collision (earlier later : EntryPoint) (isBound : earlier ∈ bound)
      (same : earlier.localName = later.localName) :
      Offends bound (.entry later) (.nameBoundTwice later.localName earlier.id later.id)

/-- Whether a failure is about the first of some visits that cannot be bound,
given the entry points that are bound already. -/
def Visit.FirstOffence (bound : List EntryPoint) (visits : List Visit) (failure : Failure) :
    Prop :=
  ∃ before visit after, visits = before ++ visit :: after ∧ Visit.AllEntries before ∧
    ((bound ++ Visit.entries before).map EntryPoint.localName).Nodup ∧
    Visit.Offends (bound ++ Visit.entries before) visit failure

/-- A failure is about the first visit, or that visit is bound and the failure is
about the first offence among the others. -/
theorem Visit.firstOffence_cons_iff (bound : List EntryPoint) (visit : Visit) (rest : List Visit)
    (failure : Failure) (distinct : (bound.map EntryPoint.localName).Nodup) :
    Visit.FirstOffence bound (visit :: rest) failure ↔
      Visit.Offends bound visit failure ∨
        ∃ found, visit = .entry found ∧
          ((bound ++ [found]).map EntryPoint.localName).Nodup ∧
          Visit.FirstOffence (bound ++ [found]) rest failure := by
  constructor
  · rintro ⟨before, offending, after, split, clean, free, offence⟩
    match before with
    | [] =>
      obtain ⟨rfl, rfl⟩ := List.cons.inj split
      left
      simpa [Visit.entries] using offence
    | .stray role id directory :: before =>
      exact absurd clean (Visit.not_allEntries_cons_stray role id directory before)
    | .entry found :: before =>
      obtain ⟨rfl, rfl⟩ := List.cons.inj split
      right
      have same : bound ++ Visit.entries (.entry found :: before) =
          (bound ++ [found]) ++ Visit.entries before := by simp
      rw [same] at free offence
      refine ⟨found, rfl, ?_, before, offending, after, rfl, ?_, free, offence⟩
      · rw [List.map_append] at free
        exact (List.nodup_append.1 free).1
      · simpa using clean
  · rintro (offence | ⟨found, rfl, -, before, offending, after, rfl, clean, free, offence⟩)
    · exact ⟨[], visit, rest, rfl, Visit.allEntries_nil, by simpa [Visit.entries] using distinct,
        by simpa [Visit.entries] using offence⟩
    · refine ⟨.entry found :: before, offending, after, rfl, by simpa using clean, ?_, ?_⟩
      · simpa using free
      · simpa using offence

/-- A binding is found by the name under which its entry point is imported. -/
theorem find?_map_of (bound : List EntryPoint) (name : String) :
    (bound.map Binding.of).find? (fun earlier => earlier.name == name) =
      (bound.find? fun earlier => earlier.localName == name).map Binding.of := by
  rw [List.find?_map]
  rfl

/-- An entry point whose name is taken ends the binding. -/
theorem bindVisits_taken (bound : List EntryPoint) (found earlier : EntryPoint)
    (rest : List Visit)
    (taken : bound.find? (fun earlier => earlier.localName == found.localName) = some earlier) :
    bindVisits (bound.map .of) (.entry found :: rest) =
      .error (.nameBoundTwice found.localName earlier.id found.id) := by
  simp only [bindVisits, find?_map_of, taken, Option.map_some]
  rfl

/-- An entry point whose name is free is bound, and the binding goes on. -/
theorem bindVisits_free (bound : List EntryPoint) (found : EntryPoint) (rest : List Visit)
    (free : bound.find? (fun earlier => earlier.localName == found.localName) = none) :
    bindVisits (bound.map .of) (.entry found :: rest) =
      (bindVisits ((bound ++ [found]).map .of) rest).map (Binding.of found :: ·) := by
  simp only [bindVisits, find?_map_of, free, Option.map_none, List.map_append]
  rfl

/-- A name is free if it makes no name occur twice. -/
theorem find?_localName_eq_none_iff (bound : List EntryPoint) (found : EntryPoint)
    (distinct : (bound.map EntryPoint.localName).Nodup) :
    bound.find? (fun earlier => earlier.localName == found.localName) = none ↔
      ((bound ++ [found]).map EntryPoint.localName).Nodup := by
  rw [List.map_append, List.nodup_append, List.find?_eq_none]
  simp [distinct]

/-- Visits can be bound exactly if none of them meets a node out of place and no
name is taken twice; the bindings are those of the entry points they meet. -/
theorem bindVisits_eq_ok_iff (bound : List EntryPoint) (visits : List Visit)
    (bindings : List Binding) (distinct : (bound.map EntryPoint.localName).Nodup) :
    bindVisits (bound.map .of) visits = .ok bindings ↔
      Visit.AllEntries visits ∧
        ((bound ++ Visit.entries visits).map EntryPoint.localName).Nodup ∧
        bindings = (Visit.entries visits).map .of := by
  induction visits generalizing bound bindings with
  | nil => simpa [bindVisits, Visit.entries, eq_comm] using fun _ => distinct
  | cons visit rest ih =>
    cases visit with
    | stray role id directory => simp [bindVisits]
    | entry found =>
      have same : bound ++ Visit.entries (.entry found :: rest) =
          (bound ++ [found]) ++ Visit.entries rest := by simp
      rw [same]
      cases taken : bound.find? fun earlier => earlier.localName == found.localName with
      | some earlier =>
        rw [bindVisits_taken bound found earlier rest taken]
        constructor
        · intro h
          cases h
        · rintro ⟨-, free, -⟩
          rw [List.map_append] at free
          have := (find?_localName_eq_none_iff bound found distinct).2 (List.nodup_append.1 free).1
          rw [taken] at this
          cases this
      | none =>
        have free := (find?_localName_eq_none_iff bound found distinct).1 taken
        rw [bindVisits_free bound found rest taken, map_eq_ok_iff]
        constructor
        · rintro ⟨others, bind, rfl⟩
          obtain ⟨clean, free, rfl⟩ := (ih _ _ free).1 bind
          exact ⟨by simpa using clean, free, rfl⟩
        · rintro ⟨clean, names, rfl⟩
          exact ⟨_, (ih _ _ free).2 ⟨by simpa using clean, names, rfl⟩, rfl⟩

/-- Binding visits fails exactly with the first offence among them. -/
theorem bindVisits_eq_error_iff (bound : List EntryPoint) (visits : List Visit)
    (failure : Failure) (distinct : (bound.map EntryPoint.localName).Nodup) :
    bindVisits (bound.map .of) visits = .error failure ↔
      Visit.FirstOffence bound visits failure := by
  induction visits generalizing bound with
  | nil => simp [bindVisits, Visit.FirstOffence]
  | cons visit rest ih =>
    rw [Visit.firstOffence_cons_iff bound visit rest failure distinct]
    cases visit with
    | stray role id directory =>
      simp only [bindVisits, Except.error.injEq, reduceCtorEq, false_and, exists_false, or_false]
      constructor
      · rintro rfl
        exact .stray role id directory
      · rintro ⟨⟩
        rfl
    | entry found =>
      cases taken : bound.find? fun earlier => earlier.localName == found.localName with
      | some earlier =>
        have member := List.mem_of_find?_eq_some taken
        have same : earlier.localName = found.localName := by
          simpa using List.find?_some taken
        rw [bindVisits_taken bound found earlier rest taken]
        constructor
        · intro h
          cases h
          exact .inl (.collision earlier found member same)
        · rintro (offence | ⟨other, isFound, free, -⟩)
          · cases offence with
            | collision first later isBound sameName =>
              -- the names are different, so the entry point with this name is `earlier`
              obtain rfl : first = earlier :=
                List.inj_on_of_nodup_map distinct isBound member (sameName.trans same.symm)
              rfl
          · cases isFound
            have := (find?_localName_eq_none_iff bound found distinct).2 free
            rw [taken] at this
            cases this
      | none =>
        have free := (find?_localName_eq_none_iff bound found distinct).1 taken
        rw [bindVisits_free bound found rest taken, map_eq_error_iff, ih _ free]
        constructor
        · intro later
          exact .inr ⟨found, rfl, free, later⟩
        · rintro (offence | ⟨other, isFound, -, later⟩)
          · cases offence with
            | collision first later isBound sameName =>
              have := List.find?_eq_none.1 taken first isBound
              simp [sameName] at this
          · cases isFound
            exact later

/-! ## The names in the routes -/

/-- The names in two lists of properties come one after the other. -/
@[simp] theorem Property.allNames_append (before after : List Property) :
    Property.allNames (before ++ after) = Property.allNames before ++ Property.allNames after := by
  induction before with
  | nil => rfl
  | cons property rest ih => simp [Property.allNames, ih]

/-- The names in two lists of route objects come one after the other. -/
@[simp] theorem RouteObject.allNames_append (before after : List RouteObject) :
    RouteObject.allNames (before ++ after) =
      RouteObject.allNames before ++ RouteObject.allNames after := by
  induction before with
  | nil => rfl
  | cons object rest ih => simp [RouteObject.allNames, ih]

/-- The property of an entry point uses its name. -/
theorem EntryPoint.names_property (entry : EntryPoint) :
    entry.property.names = [entry.localName] := by
  simp [EntryPoint.property, Property.names, Value.names]

/-- A path uses no name. -/
theorem names_pathProperty (path : String) : (pathProperty path).names = [] := by
  simp [pathProperty, Property.names, Value.names]

/-- The object of an index uses its name. -/
theorem EntryPoint.names_indexObject (entry : EntryPoint) :
    entry.indexObject.names = [entry.localName] := by
  simp [EntryPoint.indexObject, RouteObject.names, Property.allNames,
    EntryPoint.names_property, Property.names, Value.names]

/-- The property of a layout, if there is one, uses its name. -/
theorem allNames_layout (layout : Option EntryPoint) :
    Property.allNames (layout.toList.map EntryPoint.property) =
      layout.toList.map EntryPoint.localName := by
  cases layout <;> simp [Property.allNames, EntryPoint.names_property]

/-- A path, if there is one, uses no name. -/
theorem allNames_path (path : Option String) :
    Property.allNames (path.toList.map pathProperty) = [] := by
  cases path <;> simp [Property.allNames, names_pathProperty]

/-- The object of an index, if there is one, uses its name. -/
theorem allNames_index (index : Option EntryPoint) :
    RouteObject.allNames (index.toList.map EntryPoint.indexObject) =
      index.toList.map EntryPoint.localName := by
  cases index <;> simp [RouteObject.allNames, EntryPoint.names_indexObject]

mutual

/-- The objects of some nodes use the names of the entry points among them, each
once and in the order of generation, if no node is out of place. -/
theorem RouteNode.allNames_objects (directory : String) (nodes : List RouteNode)
    (clean : Visit.AllEntries (RouteNode.visits directory nodes)) :
    RouteObject.allNames (RouteNode.objects nodes) =
      (RouteNode.entryPoints nodes).map EntryPoint.localName := by
  match nodes with
  | [] => rfl
  | .leaf entry path :: rest =>
    have ih := RouteNode.allNames_objects directory rest
      (by simpa [RouteNode.visits] using clean)
    simp [RouteNode.objects, RouteNode.entryPoints, RouteObject.allNames, RouteObject.names,
      Property.allNames, EntryPoint.names_property, names_pathProperty, ih]
  | .special role entry :: rest =>
    exact absurd clean (Visit.not_allEntries_cons_stray _ _ _ _)
  | .branch inner :: rest =>
    rw [RouteNode.visits, Visit.allEntries_append] at clean
    simp only [RouteNode.objects, RouteNode.entryPoints, RouteObject.allNames, List.map_append,
      Branch.names_object inner clean.1, RouteNode.allNames_objects directory rest clean.2]
  termination_by structural nodes

/-- The object of a branch uses the names of its entry points, each once and in
the order of generation, if no node is out of place. -/
theorem Branch.names_object (branch : Branch) (clean : Visit.AllEntries branch.visits) :
    branch.object.names = branch.entryPoints.map EntryPoint.localName := by
  match branch with
  | ⟨id, path, layout, index, children⟩ =>
    simp only [Branch.visits, Visit.allEntries_append] at clean
    have ih := RouteNode.allNames_objects id children clean.2.1
    simp only [Branch.object, RouteObject.names, Branch.entryPoints, Property.allNames_append,
      allNames_layout, allNames_path, Property.allNames, Property.names, Value.names,
      RouteObject.allNames_append, ih, allNames_index, List.map_append, List.nil_append,
      List.append_nil]
  termination_by structural branch

end

/-! ## The module -/

/-- A route tree that holds anything is written out exactly if its visits can be
bound, with an import for each binding. -/
theorem RoutesModule.ofRoutes_eq_ok_iff (root : Branch) (filled : root.isEmpty = false)
    (written : RoutesModule) :
    RoutesModule.ofRoutes root = .ok written ↔
      root.NoStray ∧ (root.entryPoints.map EntryPoint.localName).Nodup ∧
        written = ⟨root.entryPoints.map EntryPoint.toImport, [root.object]⟩ := by
  have bind := fun bindings => bindVisits_eq_ok_iff [] root.visits bindings List.nodup_nil
  simp only [List.map_nil, List.nil_append, Branch.entries_visits, ← Branch.noStray_iff] at bind
  rw [ofRoutes_eq filled, map_eq_ok_iff]
  constructor
  · rintro ⟨bindings, bound, rfl⟩
    obtain ⟨clean, distinct, rfl⟩ := (bind bindings).1 bound
    exact ⟨clean, distinct, by simp [Binding.of, Binding.toImport, EntryPoint.toImport]⟩
  · rintro ⟨clean, distinct, rfl⟩
    exact ⟨_, (bind _).2 ⟨clean, distinct, rfl⟩,
      by simp [Binding.of, Binding.toImport, EntryPoint.toImport]⟩

/-- The routes use the names of the entry points in the order of the tree. -/
theorem RoutesModule.names_ofRoutes (root : Branch) (clean : root.NoStray) (imports : List Import) :
    (⟨imports, [root.object]⟩ : RoutesModule).names =
      root.entryPoints.map EntryPoint.localName := by
  rw [RoutesModule.names, RouteObject.allNames, RouteObject.allNames, List.append_nil,
    Branch.names_object root ((Branch.noStray_iff root).1 clean)]

/-- Whether a failure is about the first node of a route tree, in the order of
generation, that is out of place or whose name is taken: it then tells that node
and the branch that holds it, or the name and the two entry points that share
it. -/
def Branch.FirstOffence (root : Branch) (failure : Failure) : Prop :=
  Visit.FirstOffence [] root.visits failure ∧
    ∀ role id directory, failure = .strayRole role id directory →
      ∃ holder ∈ root.branches, Visit.StraysFrom role id directory holder

/-- The module of a route tree binds every entry point once. It exists exactly if
no node is out of place and all names are different; then its imports are the
entry points in the order of generation, and the names in its routes are, from
left to right, those of its imports. Otherwise the failure is about the first
node in that order that is out of place or whose name is taken. -/
theorem RoutesModule.ofRoutes_binds_each_entry_point_once (root : Branch)
    (filled : root.isEmpty = false) :
    ((∃ written, RoutesModule.ofRoutes root = .ok written) ↔
      root.NoStray ∧ (root.entryPoints.map EntryPoint.localName).Nodup) ∧
    (∀ written, RoutesModule.ofRoutes root = .ok written →
      written.imports = root.entryPoints.map EntryPoint.toImport ∧
      written.names = written.imports.map Import.localName ∧
      (written.imports.map Import.localName).Nodup) ∧
    (∀ failure, RoutesModule.ofRoutes root = .error failure ↔ root.FirstOffence failure) := by
  refine ⟨?_, ?_, ?_⟩
  · constructor
    · rintro ⟨written, isWritten⟩
      obtain ⟨clean, distinct, -⟩ := (ofRoutes_eq_ok_iff root filled written).1 isWritten
      exact ⟨clean, distinct⟩
    · rintro ⟨clean, distinct⟩
      exact ⟨_, (ofRoutes_eq_ok_iff root filled _).2 ⟨clean, distinct, rfl⟩⟩
  · intro written isWritten
    obtain ⟨clean, distinct, rfl⟩ := (ofRoutes_eq_ok_iff root filled written).1 isWritten
    have locals : (root.entryPoints.map EntryPoint.toImport).map Import.localName =
        root.entryPoints.map EntryPoint.localName := by
      simp [EntryPoint.toImport]
    refine ⟨rfl, ?_, ?_⟩
    · rw [names_ofRoutes root clean, locals]
    · rw [locals]
      exact distinct
  · intro failure
    have fails := bindVisits_eq_error_iff [] root.visits failure List.nodup_nil
    rw [ofRoutes_eq filled, map_eq_error_iff]
    rw [List.map_nil] at fails
    rw [fails]
    constructor
    · intro first
      refine ⟨first, ?_⟩
      rintro role id directory rfl
      obtain ⟨before, visit, after, split, -, -, offence⟩ := first
      cases offence
      rw [← Branch.stray_mem_visits_iff, split]
      simp
    · rintro ⟨first, -⟩
      exact first

/-- A leaf of the root and a leaf below it share a name, and a layout is out of
place behind them: the two leaves come first. -/
theorem RoutesModule.ofRoutes_shared_name_before_stray :
    let early : EntryPoint := ⟨"a-b", ⟨"/app/a-b"⟩⟩
    let late : EntryPoint := ⟨"aB", ⟨"/app/d/aB"⟩⟩
    let root : Branch := ⟨"", none, none, none,
      [.leaf early "a-b", .branch ⟨"d", some "d", none, none, [.leaf late "aB"]⟩,
        .special .layout ⟨"s", ⟨"/app/s"⟩⟩]⟩
    root.isEmpty = false ∧
      RoutesModule.ofRoutes root = .error (.nameBoundTwice "aB" "a-b" "aB") := by
  intro early late root
  have same : early.localName = late.localName := by decide +kernel
  have name : late.localName = "aB" := by decide +kernel
  have visits : root.visits = [.entry early] ++ .entry late :: [.stray .layout "s" ""] := by
    simp [root, Branch.visits, RouteNode.visits]
  have first : root.FirstOffence (.nameBoundTwice late.localName early.id late.id) := by
    refine ⟨⟨_, _, _, visits, ?_, ?_, ?_⟩, by rintro role id directory ⟨⟩⟩
    · rw [Visit.allEntries_cons_entry]
      exact Visit.allEntries_nil
    · exact List.nodup_singleton _
    · exact .collision early late List.mem_cons_self same
  have fails := ((ofRoutes_binds_each_entry_point_once root rfl).2.2 _).2 first
  rw [name] at fails
  exact ⟨rfl, fails⟩

end RouteAtlas
