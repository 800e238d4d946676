import RouteAtlas.RoutesModule.OfRoutes

/-!
# What the generator meets and what it writes

The generator does two things at a time, and neither needs the other. It imports the
entry points that it meets: the layout of a branch, its children, its index
(`Branch.visits`). Each takes a name, and the first one whose name is taken ends the
generation, as does the first node that is out of place (`bindVisits`). And it writes the
objects: since a name is made from the id alone, an object is told by the branch
(`Branch.object`).

`Branch.run_generate` puts the two together: a branch is written out exactly if what is
met in it can be bound, and then gives its object.
-/

set_option autoImplicit false

namespace RouteAtlas

/-! ## Visits -/

/-- What the generator meets. -/
inductive Visit where
  /-- An entry point to be bound. -/
  | entry (entry : EntryPoint)
  /-- A node out of place, and the id of the branch that holds it. -/
  | stray (role : Role) (id directory : String)
  deriving DecidableEq, Repr

mutual

/-- What is met in the children of the branch with the given id. -/
def RouteNode.visits (directory : String) : List RouteNode → List Visit
  | [] => []
  | .leaf entry _ :: rest => .entry entry :: RouteNode.visits directory rest
  | .special role entry :: rest => .stray role entry.id directory :: RouteNode.visits directory rest
  | .branch inner :: rest => inner.visits ++ RouteNode.visits directory rest
  termination_by structural nodes => nodes

/-- What is met in a branch: its layout, its children, its index. -/
def Branch.visits : Branch → List Visit
  | ⟨id, _, layout, index, children⟩ =>
    layout.toList.map .entry ++ (RouteNode.visits id children ++ index.toList.map .entry)
  termination_by structural branch => branch

end

/-- A name and the entry point that is imported under it. -/
structure Binding where
  name : String
  entry : EntryPoint
  deriving DecidableEq, Repr

/-- The import of a bound entry point. -/
def Binding.toImport (binding : Binding) : Import :=
  ⟨binding.name, binding.entry.source.text⟩

/-- The binding of an entry point to its own name. -/
def Binding.of (entry : EntryPoint) : Binding := ⟨entry.localName, entry⟩

/-- Binds the entry points among some visits, given the bindings made before
them. -/
def bindVisits (bound : List Binding) : List Visit → Except Failure (List Binding)
  | [] => .ok []
  | .stray role id directory :: _ => .error (.strayRole role id directory)
  | .entry entry :: rest =>
    let binding : Binding := ⟨entry.localName, entry⟩
    match bound.find? fun earlier => earlier.name == binding.name with
    | some earlier => .error (.nameBoundTwice binding.name earlier.entry.id entry.id)
    | none => (bindVisits (bound ++ [binding]) rest).map (binding :: ·)

/-- To bind visits one by one, or to stop at one of them, is to bind the first ones and
then the others. -/
theorem bindVisits_append (bound : List Binding) (before after : List Visit) :
    bindVisits bound (before ++ after) =
      (bindVisits bound before).bind fun first =>
        (bindVisits (bound ++ first) after).map (first ++ ·) := by
  induction before generalizing bound with
  | nil =>
    rw [List.nil_append, bindVisits, Except.bind, List.append_nil]
    cases bindVisits bound after <;> rfl
  | cons visit rest ih =>
    cases visit with
    | stray => rfl
    | entry entry =>
      simp only [List.cons_append, bindVisits]
      cases bound.find? fun earlier => earlier.name == entry.localName with
      | some => rfl
      | none =>
        simp only [ih]
        cases bindVisits (bound ++ [⟨entry.localName, entry⟩]) rest with
        | error => rfl
        | ok first =>
          simp only [Except.bind, Except.map, List.append_assoc, List.singleton_append]
          cases bindVisits (bound ++ ⟨entry.localName, entry⟩ :: first) after <;> rfl

/-! ## Objects -/

/-- The property that shows an entry point. -/
def EntryPoint.property (entry : EntryPoint) : Property :=
  ⟨.entryPoint, .binding entry.localName⟩

/-- The property for the path of a route. -/
def pathProperty (path : String) : Property := ⟨.path, .text path⟩

/-- The route of an index. -/
def EntryPoint.indexObject (entry : EntryPoint) : RouteObject :=
  ⟨[entry.property, ⟨.index, .flag true⟩]⟩

mutual

/-- The objects of some nodes. A node that plays a role is written like a leaf
without a path; the generator never gets that far. -/
def RouteNode.objects : List RouteNode → List RouteObject
  | [] => []
  | .leaf entry path :: rest => ⟨[entry.property, pathProperty path]⟩ :: RouteNode.objects rest
  | .special _ entry :: rest => ⟨[entry.property]⟩ :: RouteNode.objects rest
  | .branch inner :: rest => inner.object :: RouteNode.objects rest
  termination_by structural nodes => nodes

/-- The object of a branch. The index comes last among the children. -/
def Branch.object : Branch → RouteObject
  | ⟨_, path, layout, index, children⟩ =>
    ⟨layout.toList.map EntryPoint.property ++
      (path.toList.map pathProperty ++
        [⟨.children, .routes
          (RouteNode.objects children ++ index.toList.map EntryPoint.indexObject)⟩])⟩
  termination_by structural branch => branch

end

/-! ## The generator -/

/-- What the generator remembers of some bindings. -/
def Imported.of (bound : List Binding) : Imported :=
  ⟨bound.map Binding.toImport, bound.map fun binding => (binding.name, binding.entry.id)⟩

/-- A name is taken exactly if it is bound, and then by the first binding. -/
theorem lookup_bindings_of (bound : List Binding) (name : String) :
    (Imported.of bound).bindings.lookup name =
      (bound.find? fun earlier => earlier.name == name).map (·.entry.id) := by
  induction bound with
  | nil => rfl
  | cons first rest ih =>
    simp only [Imported.of, List.map_cons, List.lookup_cons, List.find?_cons] at ih ⊢
    -- `lookup` compares the name with each key, `find?` each key with the name.
    rw [Bool.beq_comm (a := name)]
    cases first.name == name with
    | true => rfl
    | false => exact ih

/-- What a part of the generator does that writes `written` and binds the given visits. -/
def Generator.Writes {α : Type} (generator : Generator α) (visits : List Visit) (written : α) :
    Prop :=
  ∀ bound, generator.run (.of bound) =
    (bindVisits bound visits).map fun new => (written, .of (bound ++ new))

namespace Generator.Writes

variable {α β : Type} {generator : Generator α} {visits later : List Visit} {written : α}
  {result : β}

/-- What is written without an entry point binds nothing. -/
theorem pure (written : α) : Writes (Pure.pure written) [] written := by
  intro bound
  rw [bindVisits, StateT.run_pure, Except.map, List.append_nil]
  rfl

/-- Two parts bind their visits one after the other. The second one is done only if the
first one gives its object. -/
theorem bind (first : generator.Writes visits written) {next : α → Generator β}
    (second : (next written).Writes later result) :
    (generator >>= next).Writes (visits ++ later) result := by
  intro bound
  rw [StateT.run_bind, first bound, bindVisits_append]
  cases bindVisits bound visits with
  | error => rfl
  | ok new =>
    have done := second (bound ++ new)
    simp only [Except.map, Except.bind, Bind.bind] at done ⊢
    rw [done]
    cases bindVisits (bound ++ new) later with
    | error => rfl
    | ok => simp

/-- What is done with the object of a part binds nothing more. -/
theorem andThen (first : generator.Writes visits written) (f : α → β) :
    (generator >>= fun object => Pure.pure (f object)).Writes visits (f written) := by
  rw [← List.append_nil visits]
  exact first.bind (.pure (f written))

end Generator.Writes

/-- An entry point is bound, and the object that is started shows it. -/
theorem EntryPoint.writes_generate (entry : EntryPoint) :
    entry.generate.Writes [.entry entry] ⟨[entry.property]⟩ := by
  intro bound
  have taken := lookup_bindings_of bound entry.localName
  simp only [EntryPoint.generate, StateT.run_bind, StateT.run_get, pure_bind, bindVisits]
  cases found : bound.find? fun earlier => earlier.name == entry.localName with
  | some earlier =>
    rw [found] at taken
    simp only [taken, Option.map_some]
    rfl
  | none =>
    rw [found, Option.map_none] at taken
    simp only [taken]
    simp [Imported.of, Binding.toImport, EntryPoint.property, Except.map]
    rfl

/-- The layout of a branch is bound first, and shown by the object of the branch. -/
theorem EntryPoint.writes_generateLayout (layout : Option EntryPoint) :
    (generateLayout layout).Writes (layout.toList.map .entry)
      ⟨layout.toList.map EntryPoint.property⟩ := by
  cases layout with
  | none => exact Generator.Writes.pure (⟨[]⟩ : RouteObject)
  | some layout => exact layout.writes_generate

/-- The index of a branch is bound last, and gets an object of its own. -/
theorem EntryPoint.writes_generateIndex (index : Option EntryPoint) :
    (generateIndex index).Writes (index.toList.map .entry)
      (index.toList.map EntryPoint.indexObject) := by
  cases index with
  | none => exact .pure []
  | some index =>
    exact index.writes_generate.andThen fun object => [object.push .index (.flag true)]

/-- The path of a branch comes behind its layout and before its children. -/
theorem push_pushPath (properties : List Property) (path : Option String) (value : Value) :
    ((⟨properties⟩ : RouteObject).pushPath path).push .children value =
      ⟨properties ++ (path.toList.map pathProperty ++ [⟨.children, value⟩])⟩ := by
  cases path <;> simp [RouteObject.pushPath, RouteObject.push, pathProperty]

mutual

/-- The nodes of a branch bind what is met in them, and give their objects if no node is
out of place. -/
theorem RouteNode.writes_generateAll (directory : String) (nodes : List RouteNode) :
    (RouteNode.generateAll directory nodes).Writes (RouteNode.visits directory nodes)
      (RouteNode.objects nodes) := by
  match nodes with
  | [] => exact .pure []
  | .leaf entry path :: rest =>
    have others := RouteNode.writes_generateAll directory rest
    have object := entry.writes_generate.andThen (·.push .path (.text path))
    rw [RouteNode.generateAll, RouteNode.generate, RouteNode.visits, ← List.singleton_append]
    exact object.bind (others.andThen (_ :: ·))
  | .special role entry :: rest =>
    -- Both stop here, whatever follows.
    intro bound
    rw [RouteNode.generateAll, RouteNode.generate]
    rfl
  | .branch inner :: rest =>
    have object := Branch.writes_generate inner
    have others := RouteNode.writes_generateAll directory rest
    rw [RouteNode.generateAll, RouteNode.generate]
    exact object.bind (others.andThen (_ :: ·))
  termination_by structural nodes

/-- A branch binds what is met in it, and gives its object if no node is out of place. -/
theorem Branch.writes_generate (branch : Branch) :
    branch.generate.Writes branch.visits branch.object := by
  match branch with
  | ⟨id, path, layout, index, children⟩ =>
    have routes := RouteNode.writes_generateAll id children
    rw [Branch.generate, Branch.visits, Branch.object, ← push_pushPath]
    exact (EntryPoint.writes_generateLayout layout).bind
      (routes.bind ((EntryPoint.writes_generateIndex index).andThen _))
  termination_by structural branch

end

/-- A route tree that holds anything is written out exactly if what is met in it can be
bound, with an import for each binding. -/
theorem RoutesModule.ofRoutes_eq {root : Branch} (filled : root.isEmpty = false) :
    RoutesModule.ofRoutes root =
      (bindVisits [] root.visits).map fun bindings =>
        ⟨bindings.map Binding.toImport, [root.object]⟩ := by
  have written := root.writes_generate []
  rw [Imported.of, List.map_nil, List.map_nil] at written
  rw [ofRoutes, if_neg (by simp [filled]), written]
  cases bindVisits [] root.visits <;> rfl

/-- A route tree that holds nothing gives the fallback. -/
theorem RoutesModule.ofRoutes_of_isEmpty {root : Branch} (empty : root.isEmpty = true) :
    RoutesModule.ofRoutes root = .ok .fallback := if_pos empty

end RouteAtlas
