import RouteAtlas.Registry

/-!
# The owner of a path

An event goes to the app that owns its path: of the apps whose root lies above the path,
one with the longest root (`Registry.Owns`), and the last of them if several have it. All
these roots begin the path, so each of them begins the root of the owner
(`Registry.Owns.prefix_root`); roots in any spelling are compared by their components.
-/

set_option autoImplicit false

namespace RouteAtlas

/-- An app is above a path, and no app above the path has a longer root. -/
structure Registry.Owns (path : Path) (apps : List App) (position : Nat) (owner : App) : Prop where
  atPosition : apps[position]? = some owner
  isBelow : owner.root.isBelow path = true
  longest : ∀ app ∈ apps, app.root.isBelow path = true → app.root.depth ≤ owner.root.depth

namespace Registry

variable {path : Path} {apps : List App} {position depth : Nat} {owner app : App}

/-- If no app owns a path, it lies below no root. -/
theorem isBelow_of_ownerAmong_eq_none (none : ownerAmong path apps = none) :
    ∀ app ∈ apps, app.root.isBelow path = false := by
  induction apps with
  | nil => exact List.forall_mem_nil _
  | cons app rest ih =>
    rw [ownerAmong] at none
    split at none
    next noneLater =>
      refine List.forall_mem_cons.2 ⟨Bool.eq_false_iff.2 fun isBelow => ?_, ih noneLater⟩
      rw [if_pos isBelow] at none
      cases none
    next => split at none <;> cases none

/-- The app that is found owns the path, and its root has the depth that is found. -/
theorem owns_of_ownerAmong (found : ownerAmong path apps = some (position, depth)) :
    ∃ owner, Owns path apps position owner ∧ owner.root.depth = depth := by
  induction apps generalizing position depth with
  | nil => cases found
  | cons app rest ih =>
    rw [ownerAmong] at found
    split at found
    next noneLater =>
      obtain ⟨isBelow, ⟨⟩⟩ := Option.ite_none_right_eq_some.1 found
      refine ⟨app, ⟨rfl, isBelow, List.forall_mem_cons.2 ⟨fun _ => Nat.le_refl _, ?_⟩⟩, rfl⟩
      intro other member isAbove
      rw [isBelow_of_ownerAmong_eq_none noneLater other member] at isAbove
      cases isAbove
    next later deep isLater =>
      obtain ⟨owner, owns, rfl⟩ := ih isLater
      split at found
      next takes =>
        cases found
        rw [Bool.and_eq_true, decide_eq_true_eq] at takes
        refine ⟨app, ⟨rfl, takes.1, List.forall_mem_cons.2 ⟨fun _ => Nat.le_refl _, ?_⟩⟩, rfl⟩
        exact fun other member isAbove =>
          Nat.le_trans (owns.longest other member isAbove) (Nat.le_of_lt takes.2)
      next stays =>
        cases found
        refine ⟨owner, ⟨owns.atPosition, owns.isBelow,
          List.forall_mem_cons.2 ⟨fun isAbove => ?_, owns.longest⟩⟩, rfl⟩
        rw [isAbove, Bool.true_and, decide_eq_true_eq] at stays
        exact Nat.le_of_not_lt stays

/-- A path below the root of an app has an owner. -/
theorem exists_owns {registry : Registry} (member : app ∈ registry.apps)
    (isBelow : app.root.isBelow path = true) :
    ∃ position owner, registry.ownerPosition? path = some position ∧
      Owns path registry.apps position owner := by
  rw [ownerPosition?]
  cases found : ownerAmong path registry.apps with
  | none =>
    rw [isBelow_of_ownerAmong_eq_none found app member] at isBelow
    cases isBelow
  | some place =>
    obtain ⟨owner, owns, -⟩ := owns_of_ownerAmong found
    exact ⟨place.1, owner, rfl, owns⟩

/-- The root of an app above a path lies above that of the owner. -/
theorem Owns.prefix_root (owns : Owns path apps position owner) (member : app ∈ apps)
    (isBelow : app.root.isBelow path = true) : app.root.components <+: owner.root.components :=
  List.prefix_of_prefix_length_le (List.isPrefixOf_iff_prefix.1 isBelow)
    (List.isPrefixOf_iff_prefix.1 owns.isBelow) (owns.longest app member isBelow)

/-- At the position that is found stands the app that owns the path. -/
theorem exists_owns_of_ownerPosition? {registry : Registry}
    (isPosition : registry.ownerPosition? path = some position) :
    ∃ owner, Owns path registry.apps position owner := by
  obtain ⟨⟨_, depth⟩, found, rfl⟩ := Option.map_eq_some_iff.1 isPosition
  obtain ⟨owner, owns, -⟩ := owns_of_ownerAmong found
  exact ⟨owner, owns⟩

/-- A path has an owner exactly if it lies below the root of some app. -/
theorem ownerPosition?_eq_none_iff {registry : Registry} :
    registry.ownerPosition? path = none ↔
      ∀ app ∈ registry.apps, ¬ app.root.components <+: path.components := by
  constructor
  · intro none app member isAbove
    obtain ⟨position, _, isPosition, -⟩ :=
      exists_owns member (List.isPrefixOf_iff_prefix.2 isAbove)
    rw [none] at isPosition
    cases isPosition
  · intro outside
    cases isPosition : registry.ownerPosition? path with
    | none => rfl
    | some position =>
      obtain ⟨owner, owns⟩ := exists_owns_of_ownerPosition? isPosition
      exact absurd (List.isPrefixOf_iff_prefix.1 owns.isBelow)
        (outside owner (List.mem_of_getElem? owns.atPosition))

/-- The app that owns a path is the one that is found. -/
theorem owner?_of_owns {registry : Registry}
    (isPosition : registry.ownerPosition? path = some position)
    (owns : Owns path registry.apps position owner) : registry.owner? path = some owner := by
  rw [owner?, isPosition]
  exact owns.atPosition

/-- The app that is found owns the path. -/
theorem exists_owns_of_owner? {registry : Registry} (isOwner : registry.owner? path = some owner) :
    ∃ position, registry.ownerPosition? path = some position ∧
      Owns path registry.apps position owner := by
  obtain ⟨position, isPosition, found⟩ := Option.bind_eq_some_iff.1 isOwner
  obtain ⟨other, owns⟩ := exists_owns_of_ownerPosition? isPosition
  cases owns.atPosition.symm.trans found
  exact ⟨position, isPosition, owns⟩

/-- The owner only depends on the roots. -/
theorem ownerAmong_congr {others : List App} (same : apps.map (·.root) = others.map (·.root)) :
    ownerAmong path apps = ownerAmong path others := by
  induction apps generalizing others with
  | nil =>
    obtain rfl := List.map_eq_nil_iff.1 same.symm
    rfl
  | cons app rest ih =>
    obtain ⟨other, later, rfl, sameRoot, sameLater⟩ := List.map_eq_cons_iff.1 same.symm
    rw [ownerAmong, ownerAmong, ih sameLater.symm, sameRoot]

end Registry

end RouteAtlas
