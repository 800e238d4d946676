import RouteAtlas.Proofs.FileSystem.Descendants

/-!
# Straight paths

A path that is spelled below a root is straight if it goes through no link there: only
its last step may name one (`FileSystem.Straight`). Looking at a straight path, links
kept, gives what stands at its names (`FileSystem.Straight.item?_of_lookUp`), and what
stands there is found by any path in order that ends in its name
(`FileSystem.RootAt.lookUp_of_item?`).

A slash or a dot at the end asks for what is behind the last name, and a link is then
followed even by those who keep links.
-/

set_option autoImplicit false

namespace RouteAtlas

/-! ## Spelling in two parts -/

/-- The names of two runs of components are those of the one and then those of the other. -/
theorem Folder.namesBelow?_append_of {components others : List Component}
    {front rest : List String} (isFront : namesBelow? components = some front)
    (isRest : namesBelow? others = some rest) :
    namesBelow? (components ++ others) = some (front ++ rest) := by
  induction components generalizing front with
  | nil =>
    cases isFront
    exact isRest
  | cons component more ih =>
    cases component with
    | root => cases isFront
    | parent => cases isFront
    | current => exact ih isFront
    | name step =>
      obtain ⟨below, isBelow, rfl⟩ := Option.map_eq_some_iff.1 isFront
      rw [List.cons_append, namesBelow?, ih isBelow]
      rfl

namespace Path

variable {root inner path : Path} {front rest names more : List String}

/-- A path that is spelled below a path that is spelled below a root is spelled below the
root. -/
theorem Spells.trans (spells : root.Spells inner front) (spellsOn : inner.Spells path rest) :
    root.Spells path (front ++ rest) := by
  obtain ⟨first, isFirst, isFront⟩ := spells
  obtain ⟨second, isSecond, isRest⟩ := spellsOn
  refine ⟨first ++ second, List.isPrefixOf?_eq_some_iff_append_eq.2 ?_,
    Folder.namesBelow?_append_of isFront isRest⟩
  rw [components_of_below? isSecond, components_of_below? isFirst, List.append_assoc]

/-- A descendant of a path below the root is spelled by the names of the path and those
behind it. -/
theorem Spells.of_descendant (isBelow : root.isBelow path = true)
    (areNames : ∀ name ∈ more, IsName name) (spells : root.Spells (path.descendant more) names) :
    ∃ front, root.Spells path front ∧ names = front ++ more := by
  have isRest := path.spells_descendant areNames
  obtain ⟨front, rest, spellsFront, spellsRest, rfl⟩ :=
    spells.between (List.isPrefixOf_iff_prefix.1 isBelow) isRest.isBelow
  exact ⟨front, spellsFront, by rw [spellsRest.unique isRest]⟩

end Path

namespace FileSystem

variable {fs : FileSystem} {root path : Path} {top : Location} {names : List String}

/-- A path that is spelled below a root goes through no link there; only its last step
may name one. -/
def Straight (fs : FileSystem) (root : Path) (top : Location) (path : Path) : Prop :=
  ∀ names, root.Spells path names → fs.Plain top names ∨
    fs.Plain top names.dropLast ∧ path.steps.getLast? = names.getLast?

/-! ## Links that are kept -/

/-- Where no link is met in front of the last name, a walk that keeps links ends at that
name. -/
theorem walk_keepLink_plain {allowed : Nat} {here out : Location} {steps : List String}
    {last : String} (moves : steps.filter isMove = names) (areNames : ∀ name ∈ names, IsName name)
    (isName : IsName last) (plain : fs.Plain here names)
    (walked : fs.walk .keepLink allowed here (steps ++ [last]) = .ok out) :
    out = here ++ (names ++ [last]) := by
  induction steps generalizing here names with
  | nil =>
    cases moves
    rw [List.nil_append, walk_name isName.looksUp, if_neg (by simp)] at walked
    split at walked
    next => cases walked
    next => split at walked <;> simp_all
  | cons step rest ih =>
    rw [List.cons_append] at walked
    by_cases isStep : isMove step = true
    · rw [List.filter_cons_of_pos isStep] at moves
      subst moves
      have isNameStep := areNames step List.mem_cons_self
      have later := fun name member => areNames name (List.mem_cons_of_mem step member)
      have goesOn : rest ++ [last] ≠ [] := by simp
      rw [walk_name isNameStep.looksUp, if_neg (by simp)] at walked
      split at walked
      next => cases walked
      next =>
        split at walked
        next => simp at walked
        next =>
          rw [List.cons_append, List.append_cons]
          exact ih rfl later plain.of_cons walked
        next => cases walked
        next target isLink => exact absurd isLink (plain.first target)
    · rw [List.filter_cons_of_neg isStep] at moves
      rw [walk_stay (not_isMove_iff.1 isStep)] at walked
      exact ih moves areNames plain walked

/-- Steps that move along some names take the last of them and then stay, or end there if
they end in a name. -/
theorem exists_last_move {steps : List String} (moves : steps.filter isMove = names)
    (below : names ≠ []) :
    ∃ front last stays, steps = front ++ last :: stays ∧
      names = front.filter isMove ++ [last] ∧ (∀ step ∈ stays, ¬ isMove step = true) ∧
      (steps.getLast? = names.getLast? → stays = []) := by
  obtain ⟨parents, last, rfl⟩ := (List.eq_nil_or_concat names).resolve_left below
  rw [List.concat_eq_append, List.filter_eq_append_iff] at moves
  obtain ⟨front, behind, rfl, isFront, isLast⟩ := moves
  obtain ⟨dots, stays, rfl, noMoves, isMoveLast, none⟩ := List.filter_eq_cons_iff.1 isLast
  have noneMoves := List.filter_eq_nil_iff.1 none
  refine ⟨front ++ dots, last, stays, (List.append_assoc _ _ _).symm, ?_, noneMoves,
    fun isNamed => ?_⟩
  · rw [List.filter_append, List.filter_eq_nil_iff.2 noMoves, isFront, List.append_nil,
      List.concat_eq_append]
  · refine Decidable.byContradiction fun some => ?_
    obtain ⟨others, step, rfl⟩ := (List.eq_nil_or_concat stays).resolve_left some
    rw [List.concat_eq_append, List.concat_eq_append, List.getLast?_concat,
      ← List.cons_append, ← List.append_assoc, ← List.append_assoc, List.getLast?_concat] at isNamed
    cases isNamed
    exact noneMoves last (by simp) isMoveLast

/-- A straight path that leads to a name, links kept, leads to that of its names. -/
theorem Straight.resolve_keepLink (straight : fs.Straight root top path)
    (rootAt : fs.RootAt root top) (spells : root.Spells path names) (below : names ≠ [])
    {location : Location} (resolved : fs.resolve .keepLink path = .ok location) :
    location = top ++ names := by
  rcases straight names spells with plain | ⟨plain, isNamed⟩
  · exact resolve_below rootAt spells below plain (by decide) resolved
  obtain ⟨before, rest, links, isSteps, moves, enough, leads⟩ := rootAt.leads_steps spells
  have walked := (resolve_eq_ok_iff.1 resolved).2
  have goesOn := goesOn_of_moves moves below
  rw [isSteps, leads.walk enough (by decide) (.inr goesOn)] at walked
  rw [isSteps, List.getLast?_append_of_ne_nil _ goesOn.1] at isNamed
  obtain ⟨front, last, stays, rfl, rfl, -, ends⟩ := exists_last_move moves below
  rw [ends isNamed] at walked
  rw [List.dropLast_concat] at plain
  refine walk_keepLink_plain rfl (fun name member => ?_) ?_ plain walked
  · exact spells.isName name (List.mem_append_left _ member)
  · exact spells.isName last (List.mem_append_right _ List.mem_cons_self)

/-- Looking at a straight path, links kept, gives what stands at its names. -/
theorem Straight.item?_of_lookUp (straight : fs.Straight root top path)
    (rootAt : fs.RootAt root top) (spells : root.Spells path names) (below : names ≠ [])
    {item : Item} (lookedUp : fs.lookUp .keepLink path = .ok item) :
    fs.item? (top ++ names) = some item := by
  obtain ⟨location, resolved, found⟩ := lookUp_eq_ok_iff.1 lookedUp
  rwa [straight.resolve_keepLink rootAt spells below resolved] at found

/-- Steps that do not move stay. -/
theorem walk_stays {last : LastStep} {allowed : Nat} {here : Location} {stays : List String}
    (noMoves : ∀ step ∈ stays, ¬ isMove step = true) :
    fs.walk last allowed here stays = .ok here := by
  induction stays with
  | nil => exact walk_nil fs last allowed here
  | cons step rest ih =>
    rw [walk_stay (not_isMove_iff.1 (noMoves step List.mem_cons_self))]
    exact ih fun other member => noMoves other (List.mem_cons_of_mem _ member)

/-- What stands at some names is found, links kept, by any path in order that spells them,
if the path ends in the last name or a directory stands there. -/
theorem RootAt.lookUp_of_item? (rootAt : fs.RootAt root top) (spells : root.Spells path names)
    (below : names ≠ []) (short : ∀ name ∈ names, name.utf8ByteSize ≤ nameLimit)
    (fine : textError? .keepLink path = none) {item : Item}
    (found : fs.item? (top ++ names) = some item)
    (ends : item.kind = .directory ∨ path.steps.getLast? = names.getLast?) :
    fs.lookUp .keepLink path = .ok item := by
  refine lookUp_eq_ok_iff.2 ⟨_, resolve_eq_ok_iff.2 ⟨fine, ?_⟩, found⟩
  obtain ⟨before, rest, links, isSteps, moves, enough, leads⟩ := rootAt.leads_steps spells
  have goesOn := goesOn_of_moves moves below
  rw [isSteps, List.getLast?_append_of_ne_nil _ goesOn.1] at ends
  obtain ⟨front, last, stays, rfl, rfl, noMoves, endsThere⟩ := exists_last_move moves below
  have isKind : fs.kind? (top ++ front.filter isMove ++ [last]) = some item.kind := by
    rw [List.append_assoc, kind?, found]
    rfl
  have present : fs.kind? (top ++ (front.filter isMove ++ [last])) ≠ none := by
    rw [← List.append_assoc, isKind]
    exact Option.some_ne_none _
  have looksUp : ∀ name ∈ front.filter isMove ++ [last],
      LooksUp name ∧ name.utf8ByteSize ≤ nameLimit :=
    fun name member => ⟨(spells.isName name member).looksUp, short name member⟩
  have leadsOn : Leads fs 0 top front (top ++ front.filter isMove) := by
    refine (leads_down (fun name member => looksUp name (List.mem_append_left _ member))
      fun inFront _ isFront => ?_).of_filter_eq ?_
    · refine directories_of_present present (isFront.trans (List.prefix_append _ _)) ?_
      rintro rfl
      exact absurd isFront.length_le (by simp)
    · exact (List.filter_filter.trans (by simp)).symm
  obtain ⟨isName, shortLast⟩ := looksUp last (by simp)
  have goesOnLast : last :: stays ≠ [] ∧ last :: stays ≠ [""] :=
    ⟨List.cons_ne_nil _ _, fun empty => isName.1 (List.cons.inj empty).1⟩
  rw [isSteps, leads.walk enough (by decide) (.inr goesOn),
    leadsOn.walk (Nat.zero_le _) (by decide) (.inr goesOnLast), walk_name isName,
    if_neg (by simp), isTooLong_eq_false shortLast (by decide), isKind, if_neg Bool.false_ne_true,
    ← List.append_assoc]
  cases item with
  | directory slots => exact walk_stays noMoves
  | file contents => exact if_pos (endsThere (ends.resolve_left ItemKind.noConfusion))
  | link target => exact if_pos ⟨rfl, endsThere (ends.resolve_left ItemKind.noConfusion)⟩

end FileSystem

end RouteAtlas
