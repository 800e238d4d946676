import Mathlib.Data.List.Basic
import RouteAtlas.Proofs.FileTree.Edits
import RouteAtlas.Proofs.Path

/-!
# Watched paths

The events that a file tree reacts to come with paths in any spelling.
`Path.Spells` says that a path is spelled below a root and which names lead to it.
Such a path starts where the root does and takes the moves of the root first and
then the names (`Path.Spells.texts_eq`), and its events are those of the names
(`Folder.apply_of_spells`).
-/

set_option autoImplicit false

namespace RouteAtlas

namespace Path

/-- A piece adds a step up, or a name that is neither empty nor a dot or two. -/
theorem componentOf?_eq_some {piece : List Char} {component : Component}
    (added : componentOf? piece = some component) :
    component = .parent ∨
      component = .name (String.ofList piece) ∧
        piece ≠ [] ∧ piece ≠ ['.'] ∧ piece ≠ ['.', '.'] := by
  rw [componentOf?] at added
  split at added
  next => cases added
  next moves =>
    split at added
    next =>
      cases added
      exact .inl rfl
    next notParent =>
      cases added
      exact .inr ⟨rfl, (not_or.1 moves).1, (not_or.1 moves).2, notParent⟩

/-- At the front of a path stands a slash or a `.`, if anything. -/
theorem mem_lead {path : Path} {component : Component} (member : component ∈ path.lead) :
    component = .root ∨ component = .current := by
  rw [lead] at member
  split at member
  · exact .inl (List.mem_singleton.1 member)
  · split at member
    · exact .inr (List.mem_singleton.1 member)
    · cases member

/-- A path is absolute exactly if its first component is the root. -/
theorem isAbsolute_iff (path : Path) :
    path.isAbsolute = true ↔ path.components.head? = some .root := by
  rw [components, lead]
  split
  next absolute => simp [absolute]
  next notAbsolute =>
    refine iff_of_false notAbsolute fun isRoot => ?_
    rcases List.mem_append.1 (List.mem_of_mem_head? isRoot) with inLead | inPieces
    · split at inLead <;> simp at inLead
    · obtain ⟨piece, -, added⟩ := List.mem_filterMap.1 inPieces
      rcases componentOf?_eq_some added with impossible | ⟨impossible, -⟩ <;> cases impossible

/-- A path that has a text has components. -/
theorem components_ne_nil {path : Path} (filled : path.text ≠ "") : path.components ≠ [] := by
  intro none
  obtain ⟨noLead, noPieces⟩ := List.append_eq_nil_iff.1 none
  rw [lead] at noLead
  split at noLead
  next => cases noLead
  next notAbsolute =>
    split at noLead
    next => cases noLead
    next notCurrent =>
      obtain ⟨c, rest, isText⟩ := List.exists_cons_of_ne_nil
        fun empty => filled (String.toList_eq_nil_iff.1 empty)
      obtain ⟨piece, others, isPieces⟩ := List.exists_cons_of_ne_nil (pieces_ne_nil rest)
      have notSlash : c ≠ '/' := by
        rintro rfl
        exact notAbsolute (decide_eq_true (by rw [isText]; rfl))
      rw [isText, pieces, if_neg notSlash, isPieces] at notCurrent noPieces
      have added := List.filterMap_eq_nil_iff.1 noPieces (c :: piece) List.mem_cons_self
      rw [componentOf?, if_neg] at added
      · split at added <;> cases added
      · rintro (impossible | isCurrent)
        · cases impossible
        · exact notCurrent (congrArg some isCurrent)

/-- The names among the components of a path can be names in a directory. -/
theorem isName_of_mem {path : Path} {step : String} (member : .name step ∈ path.components) :
    IsName step := by
  rcases List.mem_append.1 member with inLead | inPieces
  · rcases mem_lead inLead with impossible | impossible <;> cases impossible
  · obtain ⟨piece, isPiece, added⟩ := List.mem_filterMap.1 inPieces
    rcases componentOf?_eq_some added with impossible | ⟨isStep, notEmpty, notCurrent, notParent⟩
    · cases impossible
    · cases isStep
      refine ⟨fun same => notEmpty (String.ofList_eq_empty_iff.1 same), fun same => notCurrent ?_,
        fun same => notParent ?_, ?_⟩
      · rw [← String.toList_ofList (l := piece), same]
        rfl
      · rw [← String.toList_ofList (l := piece), same]
        rfl
      · rw [String.toList_ofList]
        exact not_mem_of_mem_pieces isPiece

/-- A path is spelled below a root, and these names lead to it. -/
def Spells (root path : Path) (names : List String) : Prop :=
  ∃ components, root.below? path = some components ∧
    Folder.namesBelow? components = some names

/-- The components of a path below a root are those of the root and then the others. -/
theorem components_of_below? {root path : Path} {components : List Component}
    (below : root.below? path = some components) :
    path.components = root.components ++ components :=
  (List.append_eq_of_isPrefixOf?_eq_some below).symm

end Path

/-- Components that only go down give the steps of their names. -/
theorem Folder.step?_of_namesBelow? {components : List Component} {names : List String}
    (isNames : namesBelow? components = some names) :
    components.filterMap Component.step? = names ∧ ∀ name ∈ names, .name name ∈ components := by
  induction components generalizing names with
  | nil =>
    cases isNames
    exact ⟨rfl, fun _ member => absurd member List.not_mem_nil⟩
  | cons component rest ih =>
    cases component with
    | root => cases isNames
    | parent => cases isNames
    | current =>
      obtain ⟨steps, members⟩ := ih isNames
      exact ⟨steps, fun name member => List.mem_cons_of_mem _ (members name member)⟩
    | name step =>
      obtain ⟨others, isOthers, rfl⟩ := Option.map_eq_some_iff.1 isNames
      obtain ⟨rfl, members⟩ := ih isOthers
      refine ⟨rfl, fun name member => ?_⟩
      rcases List.mem_cons.1 member with rfl | later
      · exact List.mem_cons_self
      · exact List.mem_cons_of_mem _ (members name later)

/-- Names count as themselves. -/
theorem Folder.namesBelow?_map_name (names : List String) :
    namesBelow? (names.map .name) = some names := by
  induction names with
  | nil => rfl
  | cons name rest ih => rw [List.map_cons, namesBelow?, ih, Option.map_some]

/-- If two runs of components count as names, each does. -/
theorem Folder.namesBelow?_append {components others : List Component} {names : List String}
    (isNames : namesBelow? (components ++ others) = some names) :
    ∃ front rest, namesBelow? components = some front ∧ namesBelow? others = some rest ∧
      names = front ++ rest := by
  induction components generalizing names with
  | nil => exact ⟨[], names, rfl, isNames, rfl⟩
  | cons component more ih =>
    cases component with
    | root => cases isNames
    | parent => cases isNames
    | current => exact ih isNames
    | name step =>
      obtain ⟨below, isBelow, rfl⟩ := Option.map_eq_some_iff.1 isNames
      obtain ⟨front, rest, isFront, isRest, rfl⟩ := ih isBelow
      exact ⟨step :: front, rest, by rw [namesBelow?, isFront]; rfl, isRest, rfl⟩

namespace Path.Spells

variable {root path : Path} {names : List String}

/-- The names behind a root can be names in a directory. -/
theorem isName (spells : root.Spells path names) : ∀ name ∈ names, IsName name := by
  obtain ⟨components, below, isNames⟩ := spells
  intro name member
  have isComponent : .name name ∈ path.components := by
    rw [components_of_below? below]
    exact List.mem_append_right _ ((Folder.step?_of_namesBelow? isNames).2 name member)
  exact isName_of_mem isComponent

/-- A path is spelled below a root with one list of names only. -/
theorem unique (spells : root.Spells path names) {others : List String}
    (spellsOthers : root.Spells path others) : names = others := by
  obtain ⟨components, below, isNames⟩ := spells
  obtain ⟨_, belowToo, areOthers⟩ := spellsOthers
  cases below.symm.trans belowToo
  exact Option.some.inj (isNames.symm.trans areOthers)

/-- A path that is spelled below a root lies below it. -/
theorem isBelow (spells : root.Spells path names) : root.isBelow path = true := by
  obtain ⟨components, below, -⟩ := spells
  rw [Path.isBelow, components_of_below? below]
  exact List.isPrefixOf_iff_prefix.2 (List.prefix_append _ _)

/-- A path that is spelled below a root takes the moves of the root first and then
the names. -/
theorem texts_eq (spells : root.Spells path names) :
    ∃ before after, path.texts = before ++ after ∧
      before.filter isMove = root.texts.filter isMove ∧ after.filter isMove = names := by
  obtain ⟨components, below, isNames⟩ := spells
  have moves : path.texts.filter isMove = root.texts.filter isMove ++ names := by
    rw [texts_filter, texts_filter, components_of_below? below, List.filterMap_append,
      (Folder.step?_of_namesBelow? isNames).1]
  exact List.filter_eq_append_iff.1 moves

/-- A path that is spelled below a root starts where the root does. -/
theorem isAbsolute_eq (spells : root.Spells path names) (filled : root.text ≠ "") :
    path.isAbsolute = root.isAbsolute := by
  obtain ⟨components, below, -⟩ := spells
  obtain ⟨first, rest, isRoot⟩ := List.exists_cons_of_ne_nil (components_ne_nil filled)
  rw [Bool.eq_iff_iff, isAbsolute_iff, isAbsolute_iff, components_of_below? below, isRoot]
  rfl

/-- A root between another one and a path cuts the names that spell the path. -/
theorem between (spells : root.Spells path names) {inner : Path}
    (isInner : root.components <+: inner.components) (isBelow : inner.isBelow path = true) :
    ∃ front rest, root.Spells inner front ∧ inner.Spells path rest ∧ names = front ++ rest := by
  obtain ⟨components, below, isNames⟩ := spells
  obtain ⟨first, isFirst⟩ := isInner
  obtain ⟨second, isSecond⟩ := List.isPrefixOf_iff_prefix.1 isBelow
  have isAll := components_of_below? below
  rw [← isSecond, ← isFirst, List.append_assoc, List.append_cancel_left_eq] at isAll
  subst isAll
  obtain ⟨front, rest, isFront, isRest, rfl⟩ := Folder.namesBelow?_append isNames
  exact ⟨front, rest, ⟨first, List.isPrefixOf?_eq_some_iff_append_eq.2 isFirst, isFront⟩,
    ⟨second, List.isPrefixOf?_eq_some_iff_append_eq.2 isSecond, isRest⟩, rfl⟩

end Path.Spells

/-- A descendant is spelled by its names. -/
theorem Path.spells_descendant (root : Path) {names : List String}
    (areNames : ∀ name ∈ names, IsName name) : root.Spells (root.descendant names) names := by
  refine ⟨names.map .name, ?_, Folder.namesBelow?_map_name names⟩
  exact List.isPrefixOf?_eq_some_iff_append_eq.2 (root.components_descendant areNames).symm

/-! ## Events -/

/-- Whether a file at the end of the given names takes part in routing: none of
them is ignored, and the last one is that of an entry point. -/
def Admitted (patterns names : List String) : Prop :=
  (∀ name ∈ names, isIgnored patterns name = false) ∧
    ∃ last ∈ names.getLast?, isEntryPointName last = true

/-- A file that takes part in routing has a name. -/
theorem Admitted.ne_nil {patterns names : List String} (admitted : Admitted patterns names) :
    names ≠ [] := by
  rintro rfl
  obtain ⟨_, ⟨⟩, _⟩ := admitted.2

/-- A file in the root takes part if it is an entry point that is not ignored. -/
theorem admitted_singleton {patterns : List String} {name : String} :
    Admitted patterns [name] ↔ isIgnored patterns name = false ∧ isEntryPointName name = true := by
  simp [Admitted]

/-- A file further down takes part if the first folder is not ignored and it takes part from
there. -/
theorem admitted_cons {patterns : List String} {name : String} {rest : List String}
    (more : rest ≠ []) :
    Admitted patterns (name :: rest) ↔
      isIgnored patterns name = false ∧ Admitted patterns rest := by
  rw [Admitted, Admitted, List.forall_mem_cons, and_assoc,
    List.getLast?_cons_of_ne_nil more]

namespace Folder

variable {tree : Folder} {patterns names : List String}

/-- The tree after an event on the entry at the end of the given names, and
whether it changed. -/
def edited (tree : Folder) (patterns names : List String) (event : Event) : Folder × Bool :=
  if names.isEmpty || names.any (isIgnored patterns) then (tree, false)
  else
    match event with
    | .create => if names.getLast?.any isEntryPointName then tree.create names else (tree, false)
    | .delete => tree.delete names
    | .update => (tree, false)

/-- An event on a path that is spelled below the root is one on its names. -/
theorem apply_of_spells {path : Path} (spells : tree.label.path.Spells path names)
    (event : Event) : tree.apply patterns path event = .ok (tree.edited patterns names event) := by
  obtain ⟨components, below, isNames⟩ := spells
  rw [apply, watched?, below]
  simp only [isNames, edited]
  split
  next => rfl
  next =>
    cases event with
    | create =>
      simp only [bind, Except.bind]
      split <;> rfl
    | delete => rfl
    | update => rfl

/-- An event changes nothing, creates a file or deletes an entry. -/
theorem edited_cases (tree : Folder) (patterns names : List String) (event : Event) :
    tree.edited patterns names event = (tree, false) ∨ names ≠ [] ∧
      (tree.edited patterns names event = tree.create names ∨
        tree.edited patterns names event = tree.delete names) := by
  rw [edited.eq_def]
  split
  next => exact .inl rfl
  next watched =>
    have filled : names ≠ [] := by
      rintro rfl
      exact watched rfl
    cases event with
    | create =>
      dsimp only
      split
      · exact .inr ⟨filled, .inl rfl⟩
      · exact .inl rfl
    | delete => exact .inr ⟨filled, .inr rfl⟩
    | update => exact .inl rfl

/-- The creation of a file that takes part records it. -/
theorem edited_create_of_admitted (admitted : Admitted patterns names) :
    tree.edited patterns names .create = tree.create names := by
  obtain ⟨last, isLast, isEntryPoint⟩ := admitted.2
  have watched : ¬ (names.isEmpty || names.any (isIgnored patterns)) = true := by
    rw [Bool.or_eq_true, List.isEmpty_iff, List.any_eq_true]
    rintro (none | ⟨name, member, ignored⟩)
    · exact admitted.ne_nil none
    · rw [admitted.1 name member] at ignored
      cases ignored
  have isFile : names.getLast?.any isEntryPointName = true := by
    rw [Option.mem_def.1 isLast]
    exact isEntryPoint
  rw [edited, if_neg watched]
  exact if_pos isFile

/-- The creation of any other file changes nothing. -/
theorem edited_create_of_not_admitted (notAdmitted : ¬ Admitted patterns names) :
    tree.edited patterns names .create = (tree, false) := by
  rw [edited]
  split
  next => rfl
  next watched =>
    rw [Bool.or_eq_true, not_or, List.any_eq_true] at watched
    refine if_neg fun isFile => notAdmitted ⟨fun name member => ?_, ?_⟩
    · exact Bool.eq_false_iff.2 fun ignored => watched.2 ⟨name, member, ignored⟩
    · cases isLast : names.getLast? with
      | none =>
        rw [isLast] at isFile
        cases isFile
      | some last =>
        rw [isLast] at isFile
        exact ⟨last, rfl, isFile⟩

/-- A change of contents changes nothing in the tree. -/
theorem edited_update (tree : Folder) (patterns names : List String) :
    tree.edited patterns names .update = (tree, false) := by
  rw [edited]
  split <;> rfl

/-- An event does not change the label of the root. -/
@[simp] theorem edited_label (tree : Folder) (patterns names : List String) (event : Event) :
    (tree.edited patterns names event).1.label = tree.label := by
  rcases tree.edited_cases patterns names event with same | ⟨-, same | same⟩ <;> rw [same]
  · exact create_label tree names
  · exact delete_label tree names

/-- A canonical tree stays so through an event on names. -/
theorem Canonical.edited (canonical : tree.Canonical) (patterns names : List String)
    (event : Event) : (tree.edited patterns names event).1.Canonical := by
  rcases tree.edited_cases patterns names event with same | ⟨-, same | same⟩ <;> rw [same]
  · exact canonical
  · exact canonical.create names
  · exact canonical.delete names

/-- An event tells truly whether the tree has changed. -/
theorem edited_changed_iff_ne (canonical : tree.Canonical) (patterns names : List String)
    (event : Event) :
    (tree.edited patterns names event).2 = true ↔
      (tree.edited patterns names event).1 ≠ tree := by
  rcases tree.edited_cases patterns names event with same | ⟨filled, same | same⟩ <;> rw [same]
  · simp
  · exact create_changed_iff_ne canonical filled
  · exact delete_changed_iff_ne canonical filled

/-- After an entry was deleted, a tree all of whose records take part in routing
records all other files but those at its place or below. -/
theorem records_edited_delete (canonical : tree.Canonical)
    (admitted : ∀ other, tree.Records other → Admitted patterns other) (filled : names ≠ [])
    (other : List String) :
    (tree.edited patterns names .delete).1.Records other ↔
      tree.Records other ∧ ¬ names <+: other := by
  rw [edited]
  split
  next unwatched =>
    rw [Bool.or_eq_true, List.isEmpty_iff, List.any_eq_true] at unwatched
    obtain ⟨name, member, ignored⟩ := unwatched.resolve_left filled
    -- Nothing is recorded below an ignored name.
    constructor
    · intro recorded
      refine ⟨recorded, fun below => ?_⟩
      rw [(admitted other recorded).1 name (below.subset member)] at ignored
      cases ignored
    · exact And.left
  next => exact records_delete canonical filled other

end Folder

end RouteAtlas
