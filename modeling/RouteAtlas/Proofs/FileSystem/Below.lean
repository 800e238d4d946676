import RouteAtlas.FileSystem.Change
import RouteAtlas.Proofs.FileSystem.Leads
import RouteAtlas.Proofs.FileTree.Watched
import RouteAtlas.Proofs.Outcome

/-!
# Changes below a root

A path that is spelled below a root in any way, and passes through no link there,
leads to the names it spells, seen from where the root leads. So writing a file
below a root adds that file and nothing but directories
(`FileSystem.apply_write_below`), and removing an item takes away what stands at
or below its names (`FileSystem.apply_remove_below`). An item is removed or moved by its
last name, so that only the names before it must be no links (`FileSystem.entry_below`). A
file that is new adds nothing else, and can be looked up by its path
(`FileSystem.place_of_write`).
-/

set_option autoImplicit false

namespace RouteAtlas

/-- A name is looked up in a directory. -/
theorem IsName.looksUp {name : String} (isName : IsName name) : FileSystem.LooksUp name :=
  ⟨isName.nonempty, isName.notCurrent, isName.notParent⟩

namespace FileSystem

variable {fs : FileSystem} {root path : Path} {top : Location} {names : List String}

/-- A root leads to a directory. -/
def RootAt (fs : FileSystem) (root : Path) (top : Location) : Prop :=
  fs.resolve .follow root = .ok top ∧ fs.kind? top = some .directory

/-- Nothing on the way from a location along some names is a link. -/
def Plain (fs : FileSystem) (top : Location) (names : List String) : Prop :=
  ∀ before, before <+: names → ∀ target, fs.kind? (top ++ before) ≠ some (.link target)

/-- If no link stands on a way, none stands on the front of it. -/
theorem Plain.front {before : List String} (plain : fs.Plain top names)
    (isBefore : before <+: names) : fs.Plain top before :=
  fun _ first => plain _ (first.trans isBefore)

/-- A path is resolved if its text is in order and a walk along its steps ends. -/
theorem resolve_eq_ok_iff {last : LastStep} {location : Location} :
    fs.resolve last path = .ok location ↔ textError? last path = none ∧
      fs.walk last linkLimit (start path fs.workingDirectory) path.steps = .ok location := by
  rw [resolve]
  cases textError? last path <;> simp

/-- A path leads to an item if it is resolved to a location where the item stands. -/
theorem lookUp_eq_ok_iff {last : LastStep} {path : Path} {item : Item} :
    fs.lookUp last path = .ok item ↔
      ∃ location, fs.resolve last path = .ok location ∧ fs.item? location = some item := by
  rw [lookUp, bind_eq_ok_iff]
  refine exists_congr fun location => and_congr_right fun _ => ?_
  cases fs.item? location <;> simp

/-- The text of a path is in order if it has no NUL, is not empty and not too long. -/
theorem textError?_eq_none_iff {last : LastStep} :
    textError? last path = none ↔ '\x00' ∉ path.text.toList ∧ path.text ≠ "" ∧
      (last = .canonical ∨ path.text.utf8ByteSize < pathLimit) := by
  rw [textError?]
  by_cases isNul : '\x00' ∈ path.text.toList
  · simp [isNul]
  by_cases empty : path.text = ""
  · simp [empty]
  by_cases canonical : last = .canonical
  · simp [isNul, empty, canonical]
  · by_cases short : path.text.utf8ByteSize < pathLimit
    · simp [isNul, empty, canonical, short, Nat.not_le.2 short]
    · simp [isNul, empty, canonical, short, Nat.not_lt.1 short]

/-- The empty path is not resolved. -/
theorem text_ne_empty {last : LastStep} {location : Location}
    (resolved : fs.resolve last path = .ok location) : path.text ≠ "" :=
  (textError?_eq_none_iff.1 (resolve_eq_ok_iff.1 resolved).1).2.1

/-- The steps of a path move as its texts do: an empty step at the end does not move. -/
theorem steps_filter (path : Path) : path.steps.filter isMove = path.texts.filter isMove := by
  rw [Path.steps]
  split
  · rw [List.filter_append]
    exact List.append_nil _
  · rfl

/-- A root is found with its slots. -/
theorem RootAt.lookUp_follow (rootAt : fs.RootAt root top) :
    ∃ slots, fs.item? top = some (.directory slots) ∧
      fs.lookUp .follow root = .ok (.directory slots) := by
  obtain ⟨isTop, isDirectory⟩ := rootAt
  obtain ⟨slots, found⟩ := kind?_eq_directory_iff.1 isDirectory
  exact ⟨slots, found, lookUp_eq_ok_iff.2 ⟨top, isTop, found⟩⟩

/-- Slashes behind a root lead to the same directory, as long as the path stays short
enough. -/
theorem RootAt.slashed (rootAt : fs.RootAt root top) {count : Nat}
    (short : root.text.utf8ByteSize + count < pathLimit) : fs.RootAt (root.slashed count) top := by
  obtain ⟨fine, walked⟩ := resolve_eq_ok_iff.1 rootAt.1
  obtain ⟨links, enough, leads⟩ := leads_of_walk walked rootAt.2
  obtain ⟨noNul, filled, -⟩ := textError?_eq_none_iff.1 fine
  have sameStart : start (root.slashed count) fs.workingDirectory =
      start root fs.workingDirectory := by
    have same : (root.slashed count).isAbsolute = root.isAbsolute := by
      rw [Bool.eq_iff_iff, Path.isAbsolute_iff, Path.isAbsolute_iff,
        Path.components_slashed filled]
    rw [start, start, same]
  have sameMoves : (root.slashed count).steps.filter isMove = root.steps.filter isMove := by
    rw [steps_filter, steps_filter, Path.texts_slashed]
  refine ⟨resolve_eq_ok_iff.2 ⟨textError?_eq_none_iff.2 ⟨?_, ?_, .inr ?_⟩, ?_⟩, rootAt.2⟩
  · rw [Path.slashed, String.toList_append, String.toList_ofList, List.mem_append]
    rintro (inRoot | inSlashes)
    · exact noNul inRoot
    · cases List.eq_of_mem_replicate inSlashes
  · exact fun empty => filled (String.append_eq_empty_iff.1 empty).1
  · rwa [Path.utf8ByteSize_slashed]
  · rw [sameStart]
    exact (leads.of_filter_eq sameMoves).walk_follow enough

/-- With slashes behind it a root of one letter gets as long as a path can be. -/
theorem slashed_r {count : Nat} (some : count ≠ 0) (short : 1 + count < pathLimit) :
    (Path.slashed ⟨"r"⟩ count).text.utf8ByteSize = 1 + count ∧
      (Path.slashed ⟨"r"⟩ count).endsInSlash = true ∧
      (Path.slashed ⟨"r"⟩ count).components = [.name "r"] ∧
      ∀ {fs : FileSystem}, fs.RootAt ⟨"r"⟩ ["r"] → fs.RootAt (Path.slashed ⟨"r"⟩ count) ["r"] := by
  have size : (Path.text ⟨"r"⟩).utf8ByteSize = 1 := by decide
  refine ⟨?_, ?_, ?_, fun rootAt => rootAt.slashed (by rwa [size])⟩
  · rw [Path.utf8ByteSize_slashed, size]
  · obtain ⟨fewer, rfl⟩ := Nat.exists_eq_succ_of_ne_zero some
    exact Path.endsInSlash_slashed _ fewer
  · rw [Path.components_slashed (by decide)]
    decide

/-- The texts of a path that is spelled below a root are steps that lead where the
root does, and steps that move along the names. -/
theorem RootAt.leads (rootAt : fs.RootAt root top) (spells : root.Spells path names) :
    ∃ before after links, path.texts = before ++ after ∧ after.filter isMove = names ∧
      links ≤ linkLimit ∧ Leads fs links (start path fs.workingDirectory) before top := by
  obtain ⟨before, after, isTexts, sameMoves, isNames⟩ := spells.texts_eq
  obtain ⟨links, enough, leads⟩ := leads_of_walk (resolve_eq_ok_iff.1 rootAt.1).2 rootAt.2
  have sameStart : start path fs.workingDirectory = start root fs.workingDirectory := by
    rw [start, start, spells.isAbsolute_eq (text_ne_empty rootAt.1)]
  refine ⟨before, after, links, isTexts, isNames, enough, ?_⟩
  rw [sameStart]
  exact leads.of_filter_eq (sameMoves.trans (steps_filter root).symm)

/-- The steps of a path that is spelled below a root lead where the root does, and then
move along the names. -/
theorem RootAt.leads_steps (rootAt : fs.RootAt root top) (spells : root.Spells path names) :
    ∃ before rest links, path.steps = before ++ rest ∧ rest.filter isMove = names ∧
      links ≤ linkLimit ∧ Leads fs links (start path fs.workingDirectory) before top := by
  obtain ⟨before, after, links, isTexts, isNames, enough, leads⟩ := rootAt.leads spells
  rw [Path.steps, isTexts]
  split
  · refine ⟨before, after ++ [""], links, List.append_assoc _ _ _, ?_, enough, leads⟩
    rw [List.filter_append, isNames]
    exact List.append_nil names
  · exact ⟨before, after, links, rfl, isNames, enough, leads⟩

/-- Steps that move go on behind others. -/
theorem goesOn_of_moves {rest : List String} (moves : rest.filter isMove = names)
    (below : names ≠ []) : rest ≠ [] ∧ rest ≠ [""] := by
  constructor <;> rintro rfl <;> exact below moves.symm

/-- Above something that is there, and is no link itself, stand only directories. -/
theorem Plain.of_present {kind : ItemKind} (present : fs.kind? (top ++ names) = some kind)
    (noLink : ∀ target, kind ≠ .link target) : fs.Plain top names := by
  rintro before ⟨rest, rfl⟩ target
  by_cases last : rest = []
  · rw [last, List.append_nil] at present
    rw [present]
    exact fun isLink => noLink target (Option.some.inj isLink)
  · rw [← List.append_assoc] at present
    rw [kind?_of_append last (by rw [present]; exact nofun)]
    exact nofun

/-- Where a directory does not have the next name, no link stands further down. -/
theorem Plain.of_free {name : String} (isDirectory : fs.kind? top = some .directory)
    (free : fs.kind? (top ++ [name]) = none) (rest : List String) :
    fs.Plain top (name :: rest) := by
  intro before isBefore target
  cases before with
  | nil =>
    rw [List.append_nil, isDirectory]
    exact nofun
  | cons first before =>
    obtain ⟨rfl, -⟩ := List.cons_prefix_cons.1 isBefore
    rw [List.append_cons, kind?_append_of_none free]
    exact nofun

/-- No link stands on the way to a free place in a directory. -/
theorem Plain.of_room (room : fs.HasRoom (top ++ names)) (free : fs.kind? (top ++ names) = none) :
    fs.Plain top names := by
  intro before isBefore target
  by_cases whole : top ++ before = top ++ names
  · rw [whole, free]
    exact nofun
  · rw [room.above ((List.prefix_append_right_inj top).2 isBefore) whole]
    exact nofun

/-- The steps that do not move are the empty one and `.`. -/
theorem not_isMove_iff {step : String} : ¬ isMove step = true ↔ step = "" ∨ step = "." := by
  simp [isMove, Decidable.or_iff_not_imp_left]

/-- The first item on a plain way is no link. -/
theorem Plain.first {name : String} (plain : fs.Plain top (name :: names)) (target : Path) :
    fs.kind? (top ++ [name]) ≠ some (.link target) :=
  plain [name] (List.cons_prefix_cons.2 ⟨rfl, List.nil_prefix⟩) target

/-- A plain way is plain from its second item on. -/
theorem Plain.of_cons {name : String} (plain : fs.Plain top (name :: names)) :
    fs.Plain (top ++ [name]) names := by
  intro before isBefore
  rw [← List.append_cons]
  exact plain (name :: before) (List.cons_prefix_cons.2 ⟨rfl, isBefore⟩)

/-- Where no link is met, a walk ends where its names say. -/
theorem walk_plain {last : LastStep} {allowed : Nat} {here out : Location}
    {steps : List String} (moves : steps.filter isMove = names)
    (areNames : ∀ name ∈ names, IsName name) (plain : fs.Plain here names)
    (walked : fs.walk last allowed here steps = .ok out) : out = here ++ names := by
  subst moves
  replace walked := Walks.of_walk walked
  induction walked with
  | done => rw [List.filter_nil, List.append_nil]
  | stay stays _ ih =>
    rw [List.filter_cons_of_neg (not_isMove_iff.2 stays)] at areNames plain ⊢
    exact ih areNames plain
  | up => exact absurd rfl (areNames ".." List.mem_cons_self).looksUp.2.2
  | down looksUp _ _ _ _ ih =>
    rw [List.filter_cons_of_pos looksUp.isMove] at areNames plain ⊢
    rw [List.append_cons]
    exact ih (fun name member => areNames name (List.mem_cons_of_mem _ member)) plain.of_cons
  | file looksUp => rw [List.filter_cons_of_pos looksUp.isMove, List.filter_nil]
  | free _ looksUp => rw [List.filter_cons_of_pos looksUp.isMove, List.filter_nil]
  | keep _ looksUp => rw [List.filter_cons_of_pos looksUp.isMove, List.filter_nil]
  | jump looksUp _ _ _ isLink =>
    rw [List.filter_cons_of_pos looksUp.isMove] at plain
    exact absurd isLink (plain.first _)

/-! ## Growth -/

/-- No directory has a name twice. -/
def Distinct (fs : FileSystem) : Prop := fs.Tidy fun _ => True

/-- Nothing changed but that directories were made. -/
structure Grows (fs other : FileSystem) : Prop where
  kept : ∀ location kind, fs.kind? location = some kind → other.kind? location = some kind
  onlyDirectories : ∀ location kind, other.kind? location = some kind → kind ≠ .directory →
    fs.kind? location = some kind
  workingDirectory : other.workingDirectory = fs.workingDirectory
  distinct : fs.Distinct → other.Distinct

/-- Nothing new is the least growth. -/
theorem Grows.refl (fs : FileSystem) : Grows fs fs :=
  ⟨fun _ _ same => same, fun _ _ same _ => same, rfl, id⟩

/-- Growth goes on from growth. -/
theorem Grows.trans {other third : FileSystem} (first : Grows fs other)
    (second : Grows other third) : Grows fs third where
  kept location kind isKind := second.kept location kind (first.kept location kind isKind)
  onlyDirectories location kind isKind notDirectory :=
    first.onlyDirectories location kind (second.onlyDirectories location kind isKind notDirectory)
      notDirectory
  workingDirectory := second.workingDirectory.trans first.workingDirectory
  distinct := second.distinct ∘ first.distinct

/-- To place an item does not change the working directory. -/
@[simp] theorem place_workingDirectory (fs : FileSystem) (location : Location) (item : Item) :
    (fs.place location item).workingDirectory = fs.workingDirectory := by
  rw [place]
  split <;> rfl

/-- What is put in a free place keeps all that is there. -/
theorem kind?_place_of_free {location : Location} (room : fs.HasRoom location)
    (free : fs.kind? location = none) (item : Item) {other : Location} {kind : ItemKind}
    (isKind : fs.kind? other = some kind) : (fs.place location item).kind? other = some kind := by
  have notBelow : ¬ location <+: other := by
    rintro ⟨rest, rfl⟩
    rw [kind?_append_of_none free] at isKind
    cases isKind
  rw [kind?_place_apart room _ notBelow, isKind]

/-- An empty directory at a free place is growth. -/
theorem Grows.place {location : Location} (room : fs.HasRoom location)
    (free : fs.kind? location = none) : Grows fs (fs.place location (.directory [])) where
  kept _ _ isKind := kind?_place_of_free room free _ isKind
  onlyDirectories other kind isKind notDirectory := by
    by_cases below : location <+: other
    · obtain ⟨rest, rfl⟩ := below
      rw [kind?, item?_place room] at isKind
      cases rest with
      | nil =>
        cases isKind
        exact absurd rfl notDirectory
      | cons => cases isKind
    · rwa [kind?_place_apart room _ below] at isKind
  workingDirectory := place_workingDirectory fs location _
  distinct unique := unique.place (fun _ _ => trivial) .nil

/-- Steps that lead to a directory can be cut off where directories are made along
a path. -/
theorem makeAlong_of_leads {links : Nat} {here mid : Location} {before : List String}
    (leads : Leads fs links here before mid) (enough : links ≤ linkLimit) (rest : List String) :
    fs.makeAlong here (before ++ rest) = fs.makeAlong mid rest := by
  induction before generalizing links here with
  | nil =>
    cases leads
    rfl
  | cons step before ih =>
    obtain ⟨first, second, next, rfl, here', there⟩ :=
      leads_append_iff.1 (show Leads fs links here ([step] ++ before) mid from leads)
    have stepped : fs.walk .follow linkLimit here [step, ""] = .ok next := by
      have cut : fs.walk .follow linkLimit here ([step] ++ [""]) = _ :=
        here'.walk (Nat.le_of_add_right_le enough) (by decide) (.inl rfl)
      rwa [walk_stay (.inl rfl), walk_nil] at cut
    rw [List.cons_append, makeAlong, stepped]
    exact ih there (Nat.le_of_add_left_le enough)

/-- A plain way stays plain while directories are made. -/
theorem Grows.plain {other : FileSystem} (grows : Grows fs other) (plain : fs.Plain top names) :
    other.Plain top names := fun before isBefore target isLink =>
  plain before isBefore target (grows.onlyDirectories _ _ isLink nofun)

/-- Where a name is no link, making directories goes on in the directory of that
name, which was there or is new. -/
theorem makeAlong_name {here : Location} {step : String} {rest : List String}
    {other : FileSystem} (isName : IsName step) (isDirectory : fs.kind? here = some .directory)
    (noLink : ∀ target, fs.kind? (here ++ [step]) ≠ some (.link target))
    (made : fs.makeAlong here (step :: rest) = .ok other) :
    ∃ next, Grows fs next ∧ next.kind? (here ++ [step]) = some .directory ∧
      next.makeAlong (here ++ [step]) rest = .ok other := by
  rw [makeAlong, walk_name isName.looksUp] at made
  simp only [reduceCtorEq, false_and, if_false] at made
  split at made
  next out reached =>
    split at reached
    next => cases reached
    next =>
      split at reached
      next => cases reached
      next isThere =>
        rw [walk_stay (.inl rfl), walk_nil] at reached
        cases reached
        exact ⟨fs, .refl fs, isThere, made⟩
      next => cases reached
      next target isLink => exact absurd isLink (noLink target)
  next missing =>
    split at made
    next => cases made
    next free =>
      have room : fs.HasRoom (here ++ [step]) := ⟨here, step, rfl, isDirectory⟩
      have noKind : fs.kind? (here ++ [step]) = none := by rw [kind?, free]; rfl
      refine ⟨_, .place room noKind, ?_, made⟩
      have here' := item?_place room (.directory []) []
      rw [List.append_nil] at here'
      rw [kind?, here']
      rfl
  next => cases made

/-- Where no link is met, directories are made along the names. -/
theorem makeAlong_plain {here : Location} {steps : List String} {other : FileSystem}
    (moves : steps.filter isMove = names) (areNames : ∀ name ∈ names, IsName name)
    (isDirectory : fs.kind? here = some .directory) (plain : fs.Plain here names)
    (made : fs.makeAlong here steps = .ok other) :
    Grows fs other ∧
      ∀ before, before <+: names → other.kind? (here ++ before) = some .directory := by
  induction steps generalizing fs here names with
  | nil =>
    cases moves
    cases made
    refine ⟨.refl _, fun before isBefore => ?_⟩
    rw [List.prefix_nil.1 isBefore, List.append_nil]
    exact isDirectory
  | cons step rest ih =>
    by_cases isStep : isMove step = true
    · rw [List.filter_cons_of_pos isStep] at moves
      subst moves
      obtain ⟨next, grows, isNext, madeOn⟩ := makeAlong_name (areNames step List.mem_cons_self)
        isDirectory plain.first made
      have later := fun name member => areNames name (List.mem_cons_of_mem step member)
      obtain ⟨growsOn, directories⟩ :=
        ih rfl later isNext (grows.plain plain.of_cons) madeOn
      refine ⟨grows.trans growsOn, fun before isBefore => ?_⟩
      cases before with
      | nil =>
        rw [List.append_nil]
        exact growsOn.kept _ _ (grows.kept _ _ isDirectory)
      | cons name before =>
        obtain ⟨rfl, isBelow⟩ := List.cons_prefix_cons.1 isBefore
        rw [List.append_cons]
        exact directories before isBelow
    · rw [List.filter_cons_of_neg isStep] at moves
      rw [makeAlong, walk_stay (not_isMove_iff.1 isStep), walk_stay (.inl rfl), walk_nil] at made
      exact ih moves areNames isDirectory plain made

/-! ## Writing -/

/-- The texts between the slashes of a path that count are not empty. -/
theorem ne_empty_of_mem_texts {step : String} (member : step ∈ path.texts) : step ≠ "" := by
  obtain ⟨piece, isPiece, rfl⟩ := List.mem_map.1 member
  intro empty
  have filled := (List.mem_filter.1 isPiece).2
  rw [String.ofList_eq_empty_iff.1 empty] at filled
  cases filled

/-- A path that is spelled below a root and meets no link there leads to its names,
whatever it is resolved for. -/
theorem resolve_below (rootAt : fs.RootAt root top) (spells : root.Spells path names)
    (below : names ≠ []) (plain : fs.Plain top names) {last : LastStep}
    (notCanonical : last ≠ .canonical) {location : Location}
    (resolved : fs.resolve last path = .ok location) : location = top ++ names := by
  obtain ⟨before, rest, links, isSteps, moves, enough, leads⟩ := rootAt.leads_steps spells
  have walked := (resolve_eq_ok_iff.1 resolved).2
  rw [isSteps, leads.walk enough notCanonical (.inr (goesOn_of_moves moves below))] at walked
  exact walk_plain moves spells.isName plain walked

/-- A root leads to the same directory as long as everything is kept that is there. -/
theorem RootAt.mono {other : FileSystem} (rootAt : fs.RootAt root top)
    (kept : ∀ location kind, fs.kind? location = some kind → other.kind? location = some kind)
    (sameDirectory : other.workingDirectory = fs.workingDirectory) : other.RootAt root top := by
  obtain ⟨fine, walked⟩ := resolve_eq_ok_iff.1 rootAt.1
  obtain ⟨links, enough, leads⟩ := leads_of_walk walked rootAt.2
  refine ⟨resolve_eq_ok_iff.2 ⟨fine, ?_⟩, kept _ _ rootAt.2⟩
  rw [sameDirectory]
  exact (leads.mono fun location kind _ => kept location kind).walk_follow enough

/-- A root keeps its directory while directories are made. -/
theorem Grows.rootAt {other : FileSystem} (grows : Grows fs other)
    (rootAt : fs.RootAt root top) : other.RootAt root top :=
  rootAt.mono grows.kept grows.workingDirectory

/-- A file is written where the path leads, links followed, unless a directory is there. -/
theorem write_eq_ok_iff {contents : String} {other : FileSystem} :
    fs.write path contents = .ok other ↔ ∃ location, fs.resolve .create path = .ok location ∧
      fs.kind? location ≠ some .directory ∧ fs.place location (.file contents) = other := by
  rw [write, bind_eq_ok_iff]
  refine exists_congr fun location => and_congr_right fun _ => ?_
  rw [kind?]
  rcases fs.item? location with _ | (_ | _ | _) <;> simp [Item.kind]

/-- Where the parents of a path below a root are made, the file system grows, and
the names in front of the last text of the path are directories. -/
theorem makeParents_below (rootAt : fs.RootAt root top) (spells : root.Spells path names)
    (below : names ≠ []) (plain : fs.Plain top names) {grown : FileSystem}
    (made : fs.makeParents path = .ok grown) :
    Grows fs grown ∧ (grown.HasRoom (top ++ names) ∨
      grown.kind? (top ++ names) = some .directory) := by
  obtain ⟨before, after, links, isTexts, isNames, enough, leads⟩ := rootAt.leads spells
  have more : after ≠ [] := by
    rintro rfl
    exact below isNames.symm
  obtain ⟨parents, last, rfl⟩ := (List.eq_nil_or_concat after).resolve_left more
  rw [List.concat_eq_append] at isTexts isNames
  rw [makeParents, isTexts, ← List.append_assoc, List.dropLast_concat,
    makeAlong_of_leads leads enough] at made
  rw [List.filter_append] at isNames
  have isBefore : parents.filter isMove <+: names := ⟨_, isNames⟩
  have areNames := fun name member => spells.isName name (isBefore.subset member)
  obtain ⟨grows, directories⟩ :=
    makeAlong_plain rfl areNames rootAt.2 (plain.front isBefore) made
  refine ⟨grows, ?_⟩
  have isParent := directories _ List.prefix_rfl
  by_cases isName : isMove last = true
  · rw [List.filter_cons_of_pos isName, List.filter_nil] at isNames
    exact .inl ⟨top ++ parents.filter isMove, last,
      by rw [List.append_assoc, isNames], isParent⟩
  · rw [List.filter_cons_of_neg isName, List.filter_nil, List.append_nil] at isNames
    rw [isNames] at isParent
    exact .inr isParent

/-- A location does not lie below its own descendants. -/
theorem not_prefix_self (below : names ≠ []) : ¬ top ++ names <+: top := by
  intro above
  have inside : top ++ names <+: top ++ [] := by rwa [List.append_nil]
  exact below (List.prefix_nil.1 ((List.prefix_append_right_inj top).1 inside))

/-- Where there is no directory, a file that is put in place is the only one that can be
new. -/
theorem files_of_place {contents : String} (room : fs.HasRoom (top ++ names))
    (notDirectory : fs.kind? (top ++ names) ≠ some .directory) (others : List String) :
    (fs.place (top ++ names) (.file contents)).kind? (top ++ others) = some .file ↔
      others = names ∨ fs.kind? (top ++ others) = some .file := by
  by_cases isBelow : names <+: others
  · obtain ⟨rest, rfl⟩ := isBelow
    rw [← List.append_assoc, kind?, item?_place room]
    cases rest with
    | nil => simp [Item.kind]
    | cons name rest =>
      have nothing : (Item.file contents).at? (name :: rest) = none := rfl
      rw [nothing]
      refine iff_of_false (by simp) (not_or.2 ⟨by simp, fun wasFile => notDirectory ?_⟩)
      exact kind?_of_append (List.cons_ne_nil name rest) (by rw [wasFile]; simp)
  · have different : others ≠ names := by
      rintro rfl
      exact isBelow List.prefix_rfl
    rw [kind?_place_apart room _
      fun inside => isBelow ((List.prefix_append_right_inj top).1 inside)]
    exact (or_iff_right different).symm

/-- Writing a file below a root through no link makes that file and otherwise only
directories. -/
theorem apply_write_below (rootAt : fs.RootAt root top) (spells : root.Spells path names)
    (below : names ≠ []) (plain : fs.Plain top names) {contents : String} {other : FileSystem}
    (applied : fs.apply (.write path contents) = .ok other) :
    other.kind? top = some .directory ∧ (fs.Distinct → other.Distinct) ∧
      ∀ others, other.kind? (top ++ others) = some .file ↔
        others = names ∨ fs.kind? (top ++ others) = some .file := by
  obtain ⟨grown, made, written⟩ := bind_eq_ok_iff.1 applied
  obtain ⟨grows, parents⟩ := makeParents_below rootAt spells below plain made
  obtain ⟨location, resolved, notDirectory, rfl⟩ := write_eq_ok_iff.1 written
  obtain rfl := resolve_below (grows.rootAt rootAt) spells below (grows.plain plain)
    (by decide) resolved
  have room : grown.HasRoom (top ++ names) := parents.resolve_right notDirectory
  refine ⟨?_, fun distinct => ?_, fun others => ?_⟩
  · rw [kind?_place_apart room _ (not_prefix_self below)]
    exact grows.kept _ _ rootAt.2
  · exact (grows.distinct distinct).place (fun _ _ => trivial) (.file contents)
  · rw [files_of_place room notDirectory]
    exact or_congr_right ⟨fun isFile => grows.onlyDirectories _ _ isFile (by simp),
      grows.kept _ _⟩

/-! ## Removing and moving -/

/-- An entry is the last name of its path in the directory that the rest of the path leads
to. -/
theorem entry_eq_ok {location : Location} (isEntry : fs.entry path = .ok location) :
    ∃ name directory, textError? .keepLink path = none ∧ path.texts.getLast? = some name ∧
      LooksUp name ∧ name.utf8ByteSize ≤ nameLimit ∧
      fs.walk .follow linkLimit (start path fs.workingDirectory)
        (path.texts.dropLast ++ [""]) = .ok directory ∧ location = directory ++ [name] := by
  rw [entry] at isEntry
  split at isEntry
  next => cases isEntry
  next => cases isEntry
  next name fine isLast =>
    split at isEntry
    next => cases isEntry
    next isName =>
      split at isEntry
      next => cases isEntry
      next notLong =>
        obtain ⟨directory, walked, rfl⟩ := map_eq_ok_iff.1 isEntry
        have filled := ne_empty_of_mem_texts (List.mem_of_getLast? isLast)
        exact ⟨name, directory, fine, isLast, ⟨filled, not_or.1 isName⟩, Nat.not_lt.1 notLong,
          walked, rfl⟩

/-- The texts of a path below a root that ends in a name are steps that lead where the root
does, steps that move along the other names, and the name. -/
theorem RootAt.leads_named (rootAt : fs.RootAt root top) (spells : root.Spells path names)
    (below : names ≠ []) {name : String} (isLast : path.texts.getLast? = some name)
    (looksUp : LooksUp name) :
    ∃ before parents links, path.texts = before ++ (parents ++ [name]) ∧
      names = parents.filter isMove ++ [name] ∧ links ≤ linkLimit ∧
      Leads fs links (start path fs.workingDirectory) before top := by
  obtain ⟨before, after, links, isTexts, isNames, enough, leads⟩ := rootAt.leads spells
  have more : after ≠ [] := by
    rintro rfl
    exact below isNames.symm
  obtain ⟨parents, last, rfl⟩ := (List.eq_nil_or_concat after).resolve_left more
  rw [List.concat_eq_append] at isTexts isNames
  rw [isTexts, ← List.append_assoc, List.getLast?_concat] at isLast
  cases isLast
  rw [List.filter_append, List.filter_cons_of_pos looksUp.isMove, List.filter_nil] at isNames
  exact ⟨before, parents, links, isTexts, isNames.symm, enough, leads⟩

/-- The entry of a path below a root, with no link above its last name, is where its names
say. -/
theorem entry_below (rootAt : fs.RootAt root top) (spells : root.Spells path names)
    (below : names ≠ []) (plain : fs.Plain top names.dropLast) {location : Location}
    (isEntry : fs.entry path = .ok location) : location = top ++ names := by
  obtain ⟨name, directory, -, isLast, looksUp, -, walked, rfl⟩ := entry_eq_ok isEntry
  obtain ⟨before, parents, links, isTexts, rfl, enough, leads⟩ :=
    rootAt.leads_named spells below isLast looksUp
  rw [isTexts, ← List.append_assoc, List.dropLast_concat, List.append_assoc,
    leads.walk enough (by decide) (.inl rfl)] at walked
  rw [List.dropLast_concat] at plain
  have sameMoves : (parents ++ [""]).filter isMove = parents.filter isMove := by
    rw [List.filter_append]
    exact List.append_nil _
  rw [walk_plain sameMoves (fun name member => spells.isName name (List.mem_append_left _ member))
    plain walked, List.append_assoc]

/-- So is the place of an item that has the last name of a path below a root. -/
theorem entryItem_below (rootAt : fs.RootAt root top) (spells : root.Spells path names)
    (below : names ≠ []) (plain : fs.Plain top names.dropLast) {location : Location} {item : Item}
    (isItem : fs.entryItem path = .ok (location, item)) :
    location = top ++ names ∧ fs.item? (top ++ names) = some item := by
  obtain ⟨place, isPlace, isItem⟩ := bind_eq_ok_iff.1 isItem
  obtain rfl := entry_below rootAt spells below plain isPlace
  split at isItem
  next => cases isItem
  next found isFound =>
    obtain ⟨_, _, ⟨⟩⟩ := bind_eq_ok_iff.1 isItem
    exact ⟨rfl, isFound⟩

/-- An item below a root is removed, through no link, where its names say. -/
theorem clear_of_apply_remove (rootAt : fs.RootAt root top) (spells : root.Spells path names)
    (below : names ≠ []) (plain : fs.Plain top names) {other : FileSystem}
    (applied : fs.apply (.remove path) = .ok other) :
    fs.HasRoom (top ++ names) ∧ fs.clear (top ++ names) = other := by
  obtain ⟨⟨location, item⟩, isItem, ⟨⟩⟩ := bind_eq_ok_iff.1 applied
  obtain ⟨rfl, found⟩ :=
    entryItem_below rootAt spells below (plain.front (List.dropLast_prefix names)) isItem
  have present : fs.kind? (top ++ names) ≠ none := by
    rw [kind?, found]
    exact Option.some_ne_none _
  exact ⟨hasRoom_of_present (List.append_ne_nil_of_right_ne_nil top below) present, rfl⟩

/-- Removing an item below a root through no link takes away the files at or below
its names. -/
theorem apply_remove_below (rootAt : fs.RootAt root top) (spells : root.Spells path names)
    (below : names ≠ []) (plain : fs.Plain top names) {other : FileSystem}
    (applied : fs.apply (.remove path) = .ok other) :
    other.kind? top = some .directory ∧ (fs.Distinct → other.Distinct) ∧
      ∀ others, other.kind? (top ++ others) = some .file ↔
        fs.kind? (top ++ others) = some .file ∧ ¬ names <+: others := by
  obtain ⟨room, rfl⟩ := clear_of_apply_remove rootAt spells below plain applied
  refine ⟨?_, fun distinct => distinct.clear _, fun others => ?_⟩
  · rw [kind?_clear room, if_neg (not_prefix_self below)]
    exact rootAt.2
  · rw [kind?_clear room]
    split
    next gone =>
      exact iff_of_false (by simp) fun kept => kept.2 ((List.prefix_append_right_inj top).1 gone)
    next stays =>
      exact (and_iff_left fun gone => stays ((List.prefix_append_right_inj top).2 gone)).symm

/-- A move changes nothing, or it clears the old place and puts the item in the new one. -/
theorem move_cases {source target : Location} {item : Item} {other : FileSystem}
    (found : fs.item? source = some item) (moved : fs.move source target = .ok other) :
    source = target ∧ other = fs ∨ ¬ source <+: target ∧
      fs.admitRename source target = .ok () ∧ other = (fs.clear source).place target item := by
  rw [move] at moved
  split at moved
  next same =>
    cases moved
    exact .inl ⟨same, rfl⟩
  next =>
    right
    by_cases above : source.isPrefixOf target = true
    · rw [if_pos above] at moved
      cases moved
    · rw [if_neg above] at moved
      obtain ⟨_, admitted, isMoved⟩ := bind_eq_ok_iff.1 moved
      rw [found] at isMoved
      cases isMoved
      exact ⟨fun before => above (List.isPrefixOf_iff_prefix.2 before), admitted, rfl⟩

/-! ## New files -/

/-- Where no link is met, a walk to a free place ends with the name of it, and the steps
in front lead to its directory. -/
theorem walk_create_free {allowed : Nat} {here out : Location} {steps : List String}
    (moves : steps.filter isMove = names) (areNames : ∀ name ∈ names, IsName name)
    (isDirectory : fs.kind? here = some .directory) (plain : fs.Plain here names)
    (free : fs.kind? (here ++ names) = none)
    (walked : fs.walk .create allowed here steps = .ok out) :
    ∃ front parents name, steps = front ++ [name] ∧ names = parents ++ [name] ∧
      Leads fs 0 here front (here ++ parents) ∧
      fs.kind? (here ++ parents) = some .directory ∧ name.utf8ByteSize ≤ nameLimit := by
  have isShort : ∀ {here : Location} {step : String}, isTooLong .create here step = false →
      step.utf8ByteSize ≤ nameLimit := by
    intro here step short
    simpa [isTooLong] using short
  subst moves
  replace walked := Walks.of_walk walked
  induction walked with
  | done =>
    rw [List.filter_nil, List.append_nil, isDirectory] at free
    cases free
  | stay stays _ ih =>
    rw [List.filter_cons_of_neg (not_isMove_iff.2 stays)] at areNames plain free ⊢
    obtain ⟨front, parents, name, isRest, areRest, leads, facts⟩ :=
      ih isDirectory areNames plain free
    exact ⟨_ :: front, parents, name, by rw [isRest]; rfl, areRest, .stay stays leads, facts⟩
  | up => exact absurd rfl (areNames ".." List.mem_cons_self).looksUp.2.2
  | down looksUp _ short isThere _ ih =>
    rw [List.filter_cons_of_pos looksUp.isMove] at areNames plain free ⊢
    rw [List.append_cons] at free
    obtain ⟨front, parents, name, isRest, areRest, leads, isParent, shortName⟩ :=
      ih isThere (fun name member => areNames name (List.mem_cons_of_mem _ member))
        plain.of_cons free
    rw [← List.append_cons] at leads isParent
    exact ⟨_ :: front, _ :: parents, name, by rw [isRest]; rfl, by rw [areRest]; rfl,
      .down looksUp (isShort short) isThere leads, isParent, shortName⟩
  | file looksUp _ isFile =>
    rw [List.filter_cons_of_pos looksUp.isMove, List.filter_nil, isFile] at free
    cases free
  | @free _ here step _ looksUp short =>
    rw [List.filter_cons_of_pos looksUp.isMove, List.filter_nil]
    refine ⟨[], [], step, rfl, rfl, ?_, ?_, isShort short⟩
    · rw [List.append_nil]
      exact .done here
    · rw [List.append_nil]
      exact isDirectory
  | keep keeps => cases keeps
  | jump looksUp _ _ _ isLink =>
    rw [List.filter_cons_of_pos looksUp.isMove] at plain
    exact absurd isLink (plain.first _)

/-- A new file that is written below a root, through no link, is put where its names say,
and its path leads to it. -/
theorem place_of_write (rootAt : fs.RootAt root top) (spells : root.Spells path names)
    (below : names ≠ []) (plain : fs.Plain top names) (free : fs.kind? (top ++ names) = none)
    {contents : String} {other : FileSystem} (written : fs.write path contents = .ok other) :
    fs.HasRoom (top ++ names) ∧ fs.place (top ++ names) (.file contents) = other ∧
      other.lookUp .keepLink path = .ok (.file contents) := by
  obtain ⟨location, resolved, -, isPlaced⟩ := write_eq_ok_iff.1 written
  obtain rfl := resolve_below rootAt spells below plain (by decide) resolved
  obtain ⟨fine, walked⟩ := resolve_eq_ok_iff.1 resolved
  obtain ⟨before, rest, links, isSteps, moves, enough, leads⟩ := rootAt.leads_steps spells
  rw [isSteps, leads.walk enough (by decide) (.inr (goesOn_of_moves moves below))] at walked
  obtain ⟨front, parents, name, rfl, rfl, leadsOn, isParent, short⟩ :=
    walk_create_free moves spells.isName rootAt.2 plain free walked
  have looksUp : LooksUp name := (spells.isName name (by simp)).looksUp
  rw [← List.append_assoc] at free isPlaced ⊢
  have room : fs.HasRoom (top ++ parents ++ [name]) := ⟨_, name, rfl, isParent⟩
  have found : other.item? (top ++ parents ++ [name]) = some (.file contents) := by
    have placed := item?_place room (.file contents) []
    rwa [List.append_nil, Item.at?_nil, isPlaced] at placed
  have isFile : other.kind? (top ++ parents ++ [name]) = some .file := by
    rw [kind?, found]
    rfl
  have sameStart : other.workingDirectory = fs.workingDirectory := by
    rw [← isPlaced, place_workingDirectory]
  have leadsAll : Leads other links (start path fs.workingDirectory) (before ++ front)
      (top ++ parents) := by
    refine (leads_append_iff.2 ⟨links, 0, top, rfl, leads, leadsOn⟩).mono fun _ _ _ isKind => ?_
    rw [← isPlaced]
    exact kind?_place_of_free room free _ isKind
  have goesOn : [name] ≠ [] ∧ [name] ≠ [""] := ⟨List.cons_ne_nil _ _, by simpa using looksUp.1⟩
  refine ⟨room, isPlaced, lookUp_eq_ok_iff.2 ⟨_, resolve_eq_ok_iff.2 ⟨?_, ?_⟩, found⟩⟩
  · exact textError?_eq_none_iff.2 (by simpa using textError?_eq_none_iff.1 fine)
  · rw [sameStart, isSteps, ← List.append_assoc,
      leadsAll.walk enough (by decide) (.inr goesOn), walk_name looksUp, if_neg (by simp),
      isTooLong_eq_false short (by decide), isFile]
    rfl

end FileSystem

end RouteAtlas
