import RouteAtlas.Proofs.FileSystem.Below

/-!
# Descendants of a root

The names behind a root are those that can stand in a directory (`IsFileName`), so
the path of a descendant is in order as long as it is short enough. Where only real
directories stand above it, a path that is spelled below a root leads down its names:
a directory there is a root as well (`FileSystem.RootAt.descendant`), and looking
without following links gives what stands at the names
(`FileSystem.RootAt.lookUp_keepLink`).
-/

set_option autoImplicit false

namespace RouteAtlas

/-- A name that can stand in a directory. -/
structure IsFileName (name : String) : Prop extends IsName name where
  noNul : '\x00' ∉ name.toList
  short : name.utf8ByteSize ≤ FileSystem.nameLimit

instance (name : String) : Decidable (IsFileName name) :=
  decidable_of_iff
    (IsName name ∧ '\x00' ∉ name.toList ∧ name.utf8ByteSize ≤ FileSystem.nameLimit)
    ⟨fun ⟨isName, noNul, short⟩ => ⟨isName, noNul, short⟩,
      fun isFileName => ⟨isFileName.toIsName, isFileName.noNul, isFileName.short⟩⟩

namespace Path

/-- The characters of a path with a name behind it are those of the two and the slash
between them. -/
theorem mem_text_child {path : Path} {name : String} {c : Char}
    (member : c ∈ (path.child name).text.toList) :
    c ∈ path.text.toList ∨ c = '/' ∨ c ∈ name.toList := by
  rw [child] at member
  split at member
  next => exact .inr (.inr member)
  next =>
    split at member
    next => exact .inr (.inr member)
    next =>
      rw [String.toList_append, List.mem_append] at member
      exact member.imp_right .inr
    next =>
      rw [String.toList_append, String.toList_append, List.mem_append, List.mem_append,
        or_assoc] at member
      exact member.imp_right (.imp_left fun slash => List.mem_singleton.1 slash)

/-- Names behind a path that has a text without NUL give such a path. -/
theorem inOrder_descendant {path : Path} (noNul : '\x00' ∉ path.text.toList)
    (filled : path.text ≠ "") {names : List String} (areNames : ∀ name ∈ names, IsFileName name) :
    '\x00' ∉ (path.descendant names).text.toList ∧ (path.descendant names).text ≠ "" := by
  induction names generalizing path with
  | nil => exact ⟨noNul, filled⟩
  | cons name rest ih =>
    have isName := areNames name List.mem_cons_self
    refine ih ?_ (path.text_child_ne_empty isName.toIsName)
      (fun other member => areNames other (List.mem_cons_of_mem _ member))
    intro isNul
    rcases mem_text_child isNul with inPath | impossible | inName
    · exact noNul inPath
    · cases impossible
    · exact isName.noNul inName

/-- Names behind a path whose text is in order give a text in order, as long as it is
short enough. -/
theorem textError?_descendant {path : Path} {last : LastStep}
    (fine : FileSystem.textError? last path = none) {names : List String}
    (areNames : ∀ name ∈ names, IsFileName name)
    (short : (path.descendant names).text.utf8ByteSize < FileSystem.pathLimit)
    (other : LastStep) : FileSystem.textError? other (path.descendant names) = none := by
  obtain ⟨noNul, filled, -⟩ := FileSystem.textError?_eq_none_iff.1 fine
  obtain ⟨noNulBelow, filledBelow⟩ := inOrder_descendant noNul filled areNames
  exact FileSystem.textError?_eq_none_iff.2 ⟨noNulBelow, filledBelow, .inr short⟩

/-- Names behind a path whose text is in order give a path that is refused for its length
if it is too long. -/
theorem textError?_descendant_of_long {path : Path} {last : LastStep}
    (fine : FileSystem.textError? last path = none) {names : List String}
    (areNames : ∀ name ∈ names, IsFileName name)
    (long : FileSystem.pathLimit ≤ (path.descendant names).text.utf8ByteSize) :
    FileSystem.textError? .follow (path.descendant names) = some .nameTooLong := by
  obtain ⟨noNul, filled, -⟩ := FileSystem.textError?_eq_none_iff.1 fine
  obtain ⟨noNulBelow, filledBelow⟩ := inOrder_descendant noNul filled areNames
  simp [FileSystem.textError?, noNulBelow, filledBelow, long]

end Path

namespace FileSystem

variable {fs : FileSystem} {root path : Path} {top place : Location} {names : List String}

/-- The names on the way to an item are valid. -/
theorem Tidy.valid_of_kind? {valid : String → Prop} (tidy : fs.Tidy valid) {location : Location}
    (present : fs.kind? location ≠ none) : ∀ name ∈ location, valid name := by
  cases found : fs.item? location with
  | none =>
    rw [kind?, found] at present
    exact absurd rfl present
  | some item => exact Item.Tidy.valid_of_at? tidy found

/-! ## Paths below a root -/

/-- A path that is spelled below a root leads down its names through real
directories. -/
theorem RootAt.leads_spelled (rootAt : fs.RootAt root top) (spells : root.Spells path names)
    (short : ∀ name ∈ names, name.utf8ByteSize ≤ nameLimit)
    (directories : ∀ before, before ≠ [] → before <+: names →
      fs.kind? (top ++ before) = some .directory) :
    ∃ links, links ≤ linkLimit ∧
      Leads fs links (start path fs.workingDirectory) path.texts (top ++ names) := by
  obtain ⟨before, after, links, isTexts, isNames, enough, leads⟩ := rootAt.leads spells
  have looksUp : ∀ name ∈ names, LooksUp name ∧ name.utf8ByteSize ≤ nameLimit :=
    fun name member => ⟨(spells.isName name member).looksUp, short name member⟩
  have moves : after.filter isMove = names.filter isMove := by
    rw [isNames, List.filter_eq_self.2 fun name member => (looksUp name member).1.isMove]
  have down : Leads fs 0 top after (top ++ names) :=
    (leads_down looksUp directories).of_filter_eq moves
  refine ⟨links, enough, ?_⟩
  rw [isTexts]
  exact leads_append_iff.2 ⟨links, 0, top, rfl, leads, down⟩

/-- The texts of a root lead to its directory. -/
theorem RootAt.leads_texts (rootAt : fs.RootAt root top) :
    ∃ links, Leads fs links (start root fs.workingDirectory) root.texts top := by
  obtain ⟨links, -, leads⟩ := leads_of_walk (resolve_eq_ok_iff.1 rootAt.1).2 rootAt.2
  exact ⟨links, leads.of_filter_eq (steps_filter root).symm⟩

/-- A root that is spelled below another one through real directories stands at its
names. -/
theorem RootAt.eq_append (rootAt : fs.RootAt root top) (spells : root.Spells path names)
    (short : ∀ name ∈ names, name.utf8ByteSize ≤ nameLimit)
    (directories : ∀ before, before ≠ [] → before <+: names →
      fs.kind? (top ++ before) = some .directory)
    (pathAt : fs.RootAt path place) : place = top ++ names := by
  obtain ⟨_, -, leads⟩ := rootAt.leads_spelled spells short directories
  obtain ⟨_, leadsThere⟩ := pathAt.leads_texts
  exact leadsThere.unique leads

/-- A root that is spelled below another one, through no link, stands at its names. -/
theorem RootAt.eq_append_of_plain (rootAt : fs.RootAt root top) (spells : root.Spells path names)
    (plain : fs.Plain top names) (pathAt : fs.RootAt path place) : place = top ++ names := by
  by_cases below : names = []
  · subst below
    obtain ⟨before, after, links, isTexts, isNames, -, leads⟩ := rootAt.leads spells
    have leadsAll : Leads fs links (start path fs.workingDirectory) path.texts top := by
      refine leads.of_filter_eq ?_
      rw [isTexts, List.filter_append, isNames, List.append_nil]
    obtain ⟨_, leadsThere⟩ := pathAt.leads_texts
    rw [List.append_nil]
    exact leadsThere.unique leadsAll
  · exact resolve_below rootAt spells below plain (by decide) pathAt.1

/-- Above an item stand only directories. -/
theorem directories_of_present (present : fs.kind? (top ++ names) ≠ none)
    {before : List String} (isBefore : before <+: names) (proper : before ≠ names) :
    fs.kind? (top ++ before) = some .directory := by
  obtain ⟨rest, rfl⟩ := isBefore
  have more : rest ≠ [] := by
    rintro rfl
    exact proper (List.append_nil before).symm
  rw [← List.append_assoc] at present
  exact kind?_of_append more present

/-- A real directory below a root is a root as well, by any path in order that spells its
names. -/
theorem RootAt.of_spells (rootAt : fs.RootAt root top) (spells : root.Spells path names)
    (tidy : fs.Tidy IsFileName) (isDirectory : fs.kind? (top ++ names) = some .directory)
    (fine : textError? .follow path = none) : fs.RootAt path (top ++ names) := by
  have present : fs.kind? (top ++ names) ≠ none := by
    rw [isDirectory]
    exact nofun
  have directories : ∀ before, before ≠ [] → before <+: names →
      fs.kind? (top ++ before) = some .directory := by
    intro before _ isBefore
    by_cases whole : before = names
    · rw [whole]
      exact isDirectory
    · exact directories_of_present present isBefore whole
  have short : ∀ name ∈ names, name.utf8ByteSize ≤ nameLimit := fun name member =>
    (tidy.valid_of_kind? present name (List.mem_append_right _ member)).short
  obtain ⟨links, enough, leads⟩ := rootAt.leads_spelled spells short directories
  refine ⟨resolve_eq_ok_iff.2 ⟨fine, ?_⟩, isDirectory⟩
  exact (leads.of_filter_eq (steps_filter _)).walk_follow enough

/-- A descendant of a root that is a real directory is a root as well, as long as its
path is short enough. -/
theorem RootAt.descendant (rootAt : fs.RootAt root top) (tidy : fs.Tidy IsFileName)
    (isDirectory : fs.kind? (top ++ names) = some .directory)
    (short : (root.descendant names).text.utf8ByteSize < pathLimit) :
    fs.RootAt (root.descendant names) (top ++ names) := by
  have areNames : ∀ name ∈ names, IsFileName name := fun name member =>
    tidy.valid_of_kind? (by rw [isDirectory]; exact nofun) name (List.mem_append_right _ member)
  have spells := root.spells_descendant fun name member => (areNames name member).toIsName
  exact rootAt.of_spells spells tidy isDirectory
    (Path.textError?_descendant (resolve_eq_ok_iff.1 rootAt.1).1 areNames short .follow)

/-- Looking at a descendant of a root below real directories, links kept, gives the
item that stands at its names. -/
theorem RootAt.lookUp_keepLink (rootAt : fs.RootAt root top) (below : names ≠ [])
    (areNames : ∀ name ∈ names, IsFileName name)
    (directories : ∀ before, before <+: names → before ≠ names →
      fs.kind? (top ++ before) = some .directory) {item : Item} :
    fs.lookUp .keepLink (root.descendant names) = .ok item ↔
      textError? .keepLink (root.descendant names) = none ∧
        fs.item? (top ++ names) = some item := by
  obtain ⟨parents, name, rfl⟩ := (List.eq_nil_or_concat names).resolve_left below
  rw [List.concat_eq_append] at below areNames directories ⊢
  have areParents : ∀ parent ∈ parents, IsFileName parent := fun parent member =>
    areNames parent (List.mem_append_left _ member)
  have isName : IsFileName name := areNames name (List.mem_append_right _ List.mem_cons_self)
  have inFront : ∀ before, before <+: parents → fs.kind? (top ++ before) = some .directory := by
    intro before isBefore
    refine directories before (isBefore.trans (List.prefix_append _ _)) ?_
    rintro rfl
    exact absurd isBefore.length_le (by simp)
  have sameStart : start (root.descendant (parents ++ [name])) fs.workingDirectory =
      start (root.descendant parents) fs.workingDirectory := by
    rw [start, start, root.isAbsolute_descendant fun step member => (areNames step member).toIsName,
      root.isAbsolute_descendant fun step member => (areParents step member).toIsName]
  obtain ⟨links, enough, leads⟩ := rootAt.leads_spelled
    (root.spells_descendant fun step member => (areParents step member).toIsName)
    (fun step member => (areParents step member).short) fun before _ => inFront before
  have walked : fs.walk .keepLink linkLimit
      (start (root.descendant (parents ++ [name])) fs.workingDirectory)
        (root.descendant (parents ++ [name])).steps =
      if fs.kind? (top ++ (parents ++ [name])) = none then .error .notFound
      else .ok (top ++ (parents ++ [name])) := by
    have goesOn : [name] ≠ [] ∧ [name] ≠ [""] :=
      ⟨List.cons_ne_nil _ _, fun empty => isName.nonempty (List.cons.inj empty).1⟩
    rw [root.steps_descendant below fun step member => (areNames step member).toIsName,
      ← List.append_assoc, ← root.texts_descendant
        fun step member => (areParents step member).toIsName, sameStart,
      leads.walk enough (by decide) (.inr goesOn), walk_name isName.looksUp, if_neg (by simp),
      isTooLong_eq_false isName.short (by decide), ← List.append_assoc]
    rcases fs.kind? (top ++ parents ++ [name]) with _ | (_ | _ | _) <;> simp
  rw [lookUp_eq_ok_iff]
  simp only [resolve_eq_ok_iff, walked]
  constructor
  · rintro ⟨location, ⟨fine, isLocation⟩, found⟩
    split at isLocation
    next => cases isLocation
    next =>
      cases isLocation
      exact ⟨fine, found⟩
  · rintro ⟨fine, found⟩
    refine ⟨_, ⟨fine, if_neg ?_⟩, found⟩
    simp [kind?, found]

end FileSystem

end RouteAtlas
