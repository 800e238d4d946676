import RouteAtlas.Proofs.FileSystem.Straight

/-!
# Renames below a root

An item that is renamed stands, with all it holds, where it was moved to, and what is not
below there loses what stood below the old place (`FileSystem.Moved`). It may replace
something, but nothing that holds a file, and a directory replaces no file. This is so
for every rename between two paths that are spelled below a root and have real
directories above their last names (`FileSystem.RenamesBelow.moved`); the last names
themselves may be links, which are moved or replaced like files.

The directories above the new place are made first if they are missing, so the steps are
looked at in the file system that has grown.
-/

set_option autoImplicit false

namespace RouteAtlas

/-- The characters between slashes are characters of the text. -/
theorem Path.mem_of_mem_pieces {text piece : List Char} (isPiece : piece ∈ pieces text) {c : Char}
    (member : c ∈ piece) : c ∈ text := by
  induction text generalizing piece with
  | nil =>
    rw [pieces, List.mem_singleton] at isPiece
    rwa [isPiece] at member
  | cons first rest ih =>
    rw [pieces] at isPiece
    split at isPiece
    next =>
      rcases List.mem_cons.1 isPiece with rfl | later
      · cases member
      · exact List.mem_cons_of_mem _ (ih later member)
    next =>
      obtain ⟨piece, others, isPieces⟩ := List.exists_cons_of_ne_nil (pieces_ne_nil rest)
      rw [isPieces] at isPiece ih
      rcases List.mem_cons.1 isPiece with rfl | later
      · rcases List.mem_cons.1 member with rfl | inPiece
        · exact List.mem_cons_self
        · exact List.mem_cons_of_mem _ (ih List.mem_cons_self inPiece)
      · exact List.mem_cons_of_mem _ (ih (List.mem_cons_of_mem _ later) member)

namespace FileSystem

variable {fs other grown : FileSystem} {root path : Path} {top : Location}
  {names old new : List String} {name : String} {item : Item}

/-! ## Directories that are made -/

/-- A step of a path in order can name a new directory. -/
theorem isFileName_of_mem_texts {last : LastStep} (fine : textError? last path = none)
    (member : name ∈ path.texts) (looksUp : LooksUp name)
    (short : name.utf8ByteSize ≤ nameLimit) : IsFileName name := by
  obtain ⟨piece, isPiece, rfl⟩ := List.mem_map.1 member
  have inText := (List.mem_filter.1 isPiece).1
  refine ⟨⟨looksUp.1, looksUp.2.1, looksUp.2.2, ?_⟩, fun isNul => ?_, short⟩
  · rw [String.toList_ofList]
    exact Path.not_mem_of_mem_pieces inText
  · rw [String.toList_ofList] at isNul
    exact (textError?_eq_none_iff.1 fine).1 (Path.mem_of_mem_pieces inText isNul)

/-- A file system stays tidy where directories are made along names that are valid. -/
theorem makeAlong_tidy {valid : String → Prop} (tidy : fs.Tidy valid) {here : Location}
    {steps : List String} (areValid : ∀ step ∈ steps, LooksUp step →
      step.utf8ByteSize ≤ nameLimit → valid step)
    (made : fs.makeAlong here steps = .ok other) : other.Tidy valid := by
  induction steps generalizing fs here with
  | nil =>
    cases made
    exact tidy
  | cons step rest ih =>
    have later := fun other member => areValid other (List.mem_cons_of_mem step member)
    rw [makeAlong] at made
    split at made
    next => exact ih tidy later made
    next missing =>
      split at made
      next => cases made
      next =>
        -- Only a name can be missing: other steps stay or go up.
        have looksUp : LooksUp step := by
          refine ⟨?_, ?_, ?_⟩
          · rintro rfl
            rw [walk_stay (.inl rfl), walk_stay (.inl rfl), walk_nil] at missing
            cases missing
          · rintro rfl
            rw [walk_stay (.inr rfl), walk_stay (.inl rfl), walk_nil] at missing
            cases missing
          · rintro rfl
            rw [walk_up, walk_stay (.inl rfl), walk_nil] at missing
            cases missing
        rw [walk_name looksUp, if_neg (by simp)] at missing
        split at missing
        next => cases missing
        next notLong =>
          have short : step.utf8ByteSize ≤ nameLimit := by
            simpa [isTooLong] using notLong
          refine ih (tidy.place (fun name isLast => ?_) .nil) later made
          rw [List.getLast?_concat] at isLast
          cases isLast
          exact areValid step List.mem_cons_self looksUp short
    next => cases made

/-- Growth brings no files and no links. -/
theorem Grows.kind?_iff (grows : Grows fs grown) {location : Location} {kind : ItemKind}
    (notDirectory : kind ≠ .directory) :
    grown.kind? location = some kind ↔ fs.kind? location = some kind :=
  ⟨fun isKind => grows.onlyDirectories location kind isKind notDirectory,
    grows.kept location kind⟩

/-! ## Paths of renamed items -/

/-- Only the path of a directory may end in a slash. -/
theorem not_endsInSlash_of_admitSlash (admitted : admitSlash path item = .ok ())
    (notDirectory : item.kind ≠ .directory) : ¬ path.endsInSlash = true := by
  intro slash
  cases item with
  | directory slots => exact notDirectory rfl
  | file contents => simp [admitSlash, slash] at admitted
  | link target => simp [admitSlash, slash] at admitted

/-- Where the parents of a path below a root are made, with no link above its last name,
the directory of that name is there afterwards. -/
theorem makeParents_above (rootAt : fs.RootAt root top) (spells : root.Spells path names)
    (below : names ≠ []) (isLast : path.texts.getLast? = some name) (looksUp : LooksUp name)
    (plain : fs.Plain top names.dropLast) (made : fs.makeParents path = .ok grown) :
    Grows fs grown ∧ grown.kind? (top ++ names.dropLast) = some .directory := by
  obtain ⟨before, parents, links, isTexts, rfl, enough, leads⟩ :=
    rootAt.leads_named spells below isLast looksUp
  rw [makeParents, isTexts, ← List.append_assoc, List.dropLast_concat,
    makeAlong_of_leads leads enough] at made
  rw [List.dropLast_concat] at plain ⊢
  obtain ⟨grows, directories⟩ := makeAlong_plain rfl
    (fun name member => spells.isName name (List.mem_append_left _ member)) rootAt.2 plain made
  exact ⟨grows, directories _ List.prefix_rfl⟩

/-! ## Moves -/

/-- What an item may replace holds no file below it, and is no file if the item is a
directory. -/
theorem replaced_of_admitRename {source target rest : Location}
    (found : fs.item? source = some item) (admitted : fs.admitRename source target = .ok ())
    (isFile : fs.kind? (target ++ rest) = some .file) : rest = [] ∧ item.kind ≠ .directory := by
  rw [admitRename, found] at admitted
  cases rest with
  | nil =>
    rw [List.append_nil] at isFile
    obtain ⟨replaced, isThere, isKind⟩ := Option.map_eq_some_iff.1 isFile
    refine ⟨rfl, fun isDirectory => ?_⟩
    obtain ⟨slots, rfl⟩ := Item.kind_eq_directory_iff.1 isDirectory
    rw [isThere] at admitted
    cases replaced with
    | file => cases admitted
    | link => cases isKind
    | directory => cases isKind
  | cons first others =>
    have isDirectory :=
      kind?_of_append (List.cons_ne_nil first others) (by rw [isFile]; exact nofun)
    obtain ⟨slots, isThere⟩ := kind?_eq_directory_iff.1 isDirectory
    have notEmpty : slots ≠ [] := by
      rintro rfl
      rw [kind?_append isThere] at isFile
      cases isFile
    rw [isThere] at admitted
    cases item <;> simp [notEmpty] at admitted

/-- An item is moved, below `top`, from the end of the old names to that of the new
ones. -/
structure Moved (fs other : FileSystem) (top : Location) (old new : List String) (item : Item) :
    Prop where
  source : ∀ kind, kind ≠ .directory → (fs.kind? (top ++ old) = some kind ↔ item.kind = kind)
  inside : ∀ rest, other.item? (top ++ new ++ rest) = item.at? rest
  elsewhere : ∀ others, ¬ new <+: others → (other.kind? (top ++ others) = some .file ↔
    fs.kind? (top ++ others) = some .file ∧ ¬ old <+: others)
  replaced : ∀ rest, fs.kind? (top ++ new ++ rest) = some .file → ¬ old <+: new ++ rest →
    rest = [] ∧ item.kind ≠ .directory
  tidy : other.Tidy IsFileName

/-- An item that is moved below a root to a name of a directory. -/
theorem Moved.of_move (tidy : fs.Tidy IsFileName) (below : old ≠ [])
    (found : fs.item? (top ++ old) = some item) (room : fs.HasRoom (top ++ new))
    (isFileName : ∀ name ∈ new.getLast?, IsFileName name) (belowNew : new ≠ [])
    (moved : fs.move (top ++ old) (top ++ new) = .ok other) : fs.Moved other top old new item := by
  have isKind : fs.kind? (top ++ old) = some item.kind := by
    rw [kind?, found]
    rfl
  have source : ∀ kind, kind ≠ .directory →
      (fs.kind? (top ++ old) = some kind ↔ item.kind = kind) := fun kind _ => by
    rw [isKind, Option.some.injEq]
  rcases move_cases found moved with ⟨same, rfl⟩ | ⟨notAbove, admitted, rfl⟩
  · obtain rfl := List.append_cancel_left same
    refine ⟨source, fun rest => ?_, fun others notBelow => ?_, fun rest _ stays => ?_, tidy⟩
    · rw [item?_append, found, Option.bind_some]
    · exact (and_iff_left notBelow).symm
    · exact absurd (List.prefix_append _ rest) stays
  · have roomOld : fs.HasRoom (top ++ old) :=
      hasRoom_of_present (by simp [below]) (by rw [isKind]; exact Option.some_ne_none _)
    have roomNew : (fs.clear (top ++ old)).HasRoom (top ++ new) := by
      obtain ⟨parent, last, isPlace, isDirectory⟩ := room
      refine ⟨parent, last, isPlace, ?_⟩
      rw [kind?_clear roomOld, if_neg, isDirectory]
      rintro above
      exact notAbove (by rw [isPlace]; exact above.trans (List.prefix_append _ _))
    refine ⟨source, item?_place roomNew item, fun others notBelow => ?_,
      fun rest isFile _ => replaced_of_admitRename found admitted isFile, ?_⟩
    · rw [kind?_place_apart roomNew item
        fun inside => notBelow ((List.prefix_append_right_inj top).1 inside), kind?_clear roomOld]
      simp only [List.prefix_append_right_inj]
      split
      next gone => exact iff_of_false (Option.some_ne_none _).symm fun kept => kept.2 gone
      next stays => exact (and_iff_left stays).symm
    · refine (tidy.clear _).place (fun name isLast => isFileName name ?_)
        (Item.Tidy.of_at? tidy found)
      rwa [List.getLast?_append_of_ne_nil _ belowNew] at isLast

/-- Directories that were made before do not show in a move. -/
theorem Grows.moved (grows : Grows fs grown) (moved : grown.Moved other top old new item) :
    fs.Moved other top old new item where
  source kind notDirectory := by
    rw [← grows.kind?_iff notDirectory]
    exact moved.source kind notDirectory
  inside := moved.inside
  elsewhere others notBelow := by
    rw [moved.elsewhere others notBelow, grows.kind?_iff (by simp)]
  replaced rest isFile := moved.replaced rest (grows.kept _ _ isFile)
  tidy := moved.tidy

/-- A rename between two paths strictly below a root that the file system accepts. No link
stands above the last names of the paths; missing directories are made there. -/
structure RenamesBelow (fs : FileSystem) (root : Path) (top : Location) (source target : Path)
    (old new : List String) (other : FileSystem) : Prop where
  spellsSource : root.Spells source old
  spellsTarget : root.Spells target new
  belowSource : old ≠ []
  belowTarget : new ≠ []
  plainSource : fs.Plain top old.dropLast
  plainTarget : fs.Plain top new.dropLast
  applied : fs.apply (.rename source target) = .ok other

/-- A rename below a root moves an item between the names of the paths. The new path is in
order, and it ends in its name unless a directory was moved. -/
theorem RenamesBelow.moved {source target : Path}
    (renames : fs.RenamesBelow root top source target old new other) (tidy : fs.Tidy IsFileName)
    (rootAt : fs.RootAt root top) :
    ∃ item, fs.Moved other top old new item ∧ textError? .keepLink target = none ∧
      (item.kind = .directory ∨ target.steps.getLast? = new.getLast?) := by
  obtain ⟨spellsOld, spellsNew, belowOld, belowNew, plainOld, plainNew, renamed⟩ := renames
  obtain ⟨grown, made, renamed⟩ := bind_eq_ok_iff.1 renamed
  obtain ⟨⟨location, item⟩, isItem, renamed⟩ := bind_eq_ok_iff.1 renamed
  obtain ⟨_, slash, renamed⟩ := bind_eq_ok_iff.1 renamed
  obtain ⟨place, isPlace, moved⟩ := bind_eq_ok_iff.1 renamed
  obtain ⟨name, -, fine, isLast, looksUp, short, -⟩ := entry_eq_ok isPlace
  have isNew : new.getLast? = some name := by
    obtain ⟨_, parents, _, -, rfl, -⟩ := rootAt.leads_named spellsNew belowNew isLast looksUp
    exact List.getLast?_concat
  obtain ⟨grows, isParent⟩ :=
    makeParents_above rootAt spellsNew belowNew isLast looksUp plainNew made
  have grownAt := grows.rootAt rootAt
  obtain rfl := entry_below grownAt spellsNew belowNew (grows.plain plainNew) isPlace
  obtain ⟨rfl, isFound⟩ := entryItem_below grownAt spellsOld belowOld (grows.plain plainOld) isItem
  have room : grown.HasRoom (top ++ new) := by
    refine ⟨top ++ new.dropLast, name, ?_, isParent⟩
    rw [List.append_assoc, List.dropLast_append_getLast? name isNew]
  have valid : ∀ name ∈ new.getLast?, IsFileName name := by
    rw [isNew]
    rintro _ ⟨⟩
    exact isFileName_of_mem_texts fine (List.mem_of_getLast? isLast) looksUp short
  have tidyGrown : grown.Tidy IsFileName := makeAlong_tidy tidy
    (fun step member => isFileName_of_mem_texts fine (List.dropLast_subset _ member)) made
  refine ⟨item, grows.moved (.of_move tidyGrown belowOld isFound room valid belowNew moved), fine,
    Decidable.or_iff_not_imp_left.2 fun notDirectory => ?_⟩
  rw [Path.steps, if_neg (not_endsInSlash_of_admitSlash slash notDirectory), isLast, isNew]

/-- The spelling of the new path does not matter to a rename, as long as its texts are the
same and it is in order. -/
theorem apply_rename_congr {source target spelled : Path} (sameTexts : spelled.texts = target.texts)
    (sameFront : spelled.isAbsolute = target.isAbsolute)
    (sameEnd : spelled.endsInSlash = target.endsInSlash)
    (fine : textError? .keepLink target = none)
    (fineSpelled : textError? .keepLink spelled = none) :
    fs.apply (.rename source spelled) = fs.apply (.rename source target) := by
  have sameParents : fs.makeParents spelled = fs.makeParents target := by
    rw [makeParents, makeParents, start, start, sameTexts, sameFront]
  have sameEntry : ∀ fs : FileSystem, fs.entry spelled = fs.entry target := fun fs => by
    rw [entry, entry, start, start, sameTexts, sameFront, fine, fineSpelled]
  have sameSlash : admitSlash spelled = admitSlash target := by
    funext item
    cases item <;> simp only [admitSlash, sameEnd]
  simp only [apply, sameParents, sameEntry, sameSlash]

end FileSystem

end RouteAtlas
