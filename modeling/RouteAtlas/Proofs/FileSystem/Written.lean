import RouteAtlas.Proofs.FileSystem.Descendants

/-!
# Writing one file

A path that can be written leads to a file or to a free name of a directory
(`FileSystem.Walks.ends`). Once it is written, that file holds the text and all else is
seen as before (`FileSystem.written_of_write`). So every walk that succeeded goes the same
way again (`FileSystem.Walks.again`), and the walk that has created the file now finds it.

A canonical path names the directory that it leads to: it spells the location, and nothing
but names is behind its first slash (`FileSystem.rootAt_of_canonical`).
-/

set_option autoImplicit false

namespace RouteAtlas

namespace FileSystem

variable {fs other after : FileSystem} {path root : Path} {text : String}
  {here out location top : Location} {last : LastStep} {links : Nat}
  {steps : List String}

/-! ## Where walks end -/

/-- The top is a directory. -/
theorem kind?_nil (fs : FileSystem) : fs.kind? [] = some .directory := rfl

/-- A step up from a directory leads to a directory. -/
theorem kind?_dropLast (isDirectory : fs.kind? here = some .directory) :
    fs.kind? here.dropLast = some .directory := by
  rcases List.eq_nil_or_concat here with rfl | ⟨parent, name, rfl⟩
  · exact isDirectory
  · rw [List.concat_eq_append] at isDirectory ⊢
    rw [List.dropLast_concat]
    exact kind?_of_append (List.cons_ne_nil _ _) (by rw [isDirectory]; exact nofun)

/-- A path starts in a directory. -/
theorem kind?_start (isDirectory : fs.kind? here = some .directory) (path : Path) :
    fs.kind? (start path here) = some .directory := by
  rw [start]
  split
  · exact kind?_nil fs
  · exact isDirectory

/-- The steps of a path have no slash. -/
theorem plain_of_mem_steps {step : String} (member : step ∈ path.steps) :
    '/' ∉ step.toList := by
  have plainText : ∀ text ∈ path.texts, '/' ∉ text.toList := by
    intro text isText
    obtain ⟨piece, isPiece, rfl⟩ := List.mem_map.1 isText
    rw [String.toList_ofList]
    exact Path.not_mem_of_mem_pieces (List.mem_filter.1 isPiece).1
  rw [Path.steps] at member
  split at member
  · rcases List.mem_append.1 member with isText | isLast
    · exact plainText step isText
    · rw [List.mem_singleton.1 isLast]
      exact List.not_mem_nil
  · exact plainText step member

/-- Where a walk ends that was made for something: at a directory or a file, at a free name
of a directory if it may create one, or at a link if it keeps links. -/
inductive Ends (fs : FileSystem) (last : LastStep) (out : Location) : Prop
  | directory (isDirectory : fs.kind? out = some .directory)
  | file (isFile : fs.kind? out = some .file)
  | free (creates : last = .create) (isFree : fs.kind? out = none) (room : fs.HasRoom out)
      (isName : ∀ name ∈ out.getLast?, IsName name)
  | link (keeps : last = .keepLink)

/-- A walk that starts in a directory ends where it may. -/
theorem Walks.ends (walks : Walks fs last links here steps out)
    (isDirectory : fs.kind? here = some .directory) (plain : ∀ step ∈ steps, '/' ∉ step.toList) :
    fs.Ends last out := by
  induction walks with
  | done => exact .directory isDirectory
  | stay _ _ ih => exact ih isDirectory (List.forall_mem_cons.1 plain).2
  | up _ ih => exact ih (kind?_dropLast isDirectory) (List.forall_mem_cons.1 plain).2
  | down _ _ _ isThere _ ih => exact ih isThere (List.forall_mem_cons.1 plain).2
  | file _ _ isFile => exact .file isFile
  | free creates looksUp _ isFree =>
    refine .free creates isFree ⟨_, _, rfl, isDirectory⟩ fun name isLast => ?_
    rw [List.getLast?_concat, Option.mem_some_iff] at isLast
    subst isLast
    exact ⟨looksUp.1, looksUp.2.1, looksUp.2.2, plain _ List.mem_cons_self⟩
  | keep keeps => exact .link keeps
  | jump _ _ _ _ _ _ _ ih =>
    refine ih (kind?_start isDirectory _) fun step member => ?_
    rcases List.mem_append.1 member with inTarget | later
    · exact plain_of_mem_steps inTarget
    · exact (List.forall_mem_cons.1 plain).2 step later

/-- A path is resolved to where a walk may end. -/
theorem ends_of_resolve (isThere : fs.kind? fs.workingDirectory = some .directory)
    (resolved : fs.resolve last path = .ok out) : fs.Ends last out :=
  (Walks.of_walk (resolve_eq_ok_iff.1 resolved).2).ends (kind?_start isThere path)
    fun _ => plain_of_mem_steps

/-! ## Walking again -/

/-- A walk succeeds again where all is kept that was there. If it was to create a file, and
the file is there now, it is found. -/
theorem Walks.again (walks : Walks fs last links here steps out) {again : LastStep}
    (same : last = again ∧ last ≠ .create ∨ last = .create ∧ again = .follow)
    (kept : ∀ location kind, fs.kind? location = some kind → other.kind? location = some kind)
    (created : last = .create → other.kind? out = some .file) :
    Walks other again links here steps out := by
  have sameLimit : ∀ here step, isTooLong again here step = isTooLong last here step := by
    intro here step
    rcases same with ⟨rfl, -⟩ | ⟨rfl, rfl⟩ <;> rfl
  have noCreate : ∀ rest : List String, ¬ (again = .create ∧ rest = [""]) := by
    rintro rest ⟨rfl, -⟩
    rcases same with ⟨rfl, notCreate⟩ | ⟨-, impossible⟩
    · exact notCreate rfl
    · cases impossible
  have sameKeep : again = .keepLink ↔ last = .keepLink := by
    rcases same with ⟨rfl, -⟩ | ⟨rfl, rfl⟩ <;> simp
  induction walks with
  | done => exact .done _ _
  | stay stays _ ih => exact .stay stays (ih created)
  | up _ ih => exact .up (ih created)
  | down looksUp _ short isDirectory _ ih =>
    exact .down looksUp (noCreate _) ((sameLimit _ _).trans short) (kept _ _ isDirectory)
      (ih created)
  | file looksUp short isFile =>
    exact .file looksUp ((sameLimit _ _).trans short) (kept _ _ isFile)
  | free creates looksUp short _ =>
    exact .file looksUp ((sameLimit _ _).trans short) (created creates)
  | keep keeps looksUp short isLink =>
    exact .keep (sameKeep.2 keeps) looksUp ((sameLimit _ _).trans short) (kept _ _ isLink)
  | jump looksUp _ follows short isLink filled _ ih =>
    refine .jump looksUp (noCreate _) ?_ ((sameLimit _ _).trans short) (kept _ _ isLink) filled
      (ih created)
    rwa [sameKeep]

/-! ## Written files -/

/-- A text was written to the file at a location, which may be new. All else is seen as
before. -/
structure Written (fs : FileSystem) (location : Location) (text : String)
    (after : FileSystem) : Prop where
  holds : after.item? location = some (.file text)
  replaced : fs.kind? location = none ∨ fs.kind? location = some .file
  elsewhere : ∀ other, other ≠ location → after.seen? other = fs.seen? other
  workingDirectory : after.workingDirectory = fs.workingDirectory

namespace Written

/-- The written file is a file. -/
theorem isFile (written : fs.Written location text after) : after.kind? location = some .file := by
  rw [kind?, written.holds]
  rfl

/-- Whatever was there is there, with its kind. -/
theorem kept (written : fs.Written location text after) {other : Location} {kind : ItemKind}
    (isKind : fs.kind? other = some kind) : after.kind? other = some kind := by
  by_cases same : other = location
  · subst same
    rcases written.replaced with isFree | wasFile
    · rw [isFree] at isKind
      cases isKind
    · rw [written.isFile, ← wasFile, isKind]
  · rw [kind?_congr (written.elsewhere other same), isKind]

/-- What is new is the file. -/
theorem eq_of_new (written : fs.Written location text after) {other : Location}
    (isFree : fs.kind? other = none) (isThere : after.kind? other ≠ none) : other = location := by
  refine Decidable.byContradiction fun different => isThere ?_
  rw [kind?_congr (written.elsewhere other different), isFree]

/-- No directory comes with the file. -/
theorem directory (written : fs.Written location text after) {other : Location}
    (isDirectory : after.kind? other = some .directory) : fs.kind? other = some .directory := by
  have different : other ≠ location := by
    rintro rfl
    rw [written.isFile] at isDirectory
    cases isDirectory
  rwa [← kind?_congr (written.elsewhere other different)]

/-- A path that leads somewhere leads there again. -/
theorem resolve (written : fs.Written location text after) (notCreate : last ≠ .create)
    (resolved : fs.resolve last path = .ok out) : after.resolve last path = .ok out := by
  obtain ⟨fine, walked⟩ := resolve_eq_ok_iff.1 resolved
  refine resolve_eq_ok_iff.2 ⟨fine, walk_eq_ok_iff.2 ?_⟩
  rw [written.workingDirectory]
  exact (Walks.of_walk walked).again (.inl ⟨rfl, notCreate⟩) (fun _ _ => written.kept)
    fun creates => absurd creates notCreate

/-- A path keeps its canonical spelling. -/
theorem canonical (written : fs.Written location text after)
    (canonical : fs.canonical path = .ok root) : after.canonical path = .ok root := by
  obtain ⟨out, resolved, isRoot⟩ := bind_eq_ok_iff.1 canonical
  exact bind_eq_ok_iff.2 ⟨out, written.resolve nofun resolved, isRoot⟩

/-- A root keeps its directory. -/
theorem rootAt (written : fs.Written location text after) (rootAt : fs.RootAt root top) :
    after.RootAt root top :=
  rootAt.mono (fun _ _ => written.kept) written.workingDirectory

/-- A path that was to create the file leads to it. -/
theorem resolve_created (written : fs.Written location text after)
    (resolved : fs.resolve .create path = .ok location) :
    after.resolve .follow path = .ok location := by
  obtain ⟨fine, walked⟩ := resolve_eq_ok_iff.1 resolved
  refine resolve_eq_ok_iff.2 ⟨textError?_eq_none_iff.2 ?_, walk_eq_ok_iff.2 ?_⟩
  · simpa using textError?_eq_none_iff.1 fine
  · rw [written.workingDirectory]
    exact (Walks.of_walk walked).again (.inr ⟨rfl, rfl⟩) (fun _ _ => written.kept)
      fun _ => written.isFile

/-- A file that holds the text already is left alone. -/
theorem of_read (read : fs.read path = .ok text) :
    ∃ location, fs.resolve .follow path = .ok location ∧ fs.Written location text fs := by
  obtain ⟨item, found, isText⟩ := bind_eq_ok_iff.1 read
  obtain ⟨location, resolved, isItem⟩ := lookUp_eq_ok_iff.1 found
  cases item with
  | file contents =>
    cases isText
    refine ⟨location, resolved, isItem, .inr ?_, fun _ _ => rfl, rfl⟩
    rw [kind?, isItem]
    rfl
  | link => cases isText
  | directory => cases isText

/-- The written file is read back. -/
theorem read (written : fs.Written location text after)
    (resolved : after.resolve .follow path = .ok location) : after.read path = .ok text := by
  have found := lookUp_eq_ok_iff.2 ⟨location, resolved, written.holds⟩
  rw [FileSystem.read, found]
  rfl

end Written

/-- Nothing is seen where nothing is. -/
theorem seen?_eq_none_iff : fs.seen? location = none ↔ fs.kind? location = none := by
  rw [kind?_eq_map_seen?, Option.map_eq_none_iff]

/-- A file that is put where a file was or nothing is all that is seen to change. -/
theorem written_place (room : fs.HasRoom location)
    (replaced : fs.kind? location = none ∨ fs.kind? location = some .file) (text : String) :
    fs.Written location text (fs.place location (.file text)) where
  holds := by
    have placed := item?_place room (.file text) []
    rwa [List.append_nil, Item.at?_nil] at placed
  replaced := replaced
  elsewhere other different := by
    by_cases below : location <+: other
    · obtain ⟨rest, rfl⟩ := below
      obtain ⟨name, names, rfl⟩ := List.exists_cons_of_ne_nil
        fun none : rest = [] => different (by rw [none, List.append_nil])
      have wasFree : fs.kind? (location ++ name :: names) = none := by
        refine Decidable.byContradiction fun present => ?_
        rw [kind?_of_append (List.cons_ne_nil name names) present] at replaced
        simp at replaced
      rw [seen?_eq_none_iff.2 wasFree, seen?, item?_place room]
      rfl
    · exact seen?_place_apart room _ below
  workingDirectory := place_workingDirectory fs location _

/-- An item takes the place of one that was placed there before. -/
theorem place_place (fs : FileSystem) (location : Location) (item other : Item) :
    (fs.place location other).place location item = fs.place location item := by
  unfold place
  cases location.getLast? with
  | none => rfl
  | some name => simp only [Slot.editAt_editAt, Slot.put_put]

/-- To write a file is to open it and to put the text into it. -/
theorem write_eq_open (fs : FileSystem) (path : Path) (text : String) :
    fs.write path text =
      (fs.openFile path).map fun opened => opened.1.putText opened.2 text := by
  rw [write, openFile]
  cases fs.resolve .create path with
  | error => rfl
  | ok location =>
    have rewritten := place_place fs location (.file text) (.file "")
    simp only [bind, Except.bind]
    split <;> simp [Except.map, putText, rewritten]

/-- A file that can be written is written, and its path leads to it. -/
theorem written_of_write (isThere : fs.kind? fs.workingDirectory = some .directory)
    (tidy : fs.Tidy IsName) (wrote : fs.write path text = .ok after) :
    ∃ location, after.resolve .follow path = .ok location ∧ fs.Written location text after ∧
      after.Tidy IsName := by
  obtain ⟨location, resolved, notDirectory, rfl⟩ := write_eq_ok_iff.1 wrote
  obtain ⟨room, replaced, isName⟩ : fs.HasRoom location ∧
      (fs.kind? location = none ∨ fs.kind? location = some .file) ∧
      ∀ name ∈ location.getLast?, IsName name := by
    cases ends_of_resolve isThere resolved with
    | directory isDirectory => exact absurd isDirectory notDirectory
    | file isFile =>
      have present : fs.kind? location ≠ none := by
        rw [isFile]
        exact nofun
      refine ⟨hasRoom_of_present ?_ present, .inr isFile, fun name isLast =>
        tidy.valid_of_kind? present name (List.mem_of_getLast? isLast)⟩
      rintro rfl
      exact notDirectory (kind?_nil fs)
    | free _ isFree room isName => exact ⟨room, .inl isFree, isName⟩
    | link keeps => cases keeps
  have written := written_place room replaced text
  exact ⟨location, written.resolve_created resolved, written, tidy.place isName (.file text)⟩

/-! ## Canonical paths -/

/-- The slash leads to the top. -/
theorem rootAt_slash (fs : FileSystem) : fs.RootAt ⟨"/"⟩ [] := ⟨rfl, rfl⟩

/-- The path of a location spells its names behind a slash. -/
theorem pathOf_eq_descendant (areNames : ∀ name ∈ location, IsName name) :
    pathOf location = Path.descendant ⟨"/"⟩ location := by
  cases location with
  | nil => rfl
  | cons name rest =>
    obtain ⟨isName, areRest⟩ := List.forall_mem_cons.1 areNames
    have first : (Path.child ⟨"/"⟩ name).text = "/" ++ name :=
      Path.text_child_of_endsInSlash isName rfl
    have isText : (Path.descendant ⟨"/"⟩ (name :: rest)).text =
        "/" ++ "/".intercalate (name :: rest) := by
      rw [Path.descendant_cons, Path.text_descendant (Path.text_child_ne_empty _ isName)
        (Path.endsInSlash_child _ isName) areRest, first]
      cases rest <;> simp [String.append_assoc]
    exact (congrArg Path.mk isText).symm

/-- The canonical path of a location below another is spelled behind that of the other. -/
theorem pathOf_append {names : List String} (areNames : ∀ name ∈ top ++ names, IsName name) :
    pathOf (top ++ names) = (pathOf top).descendant names := by
  rw [pathOf_eq_descendant areNames, Path.descendant_append,
    pathOf_eq_descendant fun name member => areNames name (List.mem_append_left names member)]

/-- The canonical path of a directory is the path of the location that it leads to. -/
theorem rootAt_of_canonical (isThere : fs.kind? fs.workingDirectory = some .directory)
    (tidy : fs.Tidy IsName) (canonical : fs.canonical path = .ok root)
    (rootAt : fs.RootAt root top) : root = pathOf top := by
  obtain ⟨location, resolved, isRoot⟩ := bind_eq_ok_iff.1 canonical
  cases isRoot
  obtain ⟨kind, isKind, noLink⟩ : ∃ kind, fs.kind? location = some kind ∧
      ∀ target, kind ≠ .link target := by
    cases ends_of_resolve isThere resolved with
    | directory isDirectory => exact ⟨_, isDirectory, nofun⟩
    | file isFile => exact ⟨_, isFile, nofun⟩
    | free creates => cases creates
    | link keeps => cases keeps
  have areNames : ∀ name ∈ location, IsName name :=
    tidy.valid_of_kind? (by rw [isKind]; exact nofun)
  have plain : fs.Plain [] location := .of_present isKind noLink
  rw [pathOf_eq_descendant areNames] at rootAt
  have spells := Path.spells_descendant ⟨"/"⟩ areNames
  rw [(rootAt_slash fs).eq_append_of_plain spells plain rootAt]
  rfl

end FileSystem

end RouteAtlas
