import RouteAtlas.Proofs.FileTree.Scanner
import RouteAtlas.Proofs.FileTree.Valid

/-!
# What a scan finds

A scan of a directory succeeds exactly if every directory that it enters can be opened
by its path (`FileSystem.scan_succeeds_iff`). It then finds the files on offer and no
others, each once, in the order in which operating systems sort names: byte by byte, one
name after the other. The folders of the tree are the root and what stands above a file.

Two things keep a scan from succeeding: a path that grows too long, and a name whose bytes
are no text (`FileSystem.scan_fails_for_long_path_and_lossy_name`). All the rest is about
file systems whose names are texts. There the order of the listings and the number of
workers make no difference (`FileSystem.scanWith_eq_scan`).
-/

set_option autoImplicit false

namespace RouteAtlas

variable {patterns : List String}

/-! ## Directories on the way -/

/-- What is out of reach is a directory, and nothing on the way to it is ignored. -/
theorem Item.directory_of_outOfReach {valid : String → Prop} {item : Item}
    (tidy : item.Tidy valid) {path : Path} {location : Location}
    (member : location ∈ item.outOfReach patterns path) :
    (∀ name ∈ location, isIgnored patterns name = false) ∧
      (item.at? location).map Item.kind = some .directory := by
  induction location generalizing item path with
  | nil =>
    cases item with
    | file => cases member
    | link => cases member
    | directory slots => exact ⟨nofun, rfl⟩
  | cons name rest ih =>
    cases item with
    | file => cases member
    | link => cases member
    | directory slots =>
      rw [Item.outOfReach] at member
      split at member
      next => cases List.mem_singleton.1 member
      next =>
        obtain ⟨slot, isSlot, notIgnored, below, isBelow, same⟩ := Slot.mem_outOfReach member
        obtain ⟨rfl, rfl⟩ := List.cons.inj same
        obtain ⟨noneIgnored, isDirectory⟩ := ih (tidy.items slot isSlot) isBelow
        refine ⟨List.forall_mem_cons.2 ⟨notIgnored, noneIgnored⟩, ?_⟩
        rw [Item.at?_cons, Slot.find?_of_mem tidy.distinct_names isSlot]
        exact isDirectory

namespace FileSystem

variable {fs : FileSystem} {root : Path} {top : Location}

/-- Whether every directory below a root on whose way nothing is ignored can be opened
by the path that is spelled behind the root. -/
def Opens (fs : FileSystem) (patterns : List String) (root : Path) (top : Location) : Prop :=
  ∀ names, (∀ name ∈ names, isIgnored patterns name = false) →
    fs.kind? (top ++ names) = some .directory →
    ∃ slots, fs.lookUp .follow (root.descendant names) = .ok (.directory slots)

/-- The path of an item that is found is short enough. -/
theorem short_of_lookUp {path : Path} {item : Item} (found : fs.lookUp .follow path = .ok item) :
    path.text.utf8ByteSize < pathLimit := by
  obtain ⟨location, isLocation, -⟩ := lookUp_eq_ok_iff.1 found
  have inOrder := textError?_eq_none_iff.1 (resolve_eq_ok_iff.1 isLocation).1
  exact inOrder.2.2.resolve_left (by decide)

/-- A scan succeeds if the path of every directory on whose way nothing is ignored is
short enough. -/
theorem scan_of_short {valid : String → Prop} (tidy : fs.Tidy valid) (rootAt : fs.RootAt root top)
    (short : ∀ names, (∀ name ∈ names, isIgnored patterns name = false) →
      fs.kind? (top ++ names) = some .directory →
      (root.descendant names).text.utf8ByteSize < pathLimit) :
    ∃ tree, fs.scan patterns root = .ok tree := by
  obtain ⟨slots, found, isRoot⟩ := rootAt.lookUp_follow
  have reached : Item.outOfReach patterns root (.directory slots) = [] := by
    rw [List.eq_nil_iff_forall_not_mem]
    intro location member
    have tooLong := Item.pathLimit_le_of_outOfReach patterns root _ location member
    obtain ⟨noneIgnored, isDirectory⟩ :=
      Item.directory_of_outOfReach (Item.Tidy.of_at? tidy found) member
    rw [← kind?_append found] at isDirectory
    exact absurd (short location noneIgnored isDirectory) (Nat.not_lt.2 tooLong)
  exact ⟨_, scan_eq_ok_iff.2 ⟨slots, isRoot, reached, rfl⟩⟩

/-- A scan succeeds exactly if every directory that it enters can be opened. -/
theorem scan_succeeds_iff (tidy : fs.Tidy IsFileName) (rootAt : fs.RootAt root top) :
    (∃ tree, fs.scan patterns root = .ok tree) ↔ fs.Opens patterns root top := by
  constructor
  · rintro ⟨tree, scanned⟩ names noneIgnored isDirectory
    have short := short_of_scan rootAt.1 scanned noneIgnored isDirectory
    obtain ⟨slots, -, found⟩ := (rootAt.descendant tidy isDirectory short).lookUp_follow
    exact ⟨slots, found⟩
  · intro opens
    refine scan_of_short tidy rootAt fun names noneIgnored isDirectory => ?_
    obtain ⟨inner, opened⟩ := opens names noneIgnored isDirectory
    exact short_of_lookUp opened

/-! ## Lists of files -/

/-- Lists of names are in the order of their bytes, name by name. -/
theorem map_bytes_lt {names others : List String} (less : names < others) :
    names.map Text.bytes < others.map Text.bytes := by
  induction names generalizing others with
  | nil =>
    cases others with
    | nil => exact absurd less (List.lt_irrefl [])
    | cons other rest => exact List.nil_lt_cons _ _
  | cons name names ih =>
    cases others with
    | nil => exact absurd less (List.not_lt_nil _)
    | cons other rest =>
      rw [List.map_cons, List.map_cons, List.cons_lt_cons_iff]
      rcases List.cons_lt_cons_iff.1 less with first | ⟨rfl, later⟩
      · exact .inl (Text.bytes_lt_of_lt first)
      · exact .inr ⟨rfl, ih later⟩

/-- A scan succeeds exactly if every directory that it enters can be opened, by however
many workers it is done. The files of the tree are then those that the directory of the
root offers, in increasing order of their names as bytes; their ids are the names joined
with slashes, and their paths are spelled behind that of the root. The folders of the tree
are the root and the proper ancestors of these files. -/
theorem scan_finds_entry_points (fs : FileSystem) (workers : Workers) (patterns : List String)
    (root : Path) (top : Location) (tidy : fs.Tidy IsFileName) (rootAt : fs.RootAt root top) :
    ((∃ tree, fs.scanWith workers patterns root = .ok tree) ↔ fs.Opens patterns root top) ∧
    ∀ tree, fs.scanWith workers patterns root = .ok tree →
      ∃ found : List (List String),
        (∀ names, names ∈ found ↔ fs.Offers patterns top names) ∧
        found.Pairwise (fun names others => names.map Text.bytes < others.map Text.bytes) ∧
        tree.files.map (·.id) = found.map "/".intercalate ∧
        tree.files.map (·.path) = found.map root.descendant ∧
        (tree.files.map (·.id)).Nodup ∧
        ∀ label, label ∈ tree.folders.map (·.label) ↔
          ∃ names, label = (Folder.root root).label.descendant names ∧
            (names = [] ∨ ∃ rest, rest ≠ [] ∧ fs.Offers patterns top (names ++ rest)) := by
  rw [scanWith_eq_scan tidy]
  refine ⟨scan_succeeds_iff tidy rootAt, ?_⟩
  intro tree scanned
  obtain ⟨label, canonical, records⟩ := scan_records tidy rootAt.1 scanned
  have tidyNames : fs.Tidy IsName := tidy.mono fun _ isFileName => isFileName.toIsName
  have named := (valid_of_scan tidyNames scanned).fit.isNamed
  refine ⟨tree.fileNames, ?_, ?_, ?_, ?_, named.nodup_ids, ?_⟩
  · intro names
    rw [named.mem_fileNames_iff, records]
  · exact named.pairwise_fileNames.imp map_bytes_lt
  · rw [named.derived.map_files, label]
    refine List.map_congr_left fun names member => ?_
    exact idBelow_empty (named.areNames_of_mem member).2
  · rw [canonical.files_eq, List.map_map, label]
    refine List.map_congr_left fun names _ => ?_
    exact Label.path_descendant _ names
  · intro own
    rw [canonical.mem_labels_folders_iff, label]
    simp only [records]

/-- A link, an ignored directory and one without entry points are passed over, and the
files come in another order than the directory lists them. -/
theorem scan_finds_entry_points_listed :
    let fs : FileSystem := ⟨[⟨"app", .directory [⟨"z.entrypoint.js", .file ""⟩,
      ⟨"lib", .directory [⟨"x.entrypoint.js", .file ""⟩]⟩, ⟨"out", .link ⟨"b"⟩⟩,
      ⟨"b", .directory [⟨"y.entrypoint.ts", .file ""⟩]⟩, ⟨"c", .directory []⟩]⟩], []⟩
    fs.Tidy IsFileName ∧ fs.RootAt ⟨"app"⟩ ["app"] ∧ fs.Opens ["lib"] ⟨"app"⟩ ["app"] ∧
      ∃ tree, fs.scanWith (.lastFirst 4) ["lib"] ⟨"app"⟩ = .ok tree ∧
        tree.files.map (·.id) = ["b/y.entrypoint.ts", "z.entrypoint.js"] ∧
        ∃ found : List (List String),
          (∀ names, names ∈ found ↔ fs.Offers ["lib"] ["app"] names) ∧
          found.map "/".intercalate = ["b/y.entrypoint.ts", "z.entrypoint.js"] := by
  intro fs
  have tidy : fs.Tidy IsFileName := by
    refine .single (by decide) (.cons (by decide) (by decide) (.file "") ?_)
    refine .cons (by decide) (by decide) (.single (by decide) (.file "")) ?_
    refine .cons (by decide) (by decide) (.link ⟨"b"⟩) ?_
    exact .cons (by decide) (by decide) (.single (by decide) (.file "")) (.single (by decide) .nil)
  have rootAt : fs.RootAt ⟨"app"⟩ ["app"] := by
    constructor <;> decide +kernel
  have checked : (fs.scanWith (.lastFirst 4) ["lib"] ⟨"app"⟩).map (·.files.map (·.id)) =
      .ok ["b/y.entrypoint.ts", "z.entrypoint.js"] := by
    rw [scanWith_eq_scan tidy]
    decide +kernel
  obtain ⟨tree, scanned, ids⟩ := map_eq_ok_iff.1 checked
  obtain ⟨opens, finds⟩ :=
    scan_finds_entry_points fs (.lastFirst 4) ["lib"] ⟨"app"⟩ ["app"] tidy rootAt
  obtain ⟨found, offered, -, areIds, -⟩ := finds tree scanned
  exact ⟨tidy, rootAt, opens.1 ⟨tree, scanned⟩, tree, scanned, ids, found, offered,
    areIds.symm.trans ids⟩

/-- A scan fails where the path of a directory grows too long, and where the bytes of its
name are no text: the path that is spelled with the text they are read as leads nowhere. -/
theorem scan_fails_for_long_path_and_lossy_name :
    let fs : FileSystem := ⟨[⟨"r", .directory [⟨"b", .directory [⟨"c", .directory
      [⟨"x.entrypoint.js", .file ""⟩]⟩]⟩]⟩], []⟩
    fs.RootAt (Path.slashed ⟨"r"⟩ 4093) ["r"] ∧
      fs.Offers [] ["r"] ["b", "c", "x.entrypoint.js"] ∧
      (∀ tree, fs.scanWith (.lastFirst 4) [] (Path.slashed ⟨"r"⟩ 4093) ≠ .ok tree) ∧
      (Host.single ⟨"r"⟩ [⟨[0xFF], .directory⟩]).scan (.lastFirst 4) [] ⟨"r"⟩ =
        .error (.io ⟨"r/\uFFFD"⟩ .notFound) := by
  intro fs
  -- The root becomes a variable, so that its text is never computed with.
  obtain ⟨root, isRoot⟩ : ∃ root, root = Path.slashed ⟨"r"⟩ 4093 := ⟨_, rfl⟩
  obtain ⟨size, slash, -, leads⟩ := slashed_r (by decide) (by decide : 1 + 4093 < pathLimit)
  rw [← isRoot] at size slash leads ⊢
  have rootAt : fs.RootAt root ["r"] := leads (by constructor <;> decide +kernel)
  have tidy : fs.Tidy IsFileName := by
    refine .single (by decide) (.single (by decide) (.single (by decide) ?_))
    exact .single (by decide) (.file "")
  have offers : fs.Offers [] ["r"] ["b", "c", "x.entrypoint.js"] := by
    refine ⟨(admitted_cons (List.cons_ne_nil _ _)).2 ⟨?_,
      (admitted_cons (List.cons_ne_nil _ _)).2 ⟨?_, admitted_singleton.2 ?_⟩⟩, ?_⟩ <;>
      decide +kernel
  refine ⟨rootAt, offers, fun tree scanned => ?_, Host.scan_lossy_directory _⟩
  rw [scanWith_eq_scan tidy] at scanned
  have notIgnored : ∀ name ∈ ["b", "c"], isIgnored [] name = false := by decide +kernel
  have isDirectory : fs.kind? (["r"] ++ ["b", "c"]) = some .directory := by decide +kernel
  have short := short_of_scan rootAt.1 scanned notIgnored isDirectory
  rw [Path.utf8ByteSize_descendant_of_endsInSlash slash (by decide), size] at short
  exact absurd short (by decide)

end FileSystem

end RouteAtlas
