import RouteAtlas.Proofs.FileTree.Found

/-!
# Events instead of scans

A file tree that was scanned once and then follows every edit of the files by an
event stays the tree that a fresh scan would give (`Tracked.step_scan`), and each
event tells truly whether that tree has changed. The edits write a file with its
missing parents, remove an item with all it holds, or change the contents of a
file; their paths are spelled in any way below the root and pass through no link
there.

What carries this over a run is `FileSystem.MirroredBy`: the tree is canonical and
records exactly the files on offer. The root has to lead to the same directory all
along, and a scan can still fail where the path of a directory grows too long; an
event does not look at either
(`FileSystem.departs_lost_root_long_path_and_lossy_name`). All names are texts here.
-/

set_option autoImplicit false

namespace RouteAtlas

/-! ## Edits -/

/-- An edit of the files below a root. -/
inductive Edit where
  /-- Writes a file, new or not. -/
  | write (path : Path) (contents : String)
  /-- Removes a file or a directory. -/
  | remove (path : Path)
  /-- Gives a file other contents. -/
  | rewrite (path : Path) (contents : String)
  deriving DecidableEq, Repr

namespace Edit

/-- The path that an edit is about. -/
def path : Edit → Path
  | .write path _ => path
  | .remove path => path
  | .rewrite path _ => path

/-- What an edit does to the file system. -/
def change : Edit → Change
  | .write path contents => .write path contents
  | .remove path => .remove path
  | .rewrite path contents => .write path contents

/-- The event that reports an edit. -/
def event : Edit → Event
  | .write .. => .create
  | .remove _ => .delete
  | .rewrite .. => .update

end Edit

namespace FileSystem

variable {patterns : List String} {root : Path} {top : Location} {fs other : FileSystem}
  {tree next : Folder} {edit : Edit}

/-- An edit stays strictly below a root that leads to `top` and meets no link there;
new contents are for a file that exists. -/
def Admits (fs : FileSystem) (root : Path) (top : Location) (edit : Edit) : Prop :=
  ∃ names, root.Spells edit.path names ∧ names ≠ [] ∧ fs.Plain top names ∧
    (edit.event = .update → fs.kind? (top ++ names) = some .file)

/-- A tree is what a scan of a root gives, unless the path of a directory is too long
for the scan. -/
def Shows (fs : FileSystem) (patterns : List String) (root : Path) (tree : Folder) : Prop :=
  fs.scan patterns root = .ok tree ∨
    ∃ path, fs.scan patterns root = .error (.io path .nameTooLong) ∧
      pathLimit ≤ path.text.utf8ByteSize

/-- A canonical tree records exactly the files that its root offers. -/
structure MirroredBy (fs : FileSystem) (patterns : List String) (root : Path) (top : Location)
    (tree : Folder) : Prop where
  distinct : fs.Distinct
  rootAt : fs.RootAt root top
  label : tree.label = (Folder.root root).label
  canonical : tree.Canonical
  records : ∀ names, tree.Records names ↔ fs.Offers patterns top names

/-- What a scan gives mirrors the files. -/
theorem MirroredBy.of_scan (distinct : fs.Distinct) (isTop : fs.resolve .follow root = .ok top)
    (scanned : fs.scan patterns root = .ok tree) : fs.MirroredBy patterns root top tree := by
  obtain ⟨label, canonical, records⟩ := scan_records distinct isTop scanned
  obtain ⟨_, rootAt⟩ := exists_rootAt_of_scan scanned
  cases isTop.symm.trans rootAt.1
  exact ⟨distinct, rootAt, label, canonical, records⟩

/-- A tree that mirrors the files shows what a scan gives. -/
theorem MirroredBy.shows (mirrored : fs.MirroredBy patterns root top tree) :
    fs.Shows patterns root tree := by
  obtain ⟨slots, found⟩ := kind?_eq_directory_iff.1 mirrored.rootAt.2
  have isDirectory : fs.lookUp .follow root = .ok (.directory slots) :=
    lookUp_eq_ok_iff.2 ⟨top, mirrored.rootAt.1, found⟩
  cases scanned : fs.scan patterns root with
  | ok fresh =>
    refine .inl (scanned.trans (congrArg _ ?_))
    exact (eq_of_scan mirrored.distinct mirrored.rootAt.1 mirrored.label mirrored.canonical
      mirrored.records scanned).symm
  | error failure =>
    obtain ⟨path, rfl, tooLong⟩ := scan_error isDirectory scanned
    exact .inr ⟨path, scanned, tooLong⟩

/-- A tree that mirrors the files below a root is what a scan gives, if a scan succeeded
when there were at least as many directories. -/
theorem MirroredBy.scan (mirrored : other.MirroredBy patterns root top next)
    (rootAt : fs.RootAt root top) (scanned : fs.scan patterns root = .ok tree)
    (fewer : ∀ location, other.kind? location = some .directory →
      fs.kind? location = some .directory) : other.scan patterns root = .ok next := by
  obtain ⟨fresh, scannedOn⟩ := scan_of_short mirrored.distinct mirrored.rootAt
    fun names noneIgnored isDirectory =>
      short_of_scan rootAt.1 scanned noneIgnored (fewer _ isDirectory)
  rw [scannedOn, eq_of_scan mirrored.distinct mirrored.rootAt.1 mirrored.label
    mirrored.canonical mirrored.records scannedOn]

/-- Below a file there is no other one. -/
theorem eq_nil_of_files {location rest : Location} (isFile : fs.kind? location = some .file)
    (isBelow : fs.kind? (location ++ rest) = some .file) : rest = [] := by
  refine Decidable.byContradiction fun more => ?_
  have isDirectory := kind?_of_append more (by rw [isBelow]; exact nofun)
  rw [isFile] at isDirectory
  cases isDirectory

/-- Creating a file in a tree records what is on offer once the file is written. -/
theorem MirroredBy.records_create (mirrored : fs.MirroredBy patterns root top tree)
    {names : List String} (files : ∀ others, other.kind? (top ++ others) = some .file ↔
      others = names ∨ fs.kind? (top ++ others) = some .file) (others : List String) :
    (tree.edited patterns names .create).1.Records others ↔
      other.Offers patterns top others := by
  have recorded : ∀ others, tree.Records others → other.kind? (top ++ others) = some .file :=
    fun others isRecorded => (files others).2 (.inr ((mirrored.records others).1 isRecorded).2)
  have isFile : other.kind? (top ++ names) = some .file := (files names).2 (.inl rfl)
  by_cases admitted : Admitted patterns names
  · rw [Folder.edited_create_of_admitted admitted,
      Folder.records_create mirrored.canonical admitted.ne_nil, Offers, files]
    constructor
    · rintro (⟨old, -⟩ | ⟨rfl, -⟩)
      · obtain ⟨admittedOld, wasFile⟩ := (mirrored.records others).1 old
        exact ⟨admittedOld, .inr wasFile⟩
      · exact ⟨admitted, .inl rfl⟩
    · rintro ⟨admittedOther, isNew | wasFile⟩
      · subst isNew
        by_cases old : tree.Records others
        · exact .inl ⟨old, fun _ => rfl⟩
        · refine .inr ⟨rfl, ?_⟩
          rintro ⟨rest, below⟩
          have none := eq_nil_of_files isFile
            (by rw [List.append_assoc]; exact recorded _ below)
          rw [none, List.append_nil] at below
          exact old below
      · have old := (mirrored.records others).2 ⟨admittedOther, wasFile⟩
        refine .inl ⟨old, ?_⟩
        rintro ⟨rest, rfl⟩
        have none := eq_nil_of_files (recorded others old)
          (by rw [List.append_assoc]; exact isFile)
        rw [none, List.append_nil]
  · rw [Folder.edited_create_of_not_admitted admitted, mirrored.records, Offers, Offers, files]
    refine and_congr_right fun admittedOther => ?_
    have notNew : others ≠ names := by
      rintro rfl
      exact admitted admittedOther
    exact (or_iff_right notNew).symm

/-- After a deletion the tree records what is still on offer. -/
theorem MirroredBy.records_delete (mirrored : fs.MirroredBy patterns root top tree)
    {names : List String} (below : names ≠ [])
    (files : ∀ others, other.kind? (top ++ others) = some .file ↔
      fs.kind? (top ++ others) = some .file ∧ ¬ names <+: others) (others : List String) :
    (tree.edited patterns names .delete).1.Records others ↔
      other.Offers patterns top others := by
  rw [Folder.records_edited_delete mirrored.canonical
    (fun others old => ((mirrored.records others).1 old).1) below, mirrored.records, Offers,
    Offers, files, and_assoc]

/-- An event keeps a tree mirroring the files over the edit that it reports. -/
theorem MirroredBy.step (mirrored : fs.MirroredBy patterns root top tree)
    (admits : fs.Admits root top edit) (applied : fs.apply edit.change = .ok other)
    (isTop : other.resolve .follow root = .ok top) :
    ∃ names, tree.apply patterns edit.path edit.event =
        .ok (tree.edited patterns names edit.event) ∧
      other.MirroredBy patterns root top (tree.edited patterns names edit.event).1 := by
  obtain ⟨names, spells, below, plain, isFile⟩ := admits
  have isRoot : tree.label.path = root := by rw [mirrored.label]; rfl
  refine ⟨names, Folder.apply_of_spells (by rw [isRoot]; exact spells) _, ?_⟩
  have label := (tree.edited_label patterns names edit.event).trans mirrored.label
  have canonical := mirrored.canonical.edited patterns names edit.event
  cases edit with
  | write path contents =>
    obtain ⟨isDirectory, distinct, files⟩ :=
      apply_write_below mirrored.rootAt spells below plain applied
    exact ⟨distinct mirrored.distinct, ⟨isTop, isDirectory⟩, label, canonical,
      mirrored.records_create files⟩
  | remove path =>
    obtain ⟨isDirectory, distinct, files⟩ :=
      apply_remove_below mirrored.rootAt spells below plain applied
    exact ⟨distinct mirrored.distinct, ⟨isTop, isDirectory⟩, label, canonical,
      mirrored.records_delete below files⟩
  | rewrite path contents =>
    obtain ⟨isDirectory, distinct, files⟩ :=
      apply_write_below mirrored.rootAt spells below plain applied
    refine ⟨distinct mirrored.distinct, ⟨isTop, isDirectory⟩, label, canonical, ?_⟩
    intro others
    have same : other.kind? (top ++ others) = some .file ↔
        fs.kind? (top ++ others) = some .file := by
      rw [files, or_iff_right_iff_imp]
      rintro rfl
      exact isFile rfl
    rw [Edit.event, Folder.edited_update, mirrored.records, Offers, Offers, same]

/-! ## Runs -/

/-- The file systems and trees of a run: a tree is scanned, and then every edit is
followed by its event, while the root leads to the same directory. -/
inductive Tracked (patterns : List String) (root : Path) (top : Location) :
    FileSystem → Folder → Prop
  | start {fs : FileSystem} {tree : Folder} (distinct : fs.Distinct)
      (isTop : fs.resolve .follow root = .ok top)
      (scanned : fs.scan patterns root = .ok tree) : Tracked patterns root top fs tree
  | step {fs other : FileSystem} {tree next : Folder} {edit : Edit} {changed : Bool}
      (tracked : Tracked patterns root top fs tree) (admits : fs.Admits root top edit)
      (applied : fs.apply edit.change = .ok other)
      (isTop : other.resolve .follow root = .ok top)
      (edited : tree.apply patterns edit.path edit.event = .ok (next, changed)) :
      Tracked patterns root top other next

/-- All along a run the tree mirrors the files. -/
theorem Tracked.mirroredBy (tracked : Tracked patterns root top fs tree) :
    fs.MirroredBy patterns root top tree := by
  induction tracked with
  | start distinct isTop scanned => exact .of_scan distinct isTop scanned
  | step _ admits applied isTop edited ih =>
    obtain ⟨names, isEdited, mirrored⟩ := ih.step admits applied isTop
    rw [isEdited] at edited
    rw [Except.ok.inj edited] at mirrored
    exact mirrored

/-- After every step of a run, the event has succeeded, the tree is what a fresh scan
gives, as it was before the step, and the event has told exactly whether the two
differ. -/
theorem Tracked.step_scan (tracked : Tracked patterns root top fs tree)
    (admits : fs.Admits root top edit) (applied : fs.apply edit.change = .ok other)
    (isTop : other.resolve .follow root = .ok top) :
    ∃ next changed, tree.apply patterns edit.path edit.event = .ok (next, changed) ∧
      fs.Shows patterns root tree ∧ other.Shows patterns root next ∧
      (changed = true ↔ next ≠ tree) := by
  have mirrored := tracked.mirroredBy
  obtain ⟨names, isEdited, mirroredNext⟩ := mirrored.step admits applied isTop
  exact ⟨_, _, isEdited, mirrored.shows, mirroredNext.shows,
    Folder.edited_changed_iff_ne mirrored.canonical patterns names edit.event⟩

/-- A file written into a new directory, spelled with slashes to spare. -/
theorem Tracked.step_scan_write :
    let root : Path := ⟨"r"⟩
    let fs : FileSystem := ⟨[⟨"r", .directory []⟩], []⟩
    let edit : Edit := .write ⟨"r/.//a/b.entrypoint.js"⟩ ""
    Tracked [] root ["r"] fs (Folder.root root) ∧ fs.Admits root ["r"] edit ∧
      ∃ other, fs.apply edit.change = .ok other ∧ other.resolve .follow root = .ok ["r"] ∧
        ∃ next changed,
          (Folder.root root).apply [] edit.path edit.event = .ok (next, changed) ∧
          fs.Shows [] root (Folder.root root) ∧ other.Shows [] root next ∧
          (changed = true ↔ next ≠ Folder.root root) := by
  intro root fs edit
  have distinct : fs.Distinct := .single trivial .nil
  have isTop : fs.resolve .follow root = .ok ["r"] := by decide +kernel
  have scanned : fs.scan [] root = .ok (Folder.root root) := by decide +kernel
  have tracked : Tracked [] root ["r"] fs (Folder.root root) := .start distinct isTop scanned
  have admits : fs.Admits root ["r"] edit := by
    refine ⟨["a", "b.entrypoint.js"], ⟨[.name "a", .name "b.entrypoint.js"], by decide +kernel,
      rfl⟩, List.cons_ne_nil _ _, ?_, nofun⟩
    exact .of_free (by decide +kernel) (by decide +kernel) _
  have leadsOn : (fs.apply edit.change >>= fun other => other.resolve .follow root) =
      .ok ["r"] := by decide +kernel
  obtain ⟨other, applied, isTopOn⟩ := bind_eq_ok_iff.1 leadsOn
  exact ⟨tracked, admits, other, applied, isTopOn, tracked.step_scan admits applied isTopOn⟩

/-- After one edit a tree that was scanned is not what a scan of the root gives. -/
def Departs (fs : FileSystem) (patterns : List String) (root : Path) (top : Location)
    (edit : Edit) : Prop :=
  ∃ tree other next changed, fs.Distinct ∧ fs.resolve .follow root = .ok top ∧
    fs.scan patterns root = .ok tree ∧ fs.Admits root top edit ∧
    fs.apply edit.change = .ok other ∧
    tree.apply patterns edit.path edit.event = .ok (next, changed) ∧
    other.scan patterns root ≠ .ok next

/-- A scan fails once a directory that the root steps through is removed; the event
does not. -/
theorem departs_lost_root :
    Departs ⟨[⟨"r", .directory [⟨"x", .directory []⟩]⟩], []⟩ [] ⟨"r/x/.."⟩ ["r"]
      (.remove ⟨"r/x/../x"⟩) := by
  have distinct : Distinct ⟨[⟨"r", .directory [⟨"x", .directory []⟩]⟩], []⟩ :=
    .single trivial (.single trivial .nil)
  have lost : (apply ⟨[⟨"r", .directory [⟨"x", .directory []⟩]⟩], []⟩
      (.remove ⟨"r/x/../x"⟩)).map (fun other => other.scan [] ⟨"r/x/.."⟩) =
        .ok (.error (.io ⟨"r/x/.."⟩ .notFound)) := by decide +kernel
  obtain ⟨other, applied, failed⟩ := map_eq_ok_iff.1 lost
  refine ⟨Folder.root ⟨"r/x/.."⟩, other, Folder.root ⟨"r/x/.."⟩, false, distinct,
    by decide +kernel, by decide +kernel, ?_, applied, by decide +kernel, ?_⟩
  · refine ⟨["x"], ⟨[.name "x"], by decide +kernel, rfl⟩, List.cons_ne_nil _ _, ?_, nofun⟩
    exact .of_present (by decide +kernel : kind? _ ["r", "x"] = some .directory) nofun
  · rw [failed]
    exact nofun

/-- A scan fails once a directory is made whose path is too long; the event does not. -/
theorem departs_long_path :
    Departs ⟨[⟨"r", .directory []⟩], []⟩ [] (Path.slashed ⟨"r"⟩ 4093) ["r"]
      (.write ⟨"r/b/c/x.entrypoint.js"⟩ "") := by
  -- The root becomes a variable, so that its text is never computed with.
  obtain ⟨root, isRoot⟩ : ∃ root, root = Path.slashed ⟨"r"⟩ 4093 := ⟨_, rfl⟩
  obtain ⟨size, slash, components, leads⟩ :=
    slashed_r (by decide) (by decide : 1 + 4093 < pathLimit)
  rw [← isRoot] at size slash components leads ⊢
  have rootAt : RootAt ⟨[⟨"r", .directory []⟩], []⟩ root ["r"] :=
    leads (by constructor <;> decide +kernel)
  have spells : root.Spells ⟨"r/b/c/x.entrypoint.js"⟩ ["b", "c", "x.entrypoint.js"] := by
    refine ⟨[.name "b", .name "c", .name "x.entrypoint.js"], ?_, rfl⟩
    rw [Path.below?, components]
    decide +kernel
  have made : (apply ⟨[⟨"r", .directory []⟩], []⟩ (.write ⟨"r/b/c/x.entrypoint.js"⟩ "")).map
      (fun other => (other.resolve .follow ⟨"r"⟩, other.kind? ["r"],
        other.kind? ["r", "b", "c"])) =
        .ok (.ok ["r"], some .directory, some .directory) := by decide +kernel
  obtain ⟨other, applied, facts⟩ := map_eq_ok_iff.1 made
  simp only [Prod.mk.injEq] at facts
  obtain ⟨isTop, isDirectory, isNew⟩ := facts
  have otherRootAt : other.RootAt root ["r"] := leads ⟨isTop, isDirectory⟩
  have isEdited := @Folder.apply_of_spells (Folder.root root) [] _ _ spells .create
  generalize (Folder.root root).edited [] _ .create = result at isEdited
  obtain ⟨next, changed⟩ := result
  refine ⟨_, other, next, changed, .single trivial .nil, rootAt.1, scan_of_empty rootAt.1 rfl, ?_,
    applied, isEdited, fun scannedOn => ?_⟩
  · exact ⟨_, spells, List.cons_ne_nil _ _, .of_free rootAt.2 (by decide +kernel) _, nofun⟩
  · have notIgnored : ∀ name ∈ ["b", "c"], isIgnored [] name = false := by decide +kernel
    have short := short_of_scan otherRootAt.1 scannedOn notIgnored isNew
    rw [Path.utf8ByteSize_descendant_of_endsInSlash slash (by decide), size] at short
    exact absurd short (by decide)

/-- A scan can fail where the event does not, and then the tree is not what it gives: when
the root is lost, when the path of a directory grows too long, and when the name of a
directory is no text. -/
theorem departs_lost_root_long_path_and_lossy_name :
    Departs ⟨[⟨"r", .directory [⟨"x", .directory []⟩]⟩], []⟩ [] ⟨"r/x/.."⟩ ["r"]
        (.remove ⟨"r/x/../x"⟩) ∧
      Departs ⟨[⟨"r", .directory []⟩], []⟩ [] (Path.slashed ⟨"r"⟩ 4093) ["r"]
        (.write ⟨"r/b/c/x.entrypoint.js"⟩ "") ∧
      ((Folder.root ⟨"r"⟩).apply [] ⟨"r/\uFFFD/x.entrypoint.js"⟩ .create).map (·.2) = .ok true ∧
      (Host.single ⟨"r"⟩ [⟨[0xFF], .directory⟩]).scan (.lastFirst 4) [] ⟨"r"⟩ =
        .error (.io ⟨"r/\uFFFD"⟩ .notFound) :=
  ⟨departs_lost_root, departs_long_path, by decide +kernel, Host.scan_lossy_directory _⟩

end FileSystem

end RouteAtlas
