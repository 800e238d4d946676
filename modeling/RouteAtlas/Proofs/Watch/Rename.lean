import RouteAtlas.Proofs.FileSystem.Rename
import RouteAtlas.Proofs.Watch.Convergence
import RouteAtlas.Proofs.Watch.Incremental
import RouteAtlas.Proofs.Watch.Sound

/-!
# Renames that replace something

A rename is handled as a deletion of the old path and a creation of the new one, and
nobody reports what the item has replaced there. The tree still becomes what a fresh scan
gives for every kind of item and of what it replaces, except when a link takes the place
of a file on offer: a created link adds nothing, so that the file stays recorded
(`FileSystem.process_rename`).

Deleting the old names leaves records that the files bear out as they are after the rename
(`FileSystem.Moved.grounded`), and the new path adds all that is on offer at its names
(`FileSystem.Moved.mem_createdFiles`), so that the tree mirrors the files again
(`FileSystem.Moved.mirroredBy_createAll`). For this the root has to lead to the same directory
after the rename, and no path that the scan of the new path looks at may be too long
(`FileSystem.rename_departs`).
-/

set_option autoImplicit false

namespace RouteAtlas

namespace FileSystem

variable {fs other : FileSystem} {name : String} {patterns : List String}
  {root path source target : Path} {top : Location} {tree : Folder} {old new : List String}
  {item : Item}

/-- A link is renamed and takes the place of a file on offer. -/
def LinkReplacesFile (fs : FileSystem) (patterns : List String) (top : Location)
    (old new : List String) : Prop :=
  (∃ link, fs.kind? (top ++ old) = some (.link link)) ∧ fs.Offers patterns top new

/-- No file stands at a link or below it. -/
theorem kind?_append_of_link {location : Location} {link : Path}
    (isLink : fs.kind? location = some (.link link)) (rest : Location) :
    fs.kind? (location ++ rest) ≠ some .file := by
  intro isFile
  cases rest with
  | nil =>
    rw [List.append_nil, isLink] at isFile
    cases isFile
  | cons name names =>
    have isDirectory := kind?_of_append (List.cons_ne_nil name names) (by rw [isFile]; exact nofun)
    rw [isLink] at isDirectory
    cases isDirectory

/-! ## The tree between the two events -/

/-- After the old path of a rename is deleted, the tree records what was on offer elsewhere.
-/
theorem MirroredBy.records_deleted (mirrored : fs.MirroredBy patterns root top tree)
    (below : old ≠ []) (names : List String) :
    (tree.edited patterns old .delete).1.Records names ↔
      fs.Offers patterns top names ∧ ¬ old <+: names := by
  rw [Folder.records_edited_delete mirrored.canonical
    (fun names recorded => ((mirrored.records names).1 recorded).1) below, mirrored.records]

/-- At the new place stands what was moved. -/
theorem Moved.kind?_inside (moved : fs.Moved other top old new item) :
    other.kind? (top ++ new) = some item.kind := by
  have inside := moved.inside []
  rw [List.append_nil, Item.at?_nil] at inside
  rw [kind?, inside]
  rfl

/-- Once the old place is deleted, the files as they are after the rename bear out what is
recorded, unless a link took the place of a file on offer. -/
theorem Moved.grounded (moved : fs.Moved other top old new item)
    (mirrored : fs.MirroredBy patterns root top tree) (below : old ≠ [])
    (spared : ¬ fs.LinkReplacesFile patterns top old new) :
    (tree.edited patterns old .delete).1.Grounded other patterns top [] := by
  have recordsNow := mirrored.records_deleted below
  refine ⟨mirrored.canonical.edited _ _ _, fun names recorded => ?_, fun names recorded => ?_⟩
  · exact ((recordsNow names).1 recorded).1.1
  obtain ⟨⟨admitted, isFile⟩, stays⟩ := (recordsNow names).1 recorded
  refine excuses_of_file ?_ []
  by_cases inside : new <+: names
  · obtain ⟨rest, rfl⟩ := inside
    obtain ⟨rfl, notDirectory⟩ :=
      moved.replaced rest (by rwa [List.append_assoc]) stays
    rw [List.append_nil] at admitted isFile ⊢
    rw [moved.kind?_inside]
    cases isKind : item.kind with
    | file => rfl
    | link link =>
      have isLink := (moved.source (.link link) nofun).2 isKind
      exact absurd ⟨⟨link, isLink⟩, admitted, isFile⟩ spared
    | directory => exact absurd isKind notDirectory
  · exact (moved.elsewhere names inside).2 ⟨isFile, stays⟩

/-- Creating the files at and below the new place then leaves a tree that mirrors the
files. -/
theorem Moved.mirroredBy_createAll (moved : fs.Moved other top old new item)
    (mirrored : fs.MirroredBy patterns root top tree) (stays : other.RootAt root top)
    (below : old ≠ []) (spared : ¬ fs.LinkReplacesFile patterns top old new)
    {files : List (List String)}
    (real : ∀ names ∈ files, Admitted patterns names → other.kind? (top ++ names) = some .file)
    (complete : ∀ more, other.Offers patterns top (new ++ more) → new ++ more ∈ files) :
    other.MirroredBy patterns root top
      (Folder.createAll patterns (tree.edited patterns old .delete).1 files) := by
  obtain ⟨grounded, keeps⟩ := (moved.grounded mirrored below spared).createAll
    fun names member admitted => excuses_of_file (real names member admitted) []
  refine ⟨moved.tidy.mono fun _ _ => trivial, stays, ?_, grounded.canonical, fun names => ⟨?_, ?_⟩⟩
  · rw [Folder.createAll_label, Folder.edited_label, mirrored.label]
  · intro recorded
    have bornOut := (grounded.stale names recorded names List.prefix_rfl).resolve_right id
    rw [if_pos rfl] at bornOut
    exact ⟨grounded.admitted names recorded, bornOut⟩
  · intro offers
    refine keeps names offers id ?_
    by_cases inside : new <+: names
    · obtain ⟨more, rfl⟩ := inside
      exact .inr (complete more offers)
    · obtain ⟨wasFile, spares⟩ := (moved.elsewhere names inside).1 offers.2
      exact .inl ((mirrored.records_deleted below names).2 ⟨⟨offers.1, wasFile⟩, spares⟩)

/-! ## The files that the new path adds -/

/-- What stands at the new place after a rename, looked at by the new path. -/
theorem Moved.lookUp (moved : fs.Moved other top old new item) (stays : other.RootAt root top)
    (spells : root.Spells target new) (below : new ≠ [])
    (fine : textError? .keepLink target = none)
    (ends : item.kind = .directory ∨ target.steps.getLast? = new.getLast?) :
    other.lookUp .keepLink target = .ok item ∧ other.Straight root top target := by
  have present : other.kind? (top ++ new) ≠ none := by
    rw [moved.kind?_inside]
    exact nofun
  have short : ∀ name ∈ new, name.utf8ByteSize ≤ nameLimit := fun name member =>
    (moved.tidy.valid_of_kind? present name (List.mem_append_right _ member)).short
  have found := moved.inside []
  rw [List.append_nil, Item.at?_nil] at found
  refine ⟨stays.lookUp_of_item? spells below short fine found ends, .of_spells spells ?_⟩
  refine ends.imp (fun isDirectory => ?_) fun isLast => ⟨?_, isLast⟩
  · exact .of_present (moved.kind?_inside.trans (congrArg some isDirectory)) nofun
  · have shorter : new.dropLast ≠ new := by
      intro same
      have sameLength := congrArg List.length same
      have filled := List.length_pos_iff.2 below
      rw [List.length_dropLast] at sameLength
      omega
    exact .of_present (directories_of_present present (List.dropLast_prefix new) shorter) nofun

/-- A path that is spelled below a root adds files that are spelled below it. -/
theorem exists_spells_of_mem_createdFiles (tidy : fs.Tidy IsFileName) {names : List String}
    (spells : root.Spells path names) {file : Path}
    (member : file ∈ fs.createdFiles patterns path) : ∃ others, root.Spells file others := by
  rcases mem_createdFiles member with ⟨_, _, rfl⟩ | ⟨_, folder, _, scanned, listed⟩
  · exact ⟨names, spells⟩
  · obtain ⟨place, -, lists⟩ := mem_paths_of_scan tidy scanned
    obtain ⟨more, ⟨-, isFile⟩, rfl⟩ := (lists file).1 listed
    have areMore : ∀ name ∈ more, IsName name := fun name inMore =>
      (tidy.valid_of_kind? (by rw [isFile]; exact nofun) name
        (List.mem_append_right _ inMore)).toIsName
    exact ⟨names ++ more, spells.trans (path.spells_descendant areMore)⟩

/-- The new path of a rename adds all files on offer at and below it, unless a path on the
way of a scan is too long. -/
theorem Moved.mem_createdFiles (moved : fs.Moved other top old new item)
    (stays : other.RootAt root top) (spells : root.Spells target new)
    (fine : textError? .keepLink target = none)
    (lookedUp : other.lookUp .keepLink target = .ok item)
    (reached : ∀ path, other.scan patterns target ≠ .error (.io path .nameTooLong))
    {more : List String} (offers : other.Offers patterns top (new ++ more)) :
    ∃ file ∈ other.createdFiles patterns target, root.Spells file (new ++ more) := by
  obtain ⟨admitted, isFile⟩ := offers
  rw [← List.append_assoc] at isFile
  have isKind := moved.kind?_inside
  rw [createdFiles, lookedUp]
  cases item with
  | file contents =>
    obtain rfl := eq_nil_of_files isKind isFile
    rw [List.append_nil]
    exact ⟨target, List.mem_singleton_self _, spells⟩
  | link link => exact absurd isFile (kind?_append_of_link isKind more)
  | directory slots =>
    have fineFollow : textError? .follow target = none :=
      textError?_eq_none_iff.2 (by simpa using textError?_eq_none_iff.1 fine)
    have targetAt := stays.of_spells spells moved.tidy isKind fineFollow
    obtain ⟨inner, isInner⟩ := kind?_eq_directory_iff.1 isKind
    have isDirectory : other.lookUp .follow target = .ok (.directory inner) :=
      lookUp_eq_ok_iff.2 ⟨_, targetAt.1, isInner⟩
    cases scanned : other.scan patterns target with
    | error failure =>
      obtain ⟨path, rfl, -⟩ := scan_error isDirectory scanned
      exact absurd scanned (reached path)
    | ok folder =>
      obtain ⟨place, placeAt, lists⟩ := mem_paths_of_scan moved.tidy scanned
      cases placeAt.1.symm.trans targetAt.1
      have some : more ≠ [] := by
        rintro rfl
        rw [List.append_nil, isKind] at isFile
        cases isFile
      have areMore : ∀ name ∈ more, IsName name := fun name inMore =>
        (moved.tidy.valid_of_kind? (by rw [isFile]; exact Option.some_ne_none _) name
          (List.mem_append_right _ inMore)).toIsName
      exact ⟨target.descendant more, (lists _).2 ⟨more, ⟨admitted.of_append some, isFile⟩, rfl⟩,
        spells.trans (target.spells_descendant areMore)⟩

/-! ## Handling a rename -/

/-- The notices of a rename: one for both sides, or one for each. -/
def renameNotices (source target : Path) : List (List Notice) :=
  [[⟨.renamedBoth, [source, target]⟩], [⟨.renamedFrom, [source]⟩, ⟨.renamedTo, [target]⟩]]

/-- However a rename is reported, the names of the old path are deleted in the tree of the
only app, and then the new path is created. -/
theorem exists_deleted_of_rename (name : String) (patterns : List String)
    (spellsSource : root.Spells source old) (isRoot : tree.label.path = root) :
    ∃ deleted : Progress,
      deleted.registry = .alone name root patterns (tree.edited patterns old .delete).1 ∧
      ∀ notices ∈ renameNotices source target,
        ((Registry.alone name root patterns tree).process other (notices.map .notice)).registry =
          (deleted.applyEvent other (target, .create)).registry := by
  refine ⟨Progress.applyOne ⟨.alone name root patterns tree, []⟩ .delete source,
    Progress.applyOne_alone_of_spells rfl isRoot spellsSource .delete, fun notices isOne => ?_⟩
  have events : notices.flatMap (·.events other) = [(source, .delete), (target, .create)] := by
    rcases List.mem_cons.1 isOne with rfl | isOther
    · rfl
    · rw [List.mem_singleton.1 isOther]
      rfl
  rw [Progress.registry_process, events]
  rfl

/-- Then the files that the new path adds are created. -/
theorem exists_files_of_rename (name : String) (patterns : List String)
    (spellsSource : root.Spells source old) (spellsTarget : root.Spells target new)
    (tidy : other.Tidy IsFileName) (isRoot : tree.label.path = root) :
    ∃ files, (∀ notices ∈ renameNotices source target,
        ((Registry.alone name root patterns tree).process other (notices.map .notice)).registry =
          .alone name root patterns
            (Folder.createAll patterns (tree.edited patterns old .delete).1 files)) ∧
      ∀ names, names ∈ files ↔
        ∃ file ∈ other.createdFiles patterns target, root.Spells file names := by
  obtain ⟨deleted, isAlone, handled⟩ := exists_deleted_of_rename name patterns spellsSource isRoot
  obtain ⟨files, created, members⟩ := applyEvent_create isAlone
    (by rw [Folder.edited_label, isRoot]) fun file member =>
      .inr (exists_spells_of_mem_createdFiles tidy spellsTarget member)
  exact ⟨files, fun notices isOne => (handled notices isOne).trans created, members⟩

/-- A new path that adds nothing leaves the old names deleted. -/
theorem process_rename_of_nil (name : String) (spellsSource : root.Spells source old)
    (isRoot : tree.label.path = root) (nothing : other.createdFiles patterns target = []) :
    ∀ notices ∈ renameNotices source target,
      ((Registry.alone name root patterns tree).process other (notices.map .notice)).registry =
        .alone name root patterns (tree.edited patterns old .delete).1 := by
  intro notices isOne
  obtain ⟨deleted, isAlone, handled⟩ := exists_deleted_of_rename name patterns spellsSource isRoot
  rw [handled notices isOne, applyEvent_create_of_nil isAlone nothing, isAlone]

/-- However a rename is reported, the tree shows what a scan gives, unless a link took the
place of a file on offer. -/
theorem RenamesBelow.exists_shows (tidy : fs.Tidy IsFileName) (rootAt : fs.RootAt root top)
    (mirrored : fs.MirroredBy patterns root top tree)
    (renames : fs.RenamesBelow root top source target old new other)
    (stays : other.RootAt root top)
    (reached : ∀ path, other.scan patterns target ≠ .error (.io path .nameTooLong))
    (spared : ¬ fs.LinkReplacesFile patterns top old new) :
    ∃ next, (∀ notices ∈ renameNotices source target,
        ((Registry.alone name root patterns tree).process other (notices.map .notice)).registry =
          .alone name root patterns next) ∧ other.Shows patterns root next := by
  obtain ⟨item, moved, fine, ends⟩ := renames.moved tidy rootAt
  obtain ⟨lookedUp, straight⟩ :=
    moved.lookUp stays renames.spellsTarget renames.belowTarget fine ends
  obtain ⟨files, handled, members⟩ := exists_files_of_rename name patterns renames.spellsSource
    renames.spellsTarget moved.tidy (congrArg Label.path mirrored.label)
  refine ⟨_, handled,
    (moved.mirroredBy_createAll mirrored stays renames.belowSource spared ?_ ?_).shows⟩
  · intro names member admitted
    obtain ⟨file, listed, spells⟩ := (members names).1 member
    exact kind?_of_mem_createdFiles_straight stays moved.tidy straight listed spells
      admitted.ne_nil
  · intro more offers
    exact (members _).2
      (moved.mem_createdFiles stays renames.spellsTarget fine lookedUp reached offers)

/-- However it is reported that a link took the place of a file on offer, the file stays
recorded, and no scan gives such a tree. -/
theorem RenamesBelow.exists_stale (tidy : fs.Tidy IsFileName) (rootAt : fs.RootAt root top)
    (mirrored : fs.MirroredBy patterns root top tree)
    (renames : fs.RenamesBelow root top source target old new other)
    (stays : other.RootAt root top) (replaces : fs.LinkReplacesFile patterns top old new) :
    ∃ next, (∀ notices ∈ renameNotices source target,
        ((Registry.alone name root patterns tree).process other (notices.map .notice)).registry =
          .alone name root patterns next) ∧
      new ∈ next.fileSet ∧ other.scan patterns root ≠ .ok next := by
  obtain ⟨item, moved, fine, ends⟩ := renames.moved tidy rootAt
  obtain ⟨lookedUp, -⟩ := moved.lookUp stays renames.spellsTarget renames.belowTarget fine ends
  obtain ⟨⟨link, isLink⟩, offers⟩ := replaces
  have isItem := (moved.source (.link link) nofun).1 isLink
  have nothing : other.createdFiles patterns target = [] := by
    rw [createdFiles, lookedUp]
    cases item with
    | link _ => rfl
    | file _ => cases isItem
    | directory _ => cases isItem
  have handled := process_rename_of_nil name renames.spellsSource
    (congrArg Label.path mirrored.label) nothing
  have notBelow : ¬ old <+: new := by
    rintro ⟨rest, rfl⟩
    exact kind?_append_of_link isLink rest (by rw [List.append_assoc]; exact offers.2)
  have recorded := (mirrored.records_deleted renames.belowSource new).2 ⟨offers, notBelow⟩
  refine ⟨_, handled, recorded, fun scannedOn => ?_⟩
  obtain ⟨-, -, records⟩ := scan_records moved.tidy stays.1 scannedOn
  have isFile := ((records new).1 recorded).2
  rw [moved.kind?_inside, isItem] at isFile
  cases isFile

/-- After a rename below the root of the only app is handled, its tree is what a fresh scan
gives, whatever was replaced; only where a link has taken the place of a file on offer, the
file stays recorded. -/
theorem process_rename (fs other : FileSystem) (name : String) (patterns : List String)
    (root source target : Path) (top : Location) (old new : List String) (tree : Folder)
    (tidy : fs.Tidy IsFileName) (rootAt : fs.RootAt root top)
    (scanned : fs.scan patterns root = .ok tree)
    (renames : fs.RenamesBelow root top source target old new other)
    (stays : other.RootAt root top)
    (reached : ∀ path, other.scan patterns target ≠ .error (.io path .nameTooLong)) :
    ∃ next, (∀ notices ∈ renameNotices source target,
        ((Registry.alone name root patterns tree).process other (notices.map .notice)).registry =
          .alone name root patterns next) ∧
      (¬ fs.LinkReplacesFile patterns top old new → other.Shows patterns root next) ∧
      (fs.LinkReplacesFile patterns top old new →
        new ∈ next.fileSet ∧ other.scan patterns root ≠ .ok next) := by
  have mirrored := MirroredBy.of_scan (tidy.mono fun _ _ => trivial) rootAt.1 scanned
  by_cases replaces : fs.LinkReplacesFile patterns top old new
  · obtain ⟨next, handled, stale⟩ := renames.exists_stale tidy rootAt mirrored stays replaces
    exact ⟨next, handled, fun spared => absurd replaces spared, fun _ => stale⟩
  · obtain ⟨next, handled, shows⟩ :=
      renames.exists_shows tidy rootAt mirrored stays reached replaces
    exact ⟨next, handled, fun _ => shows, fun isLink => absurd isLink replaces⟩

/-- A directory with a file in it takes the place of an empty one. -/
theorem process_rename_directory :
    let root : Path := ⟨"r"⟩
    let fs : FileSystem := ⟨[⟨"r", .directory [⟨"a", .directory [⟨"x.entrypoint.js", .file ""⟩]⟩,
      ⟨"b", .directory []⟩]⟩], []⟩
    let source : Path := ⟨"r/a"⟩
    let target : Path := ⟨"r//b/"⟩
    ∃ tree other next, fs.Tidy IsFileName ∧ fs.RootAt root ["r"] ∧ fs.scan [] root = .ok tree ∧
      fs.RenamesBelow root ["r"] source target ["a"] ["b"] other ∧ other.RootAt root ["r"] ∧
      (∀ path, other.scan [] target ≠ .error (.io path .nameTooLong)) ∧
      (∀ notices ∈ renameNotices source target,
        ((Registry.alone "app" root [] tree).process other (notices.map .notice)).registry =
          .alone "app" root [] next) ∧
      other.Shows [] root next ∧ other.Offers [] ["r"] ["b", "x.entrypoint.js"] := by
  intro root fs source target
  have tidy : fs.Tidy IsFileName := .single (by decide) (.cons (by decide) (by decide)
    (.single (by decide) (.file "")) (.single (by decide) .nil))
  have rootAt : fs.RootAt root ["r"] := by constructor <;> decide +kernel
  have plain : fs.Plain ["r"] [] := .of_present rootAt.2 nofun
  have checked : (fs.apply (.rename source target)).map (fun other =>
      (other.resolve .follow root, other.kind? ["r"],
        (other.scan [] target).map fun _ => (), other.kind? ["r", "b", "x.entrypoint.js"])) =
      .ok (.ok ["r"], some .directory, .ok (), some .file) := by decide +kernel
  obtain ⟨other, applied, facts⟩ := map_eq_ok_iff.1 checked
  simp only [Prod.mk.injEq] at facts
  obtain ⟨isTop, isDirectory, scannedTarget, isFile⟩ := facts
  have found : (fs.scan [] root).map (fun _ => ()) = .ok () := by decide +kernel
  obtain ⟨tree, scanned, -⟩ := map_eq_ok_iff.1 found
  obtain ⟨_, scannedTarget, -⟩ := map_eq_ok_iff.1 scannedTarget
  have renames : fs.RenamesBelow root ["r"] source target ["a"] ["b"] other :=
    ⟨⟨[.name "a"], by decide +kernel, rfl⟩, ⟨[.name "b"], by decide +kernel, rfl⟩,
      List.cons_ne_nil _ _, List.cons_ne_nil _ _, plain, plain, applied⟩
  have reached : ∀ path, other.scan [] target ≠ .error (.io path .nameTooLong) := by
    rw [scannedTarget]
    exact nofun
  have spared : ¬ fs.LinkReplacesFile [] ["r"] ["a"] ["b"] := by
    rintro ⟨⟨link, isLink⟩, -⟩
    cases isLink
  obtain ⟨next, handled, shows, -⟩ := process_rename fs other "app" [] root source target ["r"]
    ["a"] ["b"] tree tidy rootAt scanned renames ⟨isTop, isDirectory⟩ reached
  refine ⟨tree, other, next, tidy, rootAt, scanned, renames, ⟨isTop, isDirectory⟩, reached, handled,
    shows spared, (admitted_cons (List.cons_ne_nil _ _)).2 ⟨?_, admitted_singleton.2 ?_⟩,
    isFile⟩ <;> decide +kernel

/-- A link takes the place of the only file, and a scan finds no file any more. -/
theorem process_rename_link_over_file :
    let root : Path := ⟨"r"⟩
    let fs : FileSystem := ⟨[⟨"r", .directory [⟨"a.entrypoint.js", .file ""⟩,
      ⟨"l", .link ⟨"nowhere"⟩⟩]⟩], []⟩
    let source : Path := ⟨"r/l"⟩
    let target : Path := ⟨"r/a.entrypoint.js"⟩
    ∃ tree other next, fs.Tidy IsFileName ∧ fs.RootAt root ["r"] ∧ fs.scan [] root = .ok tree ∧
      fs.RenamesBelow root ["r"] source target ["l"] ["a.entrypoint.js"] other ∧
      other.RootAt root ["r"] ∧
      (∀ notices ∈ renameNotices source target,
        ((Registry.alone "app" root [] tree).process other (notices.map .notice)).registry =
          .alone "app" root [] next) ∧
      other.scan [] root = .ok (Folder.root root) ∧ next ≠ Folder.root root := by
  intro root fs source target
  have tidy : fs.Tidy IsFileName := .single (by decide) (.cons (by decide) (by decide)
    (.file "") (.single (by decide) (.link _)))
  have rootAt : fs.RootAt root ["r"] := by constructor <;> decide +kernel
  have plain : fs.Plain ["r"] [] := .of_present rootAt.2 nofun
  have checked : (fs.apply (.rename source target)).map (fun other =>
      (other.resolve .follow root, other.kind? ["r"], other.scan [] root)) =
      .ok (.ok ["r"], some .directory, .ok (Folder.root root)) := by decide +kernel
  obtain ⟨other, applied, facts⟩ := map_eq_ok_iff.1 checked
  simp only [Prod.mk.injEq] at facts
  obtain ⟨isTop, isDirectory, scannedOn⟩ := facts
  have found : (fs.scan [] root).map (fun _ => ()) = .ok () := by decide +kernel
  obtain ⟨tree, scanned, -⟩ := map_eq_ok_iff.1 found
  have renames : fs.RenamesBelow root ["r"] source target ["l"] ["a.entrypoint.js"] other :=
    ⟨⟨[.name "l"], by decide +kernel, rfl⟩, ⟨[.name "a.entrypoint.js"], by decide +kernel, rfl⟩,
      List.cons_ne_nil _ _, List.cons_ne_nil _ _, plain, plain, applied⟩
  have replaces : fs.LinkReplacesFile [] ["r"] ["l"] ["a.entrypoint.js"] := by
    refine ⟨⟨⟨"nowhere"⟩, rfl⟩, admitted_singleton.2 ?_, ?_⟩ <;> decide +kernel
  obtain ⟨next, handled, -, stale⟩ := renames.exists_stale tidy rootAt
    (.of_scan (tidy.mono fun _ _ => trivial) rootAt.1 scanned) ⟨isTop, isDirectory⟩ replaces
  refine ⟨tree, other, next, tidy, rootAt, scanned, renames, ⟨isTop, isDirectory⟩, handled,
    scannedOn, ?_⟩
  rintro rfl
  exact stale scannedOn

/-! ## What the conditions are for -/

/-- However a rename below a root is reported that puts no link in a file's place, the tree
of the only app is not what a scan of the root gives. -/
def RenameDeparts (fs : FileSystem) (root : Path) (top : Location) (source target : Path)
    (old new : List String) : Prop :=
  ∃ tree other next, fs.Tidy IsFileName ∧ fs.RootAt root top ∧ fs.scan [] root = .ok tree ∧
    fs.RenamesBelow root top source target old new other ∧
    ¬ fs.LinkReplacesFile [] top old new ∧
    (∀ notices ∈ renameNotices source target,
      ((Registry.alone "app" root [] tree).process other (notices.map .notice)).registry =
        .alone "app" root [] next) ∧
    other.scan [] root ≠ .ok next

/-- A directory that the root steps through is renamed, and no scan of the root succeeds any
more. -/
theorem rename_departs_lost_root :
    RenameDeparts ⟨[⟨"r", .directory [⟨"x", .directory []⟩]⟩], []⟩ ⟨"r/x/.."⟩ ["r"]
      ⟨"r/x/../x"⟩ ⟨"r/x/../y"⟩ ["x"] ["y"] := by
  let fs : FileSystem := ⟨[⟨"r", .directory [⟨"x", .directory []⟩]⟩], []⟩
  have tidy : fs.Tidy IsFileName := .single (by decide) (.single (by decide) .nil)
  have rootAt : fs.RootAt ⟨"r/x/.."⟩ ["r"] := by constructor <;> decide +kernel
  have plain : fs.Plain ["r"] [] := .of_present rootAt.2 nofun
  have lost : (fs.apply (.rename ⟨"r/x/../x"⟩ ⟨"r/x/../y"⟩)).map
      (fun other => other.scan [] ⟨"r/x/.."⟩) = .ok (.error (.io ⟨"r/x/.."⟩ .notFound)) := by
    decide +kernel
  obtain ⟨other, applied, failed⟩ := map_eq_ok_iff.1 lost
  have renames : fs.RenamesBelow ⟨"r/x/.."⟩ ["r"] ⟨"r/x/../x"⟩ ⟨"r/x/../y"⟩ ["x"] ["y"] other :=
    ⟨⟨[.name "x"], by decide +kernel, rfl⟩, ⟨[.name "y"], by decide +kernel, rfl⟩,
      List.cons_ne_nil _ _, List.cons_ne_nil _ _, plain, plain, applied⟩
  obtain ⟨item, moved, -⟩ := renames.moved tidy rootAt
  obtain ⟨files, handled, -⟩ := exists_files_of_rename "app" [] renames.spellsSource
    renames.spellsTarget moved.tidy (rfl : (Folder.root ⟨"r/x/.."⟩).label.path = _)
  refine ⟨_, other, _, tidy, rootAt, by decide +kernel, renames, ?_, handled, ?_⟩
  · rintro ⟨⟨link, isLink⟩, -⟩
    cases isLink
  · rw [failed]
    exact nofun

/-- A rename departs if its new path adds nothing, and a file is on offer that was not there
before. -/
theorem RenamesBelow.departs (tidy : fs.Tidy IsFileName) (rootAt : fs.RootAt root top)
    (scanned : fs.scan [] root = .ok tree)
    (renames : fs.RenamesBelow root top source target old new other)
    (notLink : ∀ link, fs.kind? (top ++ old) ≠ some (.link link))
    (stays : other.RootAt root top) (nothing : other.createdFiles [] target = [])
    {names : List String} (offers : other.Offers [] top names)
    (isNew : fs.kind? (top ++ names) = none) :
    fs.RenameDeparts root top source target old new := by
  have mirrored : fs.MirroredBy [] root top tree :=
    .of_scan (tidy.mono fun _ _ => trivial) rootAt.1 scanned
  obtain ⟨item, moved, -⟩ := renames.moved tidy rootAt
  refine ⟨tree, other, _, tidy, rootAt, scanned, renames,
    fun replaces => replaces.1.elim fun link isLink => notLink link isLink,
    process_rename_of_nil "app" renames.spellsSource (congrArg Label.path mirrored.label) nothing,
    fun scannedOn => ?_⟩
  obtain ⟨-, -, records⟩ := scan_records moved.tidy stays.1 scannedOn
  have recorded :=
    (mirrored.records_deleted renames.belowSource names).1 ((records names).2 offers)
  cases isNew.symm.trans recorded.1.2

/-- A file in a directory of another directory. -/
def nestedFile : FileSystem :=
  ⟨[⟨"r", .directory [⟨"a", .directory [⟨"d", .directory [⟨"x.entrypoint.js", .file ""⟩]⟩]⟩]⟩], []⟩

/-- How the root is spelled in the new path does not show in what the rename does. -/
theorem nestedFile_renamed {long : Path} (texts : long.texts = ["r"])
    (absolute : long.isAbsolute = false)
    (fine : textError? .keepLink (long.descendant ["b"]) = none) :
    ∃ other, nestedFile.apply (.rename ⟨"r/a"⟩ (long.descendant ["b"])) = .ok other ∧
      other.RootAt ⟨"r"⟩ ["r"] ∧ other.kind? ["r", "b", "d"] = some .directory ∧
      other.Offers [] ["r"] ["b", "d", "x.entrypoint.js"] := by
  have areNames : ∀ name ∈ ["b"], IsName name := by decide
  have same : nestedFile.apply (.rename ⟨"r/a"⟩ (long.descendant ["b"])) =
      nestedFile.apply (.rename ⟨"r/a"⟩ ⟨"r/b"⟩) := by
    refine apply_rename_congr ?_ ?_ ?_ (by decide +kernel) fine
    · rw [long.texts_descendant areNames, texts]
      decide +kernel
    · rw [long.isAbsolute_descendant areNames, absolute]
      decide +kernel
    · exact (long.endsInSlash_child (areNames "b" List.mem_cons_self)).trans (by decide +kernel)
  have checked : (nestedFile.apply (.rename ⟨"r/a"⟩ ⟨"r/b"⟩)).map (fun other =>
      (other.resolve .follow ⟨"r"⟩, other.kind? ["r"], other.kind? ["r", "b", "d"],
        other.kind? ["r", "b", "d", "x.entrypoint.js"])) =
      .ok (.ok ["r"], some .directory, some .directory, some .file) := by decide +kernel
  obtain ⟨other, applied, facts⟩ := map_eq_ok_iff.1 checked
  simp only [Prod.mk.injEq] at facts
  obtain ⟨isTop, isDirectory, isInner, isFile⟩ := facts
  refine ⟨other, same.trans applied, ⟨isTop, isDirectory⟩, isInner,
    (admitted_cons (List.cons_ne_nil _ _)).2 ⟨?_, (admitted_cons (List.cons_ne_nil _ _)).2
      ⟨?_, admitted_singleton.2 ?_⟩⟩, isFile⟩ <;> decide +kernel

/-- A directory is renamed to a path through a long spelling of the root, by which a
directory in it cannot be reached any more. -/
theorem rename_departs_of_long {long : Path} (texts : long.texts = ["r"])
    (components : long.components = [.name "r"]) (slash : long.endsInSlash = true)
    (size : long.text.utf8ByteSize = 4093)
    (leads : ∀ {fs : FileSystem}, fs.RootAt ⟨"r"⟩ ["r"] → fs.RootAt long ["r"]) :
    nestedFile.RenameDeparts ⟨"r"⟩ ["r"] ⟨"r/a"⟩ (long.descendant ["b"]) ["a"] ["b"] := by
  have tidy : nestedFile.Tidy IsFileName := .single (by decide) (.single (by decide)
    (.single (by decide) (.single (by decide) (.file ""))))
  have rootAt : nestedFile.RootAt ⟨"r"⟩ ["r"] := by constructor <;> decide +kernel
  have plain : nestedFile.Plain ["r"] [] := .of_present rootAt.2 nofun
  have found : (nestedFile.scan [] ⟨"r"⟩).map (fun _ => ()) = .ok () := by decide +kernel
  obtain ⟨tree, scanned, -⟩ := map_eq_ok_iff.1 found
  have sizes : ∀ {rest : List String}, (∀ step ∈ "b" :: rest, IsName step) →
      (long.descendant ("b" :: rest)).text.utf8ByteSize = long.text.utf8ByteSize + 1 +
        (rest.map fun name => 1 + name.utf8ByteSize).sum :=
    Path.utf8ByteSize_descendant_of_endsInSlash slash
  have fine : textError? .keepLink (long.descendant ["b"]) = none := by
    refine Path.textError?_descendant (resolve_eq_ok_iff.1 (leads rootAt).1).1
      (by decide : ∀ name ∈ ["b"], IsFileName name) ?_ _
    rw [sizes (by decide), size]
    decide
  have absolute : long.isAbsolute = false := by
    rw [Bool.eq_false_iff, ne_eq, Path.isAbsolute_iff, components]
    decide
  obtain ⟨other, applied, stays, isInner, offers⟩ := nestedFile_renamed texts absolute fine
  have spellsLong : (⟨"r"⟩ : Path).Spells long [] := by
    refine ⟨[], ?_, rfl⟩
    rw [Path.below?, components]
    decide +kernel
  have renames :
      nestedFile.RenamesBelow ⟨"r"⟩ ["r"] ⟨"r/a"⟩ (long.descendant ["b"]) ["a"] ["b"] other :=
    ⟨⟨[.name "a"], by decide +kernel, rfl⟩, spellsLong.trans (long.spells_descendant (by decide)),
      List.cons_ne_nil _ _, List.cons_ne_nil _ _, plain, plain, applied⟩
  obtain ⟨item, moved, -⟩ := renames.moved tidy rootAt
  refine renames.departs tidy rootAt scanned (fun link isLink => by cases isLink) stays ?_ offers
    (by decide +kernel)
  refine @createdFiles_of_long_below _ _ _ _ _ (leads stays) moved.tidy (List.cons_ne_nil _ _)
    ["d"] (by decide +kernel) isInner ?_
  rw [List.singleton_append, sizes (by decide), size]
  decide

/-- The tree can depart from what a scan gives if the root leads elsewhere after the rename,
and if a path on the way of the scan of the new path is too long. -/
theorem rename_departs :
    RenameDeparts ⟨[⟨"r", .directory [⟨"x", .directory []⟩]⟩], []⟩ ⟨"r/x/.."⟩ ["r"]
        ⟨"r/x/../x"⟩ ⟨"r/x/../y"⟩ ["x"] ["y"] ∧
      nestedFile.RenameDeparts ⟨"r"⟩ ["r"] ⟨"r/a"⟩ ((Path.slashed ⟨"r"⟩ 4092).descendant ["b"])
        ["a"] ["b"] := by
  refine ⟨rename_departs_lost_root, ?_⟩
  obtain ⟨size, slash, components, leads⟩ :=
    slashed_r (by decide) (by decide : 1 + 4092 < pathLimit)
  refine rename_departs_of_long ?_ components slash size leads
  rw [Path.texts_slashed]
  decide +kernel

end FileSystem

end RouteAtlas
