import RouteAtlas.Proofs.FileSystem.Straight
import RouteAtlas.Proofs.FileTree.Commute
import RouteAtlas.Proofs.Watch.Handling

/-!
# Records that scans bear out

A scan never follows a link below its root. Handling a created path looks at the last
step of the path only, so what it records is borne out by a scan as long as the path goes
through no link before (`FileSystem.process_records_found`). Behind a link in the middle
of a path, or at its end with a slash behind it, it records files that no scan finds
(`FileSystem.process_records_behind_link`).

What carries this through a batch is `FileSystem.Backs`: the files of the root bear out
every record. Deleting and updating record nothing new, and each file that a straight
path adds is really there (`FileSystem.kind?_of_mem_createdFiles_straight`).
-/

set_option autoImplicit false

namespace RouteAtlas

variable {fs : FileSystem} {name : String} {patterns : List String} {root path : Path}
  {top : Location} {tree fresh : Folder} {names : List String}

/-! ## The files that a path adds -/

namespace FileSystem

/-- A straight path adds, below the root, only files that are really there. -/
theorem kind?_of_mem_createdFiles_straight (rootAt : fs.RootAt root top)
    (tidy : fs.Tidy IsFileName) (straight : fs.Straight root top path) {file : Path}
    (member : file ∈ fs.createdFiles patterns path) (spells : root.Spells file names)
    (below : names ≠ []) : fs.kind? (top ++ names) = some .file := by
  by_cases isBelow : root.isBelow path = true
  · rcases mem_createdFiles member with ⟨contents, isFile, rfl⟩ |
      ⟨slots, folder, isDirectory, scanned, listed⟩
    · rw [kind?, straight.item?_of_lookUp rootAt spells below isFile]
      rfl
    · obtain ⟨place, pathAt, lists⟩ := mem_paths_of_scan tidy scanned
      obtain ⟨more, ⟨-, isFile⟩, rfl⟩ := (lists file).1 listed
      have areMore : ∀ name ∈ more, IsName name := fun name inMore =>
        (tidy.valid_of_kind? (by rw [isFile]; exact Option.some_ne_none _) name
          (List.mem_append_right _ inMore)).toIsName
      obtain ⟨front, spellsPath, rfl⟩ := spells.of_descendant isBelow areMore
      have isHere : fs.kind? (top ++ front) = some .directory := by
        by_cases isRoot : front = []
        · rw [isRoot, List.append_nil]
          exact rootAt.2
        · rw [kind?, straight.item?_of_lookUp rootAt spellsPath isRoot isDirectory]
          rfl
      have plain : fs.Plain top front := .of_present isHere fun _ isLink => by cases isLink
      rw [← List.append_assoc, ← rootAt.eq_append_of_plain spellsPath plain pathAt]
      exact isFile
  · rcases kind?_of_mem_createdFiles_elsewhere rootAt tidy (Bool.eq_false_iff.2 isBelow) member with
      outside | ⟨others, spellsOthers, isFile⟩
    · rw [spells.isBelow] at outside
      cases outside
    · obtain rfl := spells.unique spellsOthers
      exact isFile below

end FileSystem

/-! ## One app -/

/-- An event on a path is one on the tree of the only app. -/
theorem Progress.applyOne_alone {progress : Progress}
    (isAlone : progress.registry = .alone name root patterns tree)
    (isRoot : tree.label.path = root) (event : Event) (path : Path) :
    (progress.applyOne event path).registry =
      .alone name root patterns (tree.after patterns (path, event)) := by
  by_cases spelled : ∃ names, root.Spells path names
  · obtain ⟨names, spells⟩ := spelled
    rw [applyOne_alone_of_spells isAlone isRoot spells, Folder.after_of_spells spells isRoot]
  rw [Folder.after_of_unspelled spelled isRoot]
  by_cases isBelow : root.isBelow path = true
  · have refused : progress.registry.apply path event = .error (.pathEscapes path) := by
      have escapes : tree.label.path.Escapes path := by
        obtain ⟨rest, isPath⟩ := List.isPrefixOf_iff_prefix.1 isBelow
        have below : root.below? path = some rest :=
          List.isPrefixOf?_eq_some_iff_append_eq.2 isPath
        rw [isRoot, ← Path.namesBelow?_eq_none_iff_escapes below]
        exact Option.eq_none_iff_forall_not_mem.2 fun names areNames =>
          spelled ⟨names, rest, below, areNames⟩
      rw [isAlone, Registry.apply, Registry.ownerPosition?, Registry.alone, Registry.ownerAmong,
        Registry.ownerAmong]
      simp only [isBelow, if_true, Option.map_some, List.getElem?_cons_zero]
      rw [Folder.apply_of_escapes escapes]
      rfl
    rw [applyOne, refused]
    exact isAlone
  · exact applyOne_alone_of_not_below isAlone (Bool.eq_false_iff.2 isBelow) event

namespace FileSystem

/-- The files of a root bear out every record of a valid tree. -/
structure Backs (fs : FileSystem) (patterns : List String) (root : Path) (top : Location)
    (tree : Folder) : Prop where
  valid : tree.Valid patterns
  isRoot : tree.label.path = root
  records : ∀ names, tree.Records names → fs.Offers patterns top names

/-- The only app has a tree that the files bear out. -/
def BackedAlone (fs : FileSystem) (name : String) (patterns : List String) (root : Path)
    (top : Location) (progress : Progress) : Prop :=
  ∃ tree, progress.registry = .alone name root patterns tree ∧ fs.Backs patterns root top tree

variable {progress : Progress}

/-- An event that creates no other files than real ones leaves a tree that the files bear
out. -/
theorem Backs.after (backs : fs.Backs patterns root top tree) {event : Event}
    (isReal : event = .create → ∀ names, root.Spells path names → names ≠ [] →
      fs.kind? (top ++ names) = some .file) :
    fs.Backs patterns root top (tree.after patterns (path, event)) := by
  obtain ⟨validNext, label⟩ := backs.valid.after (path, event)
  refine ⟨validNext, by rw [label, backs.isRoot], fun others recorded => ?_⟩
  by_cases spelled : ∃ names, root.Spells path names
  · obtain ⟨names, spells⟩ := spelled
    rw [Folder.after_of_spells spells backs.isRoot] at recorded
    rcases (Folder.records_edited backs.valid.fit.canonical others).1 recorded with
      ⟨old, -⟩ | ⟨rfl, rfl, admitted, -⟩
    · exact backs.records others old
    · exact ⟨admitted, isReal rfl others spells (Admitted.ne_nil admitted)⟩
  · rw [Folder.after_of_unspelled spelled backs.isRoot] at recorded
    exact backs.records others recorded

/-- Every recorded file stays backed through an event, if what it creates is a file. -/
theorem BackedAlone.applyOne (backed : fs.BackedAlone name patterns root top progress)
    {event : Event} (isReal : event = .create → ∀ names, root.Spells path names → names ≠ [] →
      fs.kind? (top ++ names) = some .file) :
    fs.BackedAlone name patterns root top (progress.applyOne event path) := by
  obtain ⟨tree, isAlone, backs⟩ := backed
  exact ⟨_, Progress.applyOne_alone isAlone backs.isRoot event path, backs.after isReal⟩

/-- An event is handled with a tree that the files bear out, if the path of a created
entry is straight. -/
theorem BackedAlone.applyEvent (backed : fs.BackedAlone name patterns root top progress)
    (rootAt : fs.RootAt root top) (tidy : fs.Tidy IsFileName) {event : Event}
    (straight : event = .create → fs.Straight root top path) :
    fs.BackedAlone name patterns root top (progress.applyEvent fs (path, event)) := by
  have isReal : ∀ file ∈ fs.affected progress.registry.patterns path event, event = .create →
      ∀ names, root.Spells file names → names ≠ [] → fs.kind? (top ++ names) = some .file := by
    rintro file member rfl names spells below
    exact kind?_of_mem_createdFiles_straight rootAt tidy (straight rfl) member spells below
  rw [Progress.applyEvent]
  generalize fs.affected progress.registry.patterns path event = files at isReal ⊢
  induction files generalizing progress with
  | nil => exact backed
  | cons file rest ih =>
    obtain ⟨first, others⟩ := List.forall_mem_cons.1 isReal
    exact ih (backed.applyOne first) others

/-- A report is handled with a tree that the files bear out, if the paths of created
entries are straight. -/
theorem BackedAlone.applyReport (backed : fs.BackedAlone name patterns root top progress)
    (rootAt : fs.RootAt root top) (tidy : fs.Tidy IsFileName) {report : Report}
    (straight : ∀ notice, report = .notice notice → ∀ path, (path, .create) ∈ notice.events fs →
      fs.Straight root top path) :
    fs.BackedAlone name patterns root top (progress.applyReport fs report) := by
  cases report with
  | trouble text => exact backed
  | notice notice =>
    have straight := straight notice rfl
    rw [Progress.applyReport]
    generalize notice.events fs = events at straight ⊢
    induction events generalizing progress with
    | nil => exact backed
    | cons event rest ih =>
      obtain ⟨path, event⟩ := event
      refine ih (backed.applyEvent rootAt tidy ?_) fun path member =>
        straight path (List.mem_cons_of_mem _ member)
      rintro rfl
      exact straight path List.mem_cons_self

/-- A batch is handled with a tree that the files bear out, if the paths of created
entries are straight. -/
theorem BackedAlone.process (backed : fs.BackedAlone name patterns root top progress)
    (rootAt : fs.RootAt root top) (tidy : fs.Tidy IsFileName) {batch : List Report}
    (straight : ∀ notice, .notice notice ∈ batch → ∀ path, (path, .create) ∈ notice.events fs →
      fs.Straight root top path) :
    fs.BackedAlone name patterns root top (batch.foldl (Progress.applyReport fs) progress) := by
  induction batch generalizing progress with
  | nil => exact backed
  | cons report rest ih =>
    refine ih (backed.applyReport rootAt tidy ?_) fun notice member =>
      straight notice (List.mem_cons_of_mem _ member)
    rintro notice rfl
    exact straight notice List.mem_cons_self

/-! ## Files that scans find -/

end FileSystem

/-- The files of a valid tree have the labels of the names that it records. -/
theorem Folder.Fit.mem_files_iff (fit : tree.Fit patterns) {label : Label} :
    label ∈ tree.files ↔ ∃ names, tree.Records names ∧ tree.label.descendant names = label := by
  rw [fit.canonical.files_eq, List.mem_map]
  simp only [fit.isNamed.mem_fileNames_iff]

namespace FileSystem

/-- A path that is spelled below a root is straight if no link stands on its way, or none
but at its end where no slash follows. -/
theorem Straight.of_spells (spells : root.Spells path names)
    (ends : fs.Plain top names ∨
      fs.Plain top names.dropLast ∧ path.steps.getLast? = names.getLast?) :
    fs.Straight root top path := by
  intro others spellsOthers
  rwa [spellsOthers.unique spells]

/-- If a scan of the root finds every file that the only app records, it still does after
a batch in which the path of every created entry goes through no link below the root. -/
theorem process_records_found (fs : FileSystem) (name : String) (patterns : List String)
    (root : Path) (top : Location) (tree fresh : Folder) (batch : List Report)
    (tidy : fs.Tidy IsFileName) (rootAt : fs.RootAt root top)
    (scanned : fs.scan patterns root = .ok fresh) (valid : tree.Valid patterns)
    (isRoot : tree.label.path = root) (found : ∀ file ∈ tree.files, file ∈ fresh.files)
    (straight : ∀ notice, .notice notice ∈ batch → ∀ path, (path, .create) ∈ notice.events fs →
      fs.Straight root top path) :
    ∃ next, ((Registry.alone name root patterns tree).process fs batch).registry =
        .alone name root patterns next ∧ ∀ file ∈ next.files, file ∈ fresh.files := by
  have validFresh : fresh.Valid patterns := valid_of_scan (tidy.mono fun _ => (·.toIsName)) scanned
  obtain ⟨labelFresh, -, recordsFresh⟩ := scan_records tidy rootAt.1 scanned
  have labelOf : ∀ {folder : Folder}, folder.Valid patterns → folder.label.path = root →
      folder.label = fresh.label := fun valid isRoot => by
    rw [valid.label, isRoot, labelFresh]
  have backs : fs.Backs patterns root top tree := by
    refine ⟨valid, isRoot, fun names recorded => (recordsFresh names).1 ?_⟩
    refine valid.fit.isNamed.records_of_ids validFresh.fit.isNamed
      (by rw [labelOf valid isRoot]) (fun id listed => ?_) recorded
    obtain ⟨file, member, rfl⟩ := List.mem_map.1 listed
    exact List.mem_map_of_mem (found file member)
  have start : fs.BackedAlone name patterns root top ⟨.alone name root patterns tree, []⟩ :=
    ⟨tree, rfl, backs⟩
  obtain ⟨next, isNext, backsNext⟩ := start.process rootAt tidy straight
  refine ⟨next, isNext, fun file member => ?_⟩
  obtain ⟨names, recorded, rfl⟩ := backsNext.valid.fit.mem_files_iff.1 member
  rw [labelOf backsNext.valid backsNext.isRoot]
  have recordedFresh := (recordsFresh names).2 (backsNext.records names recorded)
  exact validFresh.fit.mem_files_iff.2 ⟨names, recordedFresh, rfl⟩

/-- A directory comes with a file in it, and links, vanished and ignored paths and one that
steps up are reported as well. -/
theorem process_records_found_among_links :
    let root : Path := ⟨"r"⟩
    let fs : FileSystem :=
      ⟨[⟨"r", .directory [⟨"d", .directory [⟨"b.entrypoint.js", .file ""⟩]⟩,
        ⟨"alias.entrypoint.js", .link ⟨"d/b.entrypoint.js"⟩⟩, ⟨"loop", .link ⟨"../r"⟩⟩]⟩], []⟩
    let paths : List Path := [⟨"r/alias.entrypoint.js"⟩, ⟨"r/loop"⟩, ⟨"r/gone.entrypoint.js"⟩,
      ⟨"r/d/../d/b.entrypoint.js"⟩, ⟨"r//d/"⟩]
    let batch : List Report := [.trouble "", .notice ⟨.created, paths⟩]
    ∃ fresh next, fs.Tidy IsFileName ∧ fs.RootAt root ["r"] ∧ fs.scan [] root = .ok fresh ∧
      (∀ path ∈ paths, fs.Straight root ["r"] path) ∧
      ((Registry.alone "app" root [] (Folder.root root)).process fs batch).registry =
        .alone "app" root [] next ∧
      next.files ≠ [] ∧ ∀ file ∈ next.files, file ∈ fresh.files := by
  intro root fs paths batch
  have tidy : fs.Tidy IsFileName := .single (by decide) (.cons (by decide) (by decide)
    (.single (by decide) (.file "")) (.cons (by decide) (by decide) (.link _)
      (.single (by decide) (.link _))))
  have rootAt : fs.RootAt root ["r"] := by constructor <;> decide +kernel
  have plain : fs.Plain ["r"] [] := .of_present rootAt.2 nofun
  have atEnd : ∀ {path : Path} {last : String}, root.Spells path [last] →
      path.steps.getLast? = some last → fs.Straight root ["r"] path :=
    fun spells isLast => .of_spells spells (.inr ⟨plain, isLast⟩)
  have straight : ∀ path ∈ paths, fs.Straight root ["r"] path := by
    simp only [paths, List.forall_mem_cons]
    refine ⟨atEnd ⟨[.name "alias.entrypoint.js"], by decide +kernel, rfl⟩ (by decide +kernel),
      atEnd ⟨[.name "loop"], by decide +kernel, rfl⟩ (by decide +kernel),
      atEnd ⟨[.name "gone.entrypoint.js"], by decide +kernel, rfl⟩ (by decide +kernel), ?_,
      .of_spells ⟨[.name "d"], by decide +kernel, rfl⟩ (.inl ?_), nofun⟩
    · rintro names ⟨components, below, isNames⟩
      have steps : root.below? ⟨"r/d/../d/b.entrypoint.js"⟩ =
          some [.name "d", .parent, .name "d", .name "b.entrypoint.js"] := by decide +kernel
      cases steps.symm.trans below
      cases isNames
    · exact .of_present (rfl : fs.kind? ["r", "d"] = some .directory) nofun
  have checked : (fs.scan [] root).map (fun _ => ()) = .ok () := by decide +kernel
  obtain ⟨fresh, scanned, -⟩ := map_eq_ok_iff.1 checked
  have straightIn : ∀ notice, .notice notice ∈ batch →
      ∀ path, (path, .create) ∈ notice.events fs → fs.Straight root ["r"] path := by
    intro notice member path created
    rcases List.mem_cons.1 member with impossible | isCreated
    · cases impossible
    · cases List.mem_singleton.1 isCreated
      obtain ⟨_, isPath, ⟨⟩⟩ := List.mem_map.1 created
      exact straight path isPath
  obtain ⟨next, isNext, found⟩ := process_records_found fs "app" [] root ["r"] (Folder.root root)
    fresh batch tidy rootAt scanned (Folder.valid_root root []) rfl nofun straightIn
  have recorded : (((Registry.alone "app" root [] (Folder.root root)).process fs
      batch).registry.apps.map fun app => app.tree.files.map (·.id)) = [["d/b.entrypoint.js"]] := by
    decide +kernel
  refine ⟨fresh, next, tidy, rootAt, scanned, straight, isNext, fun none => ?_, found⟩
  rw [isNext] at recorded
  simp [Registry.alone, none] at recorded

/-- A file behind a link is recorded, whether its own path is reported or that of the link
with a slash behind it, although a scan of the root finds no file. -/
theorem process_records_behind_link :
    let root : Path := ⟨"r"⟩
    let fs : FileSystem :=
      ⟨[⟨"o", .directory [⟨"x.entrypoint.js", .file ""⟩]⟩,
        ⟨"r", .directory [⟨"link", .link ⟨"../o"⟩⟩]⟩], []⟩
    fs.Tidy IsFileName ∧ fs.scan [] root = .ok (Folder.root root) ∧
      ∀ path ∈ [(⟨"r/link/x.entrypoint.js"⟩ : Path), ⟨"r/link/"⟩],
        ∃ next, ((Registry.alone "app" root [] (Folder.root root)).process fs
            [.notice ⟨.created, [path]⟩]).registry = .alone "app" root [] next ∧
          ∃ file ∈ next.files, file ∉ (Folder.root root).files := by
  intro root fs
  refine ⟨?_, by decide +kernel, ?_⟩
  · exact .cons (by decide) (by decide) (.single (by decide) (.file ""))
      (.single (by decide) (.single (by decide) (.link _)))
  intro path member
  have added : fs.createdFiles [] path = [⟨"r/link/x.entrypoint.js"⟩] := by
    revert path
    decide +kernel
  have handled : ((Registry.alone "app" root [] (Folder.root root)).process fs
      [.notice ⟨.created, [path]⟩]).registry = .alone "app" root []
        ((Folder.root root).after [] (⟨"r/link/x.entrypoint.js"⟩, .create)) := by
    refine (Progress.registry_process _ fs [⟨.created, [path]⟩]).trans ?_
    show (Progress.applyEvent fs ⟨.alone "app" root [] (Folder.root root), []⟩
      (path, .create)).registry = _
    simp only [Progress.applyEvent, Registry.alone, affected, added, List.foldl_cons,
      List.foldl_nil]
    exact @Progress.applyOne_alone "app" [] root (Folder.root root)
      ⟨.alone "app" root [] (Folder.root root), []⟩ rfl rfl .create _
  exact ⟨_, handled, by decide +kernel⟩

end FileSystem

end RouteAtlas
