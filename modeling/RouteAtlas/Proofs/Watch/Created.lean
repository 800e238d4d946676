import RouteAtlas.Watch.Batch
import RouteAtlas.Proofs.FileSystem.Descendants
import RouteAtlas.Proofs.FileTree.Scan

/-!
# Files that a created path adds

A created path is looked at when its event is handled, and what it adds are the
files that are there by then. Where only real directories stand above the path, the
files are those at and below its names (`FileSystem.kind?_of_mem_createdFiles`), and
all files on offer there are among them, unless a path is too long
(`FileSystem.mem_createdFiles_of_offers`). A path that is not below the root can
still add files below it: then it is above the root, and the files are really there
(`FileSystem.kind?_of_mem_createdFiles_elsewhere`).
-/

set_option autoImplicit false

namespace RouteAtlas

/-- A file that takes part in routing does so from every folder on its way. -/
theorem Admitted.of_append {patterns names more : List String}
    (admitted : Admitted patterns (names ++ more)) (some : more ≠ []) :
    Admitted patterns more := by
  obtain ⟨notIgnored, isFile⟩ := admitted
  refine ⟨fun name member => notIgnored name (List.mem_append_right _ member), ?_⟩
  rwa [List.getLast?_append_of_ne_nil _ some] at isFile

namespace FileSystem

variable {fs : FileSystem} {patterns : List String} {root path : Path} {top place : Location}
  {names : List String}

/-! ## Scans below a root -/

/-- Where a scan of a root succeeds, so does one of every directory below, if nothing
on the way is ignored. -/
theorem scan_descendant (rootAt : fs.RootAt root top) (tidy : fs.Tidy IsFileName)
    {tree : Folder} (scanned : fs.scan patterns root = .ok tree)
    (notIgnored : ∀ name ∈ names, isIgnored patterns name = false)
    (isDirectory : fs.kind? (top ++ names) = some .directory) :
    ∃ folder, fs.scan patterns (root.descendant names) = .ok folder := by
  obtain ⟨slots, isRoot, reached, -⟩ := scan_eq_ok_iff.1 scanned
  obtain ⟨location, isLocation, found⟩ := lookUp_eq_ok_iff.1 isRoot
  cases rootAt.1.symm.trans isLocation
  have short := short_of_scan rootAt.1 scanned notIgnored isDirectory
  obtain ⟨inner, isInner⟩ := kind?_eq_directory_iff.1 isDirectory
  have lookedUp : fs.lookUp .follow (root.descendant names) = .ok (.directory inner) :=
    lookUp_eq_ok_iff.2 ⟨_, (rootAt.descendant tidy isDirectory short).1, isInner⟩
  rw [item?_append, found, Option.bind_some] at isInner
  exact ⟨_, scan_eq_ok_iff.2 ⟨inner, lookedUp, Item.outOfReach_at? reached notIgnored isInner, rfl⟩⟩

/-- A scan lists the files on offer where the path leads. -/
theorem mem_paths_of_scan {valid : String → Prop} (tidy : fs.Tidy valid) {tree : Folder}
    (scanned : fs.scan patterns root = .ok tree) :
    ∃ top, fs.RootAt root top ∧ ∀ path, path ∈ tree.files.map (·.path) ↔
      ∃ names, fs.Offers patterns top names ∧ path = root.descendant names := by
  obtain ⟨slots, isRoot, -⟩ := scan_eq_ok_iff.1 scanned
  obtain ⟨top, isTop, found⟩ := lookUp_eq_ok_iff.1 isRoot
  obtain ⟨label, canonical, records⟩ := scan_records tidy isTop scanned
  refine ⟨top, ⟨isTop, kind?_eq_directory_iff.2 ⟨slots, found⟩⟩, fun path => ?_⟩
  rw [canonical.mem_paths_iff, label]
  simp only [records]
  rfl

/-! ## Created paths -/

/-- The files that a created path adds are the path itself or those that a scan of it
lists. -/
theorem mem_createdFiles {file : Path} (member : file ∈ fs.createdFiles patterns path) :
    (∃ contents, fs.lookUp .keepLink path = .ok (.file contents) ∧ file = path) ∨
      ∃ slots tree, fs.lookUp .keepLink path = .ok (.directory slots) ∧
        fs.scan patterns path = .ok tree ∧ file ∈ tree.files.map (·.path) := by
  rw [createdFiles] at member
  split at member
  next contents isFile => exact .inl ⟨contents, isFile, List.mem_singleton.1 member⟩
  next slots isDirectory =>
    split at member
    next tree scanned => exact .inr ⟨slots, tree, isDirectory, scanned, member⟩
    next => cases member
  next => cases member

/-- A created path below the root adds files at and below its names. If all directories
above it are real, so are the files. -/
theorem kind?_of_mem_createdFiles (rootAt : fs.RootAt root top) (tidy : fs.Tidy IsFileName)
    (below : names ≠ []) (areNames : ∀ name ∈ names, IsFileName name)
    (member : path ∈ fs.createdFiles patterns (root.descendant names)) :
    ∃ more, path = root.descendant (names ++ more) ∧ (∀ name ∈ more, IsFileName name) ∧
      ((∀ before, before <+: names → before ≠ names →
        fs.kind? (top ++ before) = some .directory) →
          fs.kind? (top ++ (names ++ more)) = some .file) := by
  rcases mem_createdFiles member with ⟨contents, isFile, rfl⟩ |
    ⟨slots, tree, isDirectory, scanned, listed⟩
  · refine ⟨[], by rw [List.append_nil], List.forall_mem_nil _, fun directories => ?_⟩
    obtain ⟨-, found⟩ := (rootAt.lookUp_keepLink below areNames directories).1 isFile
    rw [List.append_nil, kind?, found]
    rfl
  · obtain ⟨place, pathAt, lists⟩ := mem_paths_of_scan tidy scanned
    obtain ⟨more, ⟨-, isFile⟩, rfl⟩ := (lists path).1 listed
    have areMore : ∀ name ∈ more, IsFileName name := fun name inMore =>
      tidy.valid_of_kind? (by rw [isFile]; simp) name (List.mem_append_right _ inMore)
    refine ⟨more, (root.descendant_append names more).symm, areMore, fun directories => ?_⟩
    obtain ⟨-, found⟩ := (rootAt.lookUp_keepLink below areNames directories).1 isDirectory
    have allDirectories : ∀ before, before ≠ [] → before <+: names →
        fs.kind? (top ++ before) = some .directory := by
      intro before _ isBefore
      by_cases whole : before = names
      · rw [whole, kind?, found]
        rfl
      · exact directories before isBefore whole
    obtain rfl := rootAt.eq_append
      (root.spells_descendant fun name inNames => (areNames name inNames).toIsName)
      (fun name inNames => (areNames name inNames).short) allDirectories pathAt
    rwa [← List.append_assoc]

/-- A created path below the root adds every file on offer at or below its names, if a
scan of the root succeeds and the path of the file is short enough. -/
theorem mem_createdFiles_of_offers (rootAt : fs.RootAt root top) (tidy : fs.Tidy IsFileName)
    {tree : Folder} (scanned : fs.scan patterns root = .ok tree) (below : names ≠ [])
    {more : List String} (offers : fs.Offers patterns top (names ++ more))
    (short : (root.descendant (names ++ more)).text.utf8ByteSize < pathLimit) :
    root.descendant (names ++ more) ∈ fs.createdFiles patterns (root.descendant names) := by
  obtain ⟨admitted, isFile⟩ := offers
  have present : fs.kind? (top ++ (names ++ more)) ≠ none := by
    rw [isFile]
    exact nofun
  have areNames : ∀ name ∈ names, IsFileName name := fun name member =>
    tidy.valid_of_kind? present name
      (List.mem_append_right _ (List.mem_append_left _ member))
  have fineRoot := (resolve_eq_ok_iff.1 rootAt.1).1
  have directories : ∀ before, before <+: names → before ≠ names →
      fs.kind? (top ++ before) = some .directory := by
    rintro before ⟨rest, rfl⟩ proper
    refine directories_of_present present ⟨rest ++ more, (List.append_assoc _ _ _).symm⟩ ?_
    intro whole
    rw [List.append_assoc, List.self_eq_append_right, List.append_eq_nil_iff] at whole
    exact proper (by rw [whole.1, List.append_nil])
  have lookUp_iff : ∀ item, fs.lookUp .keepLink (root.descendant names) = .ok item ↔
      textError? .keepLink (root.descendant names) = none ∧ fs.item? (top ++ names) = some item :=
    fun _ => rootAt.lookUp_keepLink below areNames directories
  cases more with
  | nil =>
    rw [List.append_nil] at isFile short ⊢
    obtain ⟨item, found, isKind⟩ := Option.map_eq_some_iff.1 isFile
    have fine := Path.textError?_descendant fineRoot areNames short .keepLink
    have lookedUp := (lookUp_iff item).2 ⟨fine, found⟩
    cases item with
    | file contents =>
      rw [createdFiles, lookedUp]
      exact List.mem_singleton_self _
    | link => cases isKind
    | directory => cases isKind
  | cons name rest =>
    have notIgnored : ∀ step ∈ names, isIgnored patterns step = false := fun step member =>
      admitted.1 step (List.mem_append_left _ member)
    have isDirectory : fs.kind? (top ++ names) = some .directory :=
      directories_of_present present (List.prefix_append _ _) (by simp)
    have shortNames := short_of_scan rootAt.1 scanned notIgnored isDirectory
    obtain ⟨slots, found⟩ := kind?_eq_directory_iff.1 isDirectory
    have fine := Path.textError?_descendant fineRoot areNames shortNames .keepLink
    obtain ⟨folder, scannedBelow⟩ := scan_descendant rootAt tidy scanned notIgnored isDirectory
    obtain ⟨place, placeAt, lists⟩ := mem_paths_of_scan tidy scannedBelow
    cases placeAt.1.symm.trans (rootAt.descendant tidy isDirectory shortNames).1
    rw [createdFiles, (lookUp_iff _).2 ⟨fine, found⟩]
    simp only [scannedBelow]
    refine (lists _).2 ⟨name :: rest, ⟨?_, ?_⟩, root.descendant_append names (name :: rest)⟩
    · exact admitted.of_append (List.cons_ne_nil name rest)
    · rwa [List.append_assoc]

/-- A created path that is not below the root adds only files that are not below it
either, or that are really there. -/
theorem kind?_of_mem_createdFiles_elsewhere (rootAt : fs.RootAt root top)
    (tidy : fs.Tidy IsFileName) {outside : Path} (notBelow : root.isBelow outside = false)
    (member : path ∈ fs.createdFiles patterns outside) :
    root.isBelow path = false ∨ ∃ names, root.Spells path names ∧
      (names ≠ [] → fs.kind? (top ++ names) = some .file) := by
  rcases mem_createdFiles member with ⟨_, _, rfl⟩ | ⟨_, tree, _, scanned, listed⟩
  · exact .inl notBelow
  by_cases isBelow : root.isBelow path = true
  · obtain ⟨place, outsideAt, lists⟩ := mem_paths_of_scan tidy scanned
    obtain ⟨names, ⟨-, isFile⟩, rfl⟩ := (lists path).1 listed
    have present : fs.kind? (place ++ names) ≠ none := by
      rw [isFile]
      exact nofun
    have areNames : ∀ name ∈ names, IsFileName name := fun name inNames =>
      tidy.valid_of_kind? present name (List.mem_append_right _ inNames)
    have isPath := outside.components_descendant fun name inNames =>
      (areNames name inNames).toIsName
    -- The path lies below both, so the root lies below the one that was created.
    obtain ⟨mid, isRoot⟩ : outside.components <+: root.components := by
      have rootFirst := List.isPrefixOf_iff_prefix.1 isBelow
      rw [isPath] at rootFirst
      refine (List.prefix_or_prefix_of_prefix (List.prefix_append _ _) rootFirst).resolve_right ?_
      intro inFront
      rw [Path.isBelow, List.isPrefixOf_iff_prefix.2 inFront] at notBelow
      cases notBelow
    obtain ⟨after, isAll⟩ := List.isPrefixOf_iff_prefix.1 isBelow
    rw [isPath, ← isRoot, List.append_assoc, List.append_cancel_left_eq] at isAll
    obtain ⟨front, rest, rfl, rfl, rfl⟩ := List.map_eq_append_iff.1 isAll.symm
    have rootSpelled : outside.Spells root front :=
      ⟨_, List.isPrefixOf?_eq_some_iff_append_eq.2 isRoot, Folder.namesBelow?_map_name front⟩
    have pathSpelled : root.Spells (outside.descendant (front ++ rest)) rest := by
      refine ⟨_, List.isPrefixOf?_eq_some_iff_append_eq.2 ?_, Folder.namesBelow?_map_name rest⟩
      rw [isPath, List.map_append, ← isRoot, List.append_assoc]
    refine .inr ⟨rest, pathSpelled, fun more => ?_⟩
    have isTop : top = place ++ front := by
      refine outsideAt.eq_append rootSpelled
        (fun name inFront => (areNames name (List.mem_append_left _ inFront)).short) ?_ rootAt
      intro before _ isBefore
      refine directories_of_present present (isBefore.trans (List.prefix_append _ _)) ?_
      rintro rfl
      exact more (List.append_right_eq_self.1 (isBefore.eq_of_length_le (by simp)))
    rwa [isTop, List.append_assoc]
  · exact .inl (Bool.eq_false_iff.2 isBelow)

end FileSystem

end RouteAtlas
