import RouteAtlas.Proofs.FileSystem.Descendants
import RouteAtlas.Proofs.FileTree.FileSet
import RouteAtlas.Proofs.FileTree.Scan

/-!
# Valid file trees

A tree is valid if it is one that a scan can build: the labels follow from the root
and the names, no folder below the root is empty, every file is an entry point, and
nothing ignored is recorded. Scans give valid trees and events keep them valid, so
every tree that is ever held is valid. A valid tree is decided by the ids of its
files, in whatever order they came in.

The conditions are about entries at every depth. What makes them easy to keep is that
they only say which files may be recorded (`Folder.fit_iff`): everything else is
`Folder.Canonical`, and what events record is known.
-/

set_option autoImplicit false

namespace RouteAtlas

variable {patterns others : List String} {tree other : Folder} {path root : Path}

/-- A folder whose entries stand in order, each under its own name, with the label
that the name gives it; no name is ignored, every file is an entry point, no folder
among the entries is empty, and so on below. -/
inductive Folder.Fit (patterns : List String) : Folder → Prop
  | intro (label : Label) (entries : List Entry) (sorted : Entry.Sorted entries)
      (named : ∀ entry ∈ entries, IsEntryName entry.name)
      (labelled : ∀ entry ∈ entries, entry.label = label.child entry.name)
      (kept : ∀ entry ∈ entries, isIgnored patterns entry.name = false)
      (routable : ∀ inner, Entry.file inner ∈ entries → isEntryPointName inner.name = true)
      (filled : ∀ inner, Entry.folder inner ∈ entries → inner.entries ≠ [])
      (inside : ∀ inner, Entry.folder inner ∈ entries → inner.Fit patterns) :
      Folder.Fit patterns ⟨label, entries⟩

/-- A tree as scans build it for some ignore patterns: the root has the label that its
path gives it, and everything below is fit. -/
structure Folder.Valid (patterns : List String) (tree : Folder) : Prop where
  label : tree.label = (Folder.root tree.label.path).label
  fit : tree.Fit patterns

/-- The tree after an event on a path. An event that is refused leaves it as it
was. -/
def Folder.after (patterns : List String) (tree : Folder) (occurrence : Path × Event) : Folder :=
  match tree.apply patterns occurrence.1 occurrence.2 with
  | .ok (next, _) => next
  | .error _ => tree

/-- The answer to an event on a path: whether the tree has changed, or why the event is
refused. -/
def Folder.reply (patterns : List String) (tree : Folder) (occurrence : Path × Event) :
    Except Failure Bool :=
  (tree.apply patterns occurrence.1 occurrence.2).map (·.2)

/-! ## What may be recorded -/

/-- A fit tree is canonical. -/
theorem Folder.Fit.canonical (fit : tree.Fit patterns) : tree.Canonical := by
  induction fit with
  | intro label entries sorted _ labelled _ _ filled _ ih =>
    exact .intro label entries sorted labelled filled ih

/-- The entries of a fit tree have names of entries. -/
theorem Folder.Fit.isNamed (fit : tree.Fit patterns) : tree.Named := by
  induction fit with
  | intro label entries sorted named labelled _ _ _ _ ih =>
    refine .intro label entries sorted named (fun entry member => ?_) ih
    rw [labelled entry member]
    rfl

/-- A file that may be recorded takes part in routing, and names lead to it. -/
def Recordable (patterns names : List String) : Prop :=
  Admitted patterns names ∧ ∀ name ∈ names, IsEntryName name

/-- What a fit tree records may be recorded. -/
theorem Folder.Fit.recordable (fit : tree.Fit patterns) {names : List String}
    (recorded : tree.Records names) : Recordable patterns names := by
  induction fit generalizing names with
  | intro label entries sorted named labelled kept routable filled inside ih =>
    cases names with
    | nil => exact absurd recorded (Entry.not_records_nil entries)
    | cons name rest =>
      cases found : Entry.find? name entries with
      | none => exact absurd recorded (Entry.records_cons_of_none found rest)
      | some entry =>
        obtain ⟨member, rfl⟩ := Entry.mem_of_find?_eq_some found
        cases entry with
        | file inner =>
          obtain rfl := (Entry.records_cons_of_file found rest).1 recorded
          refine ⟨admitted_singleton.2 ⟨kept _ member, routable inner member⟩, ?_⟩
          intro name isName
          rw [List.mem_singleton.1 isName]
          exact named _ member
        | folder inner =>
          have below := (Entry.records_cons_of_folder found rest).1 recorded
          obtain ⟨admitted, areNames⟩ := ih inner member below
          refine ⟨(admitted_cons admitted.ne_nil).2 ⟨kept _ member, admitted⟩, ?_⟩
          exact List.forall_mem_cons.2 ⟨named _ member, areNames⟩

/-- A canonical folder that records nothing else than it may is fit. -/
theorem Folder.Canonical.fit (canonical : tree.Canonical)
    (recordable : ∀ names, tree.Records names → Recordable patterns names) :
    tree.Fit patterns := by
  induction canonical with
  | intro label entries sorted labelled filled inside ih =>
    have canonical := Folder.Canonical.intro label entries sorted labelled filled inside
    -- Some file is recorded at or below each entry, and so tells about its name.
    have leads : ∀ entry ∈ entries, ∃ rest, Entry.Records entries (entry.name :: rest) := by
      intro entry member
      obtain ⟨rest, recorded⟩ := canonical.reaches_of_find? (sorted.find?_name member)
      exact ⟨rest, recorded⟩
    refine .intro label entries sorted ?_ labelled ?_ ?_ filled ?_
    · intro entry member
      obtain ⟨rest, recorded⟩ := leads entry member
      exact (recordable _ recorded).2 entry.name List.mem_cons_self
    · intro entry member
      obtain ⟨rest, recorded⟩ := leads entry member
      exact (recordable _ recorded).1.1 entry.name List.mem_cons_self
    · intro inner member
      have recorded : Entry.Records entries [inner.name] :=
        Entry.records_singleton_iff.2 ⟨inner, sorted.find?_name member⟩
      exact (admitted_singleton.1 (recordable _ recorded).1).2
    · intro inner member
      refine ih inner member fun names below => ?_
      have recorded := (Entry.records_cons_of_folder (sorted.find?_name member) names).2 below
      obtain ⟨admitted, areNames⟩ := recordable _ recorded
      have some : names ≠ [] := by
        rintro rfl
        exact Entry.not_records_nil _ below
      exact ⟨((admitted_cons some).1 admitted).2, (List.forall_mem_cons.1 areNames).2⟩

/-- A tree is fit if it is canonical and records only what may be recorded. -/
theorem Folder.fit_iff : tree.Fit patterns ↔
    tree.Canonical ∧ ∀ names, tree.Records names → Recordable patterns names :=
  ⟨fun fit => ⟨fit.canonical, fun _ => fit.recordable⟩,
    fun ⟨canonical, recordable⟩ => canonical.fit recordable⟩

/-! ## Scans and events -/

/-- A successful scan gives a valid tree. -/
theorem FileSystem.valid_of_scan {fs : FileSystem} (tidy : fs.Tidy IsName)
    (scanned : fs.scan patterns root = .ok tree) : tree.Valid patterns := by
  obtain ⟨slots, isDirectory, -⟩ := scan_eq_ok_iff.1 scanned
  obtain ⟨top, isTop, -⟩ := lookUp_eq_ok_iff.1 isDirectory
  obtain ⟨label, canonical, records⟩ := scan_records tidy isTop scanned
  refine ⟨by rw [label]; rfl, canonical.fit fun names recorded => ?_⟩
  obtain ⟨admitted, isFile⟩ := (records names).1 recorded
  refine ⟨admitted, fun name member => IsName.isEntryName ?_⟩
  have present : fs.kind? (top ++ names) ≠ none := by simp [isFile]
  exact tidy.valid_of_kind? present name (List.mem_append_right _ member)

/-- An event is refused, concerns no entry of the tree, or is one on the names that its
path spells. -/
theorem Folder.apply_cases (tree : Folder) (patterns : List String) (path : Path)
    (event : Event) :
    (∃ failure, tree.apply patterns path event = .error failure) ∨
      tree.apply patterns path event = .ok (tree, false) ∨
      ∃ names, tree.label.path.Spells path names ∧
        tree.apply patterns path event = .ok (tree.edited patterns names event) := by
  by_cases escapes : tree.label.path.Escapes path
  · exact .inl ⟨_, apply_of_escapes escapes⟩
  · right
    rcases Path.exists_spells_of_not_escapes escapes with ⟨names, spells⟩ | apart
    · exact .inr ⟨names, spells, apply_of_spells spells event⟩
    · exact .inl (apply_of_not_below apart)

/-- The root keeps its label through every event. -/
@[simp] theorem Folder.after_label (tree : Folder) (patterns : List String)
    (occurrence : Path × Event) : (tree.after patterns occurrence).label = tree.label := by
  unfold Folder.after
  rcases tree.apply_cases patterns occurrence.1 occurrence.2 with
    ⟨failure, refused⟩ | unchanged | ⟨names, -, edited⟩
  · rw [refused]
  · rw [unchanged]
  · rw [edited]
    exact tree.edited_label patterns names occurrence.2

/-- A canonical tree stays so through every event. -/
theorem Folder.Canonical.after (canonical : tree.Canonical) (patterns : List String)
    (occurrence : Path × Event) : (tree.after patterns occurrence).Canonical := by
  unfold Folder.after
  rcases tree.apply_cases patterns occurrence.1 occurrence.2 with
    ⟨failure, refused⟩ | unchanged | ⟨names, -, edited⟩
  · rwa [refused]
  · rwa [unchanged]
  · rw [edited]
    exact canonical.edited patterns names occurrence.2

/-- An event answers that it has changed a tree exactly if the tree differs. -/
theorem Folder.reply_eq_ok_true_iff (canonical : tree.Canonical) (patterns : List String)
    (occurrence : Path × Event) :
    tree.reply patterns occurrence = .ok true ↔ tree.after patterns occurrence ≠ tree := by
  unfold Folder.after Folder.reply
  rcases tree.apply_cases patterns occurrence.1 occurrence.2 with
    ⟨failure, refused⟩ | unchanged | ⟨names, -, edited⟩
  · simp [refused, Except.map]
  · simp [unchanged, Except.map]
  · rw [edited, ← Folder.edited_changed_iff_ne canonical]
    simp [Except.map]

/-- After an edit nothing else is recorded than before, apart from an admitted file at
the end of the names. -/
theorem Folder.records_of_edited (canonical : tree.Canonical) {names : List String}
    {event : Event} {recorded : List String}
    (isRecorded : (tree.edited patterns names event).1.Records recorded) :
    tree.Records recorded ∨ recorded = names ∧ Admitted patterns names := by
  rcases (records_edited canonical recorded).1 isRecorded with ⟨old, -⟩ | ⟨isNew, isCreate, acts, -⟩
  · exact .inl old
  · subst isCreate
    exact .inr ⟨isNew, acts⟩

/-- A fit tree stays so through every event on names of entries. -/
theorem Folder.Fit.edited (fit : tree.Fit patterns) {names : List String}
    (areNames : ∀ name ∈ names, IsEntryName name) (event : Event) :
    (tree.edited patterns names event).1.Fit patterns := by
  obtain ⟨canonical, recordable⟩ := Folder.fit_iff.1 fit
  refine (canonical.edited patterns names event).fit fun recorded isRecorded => ?_
  rcases Folder.records_of_edited canonical isRecorded with old | ⟨rfl, admitted⟩
  · exact recordable recorded old
  · exact ⟨admitted, areNames⟩

/-- An empty tree is valid. -/
theorem Folder.valid_root (root : Path) (patterns : List String) :
    (Folder.root root).Valid patterns := by
  refine ⟨rfl, (Canonical.of_nil _).fit fun names recorded => ?_⟩
  cases names with
  | nil => exact absurd recorded (Entry.not_records_nil _)
  | cons name rest => exact absurd recorded (Entry.records_cons_of_none rfl rest)

/-- An event leaves a valid tree with the label of the root. -/
theorem Folder.Valid.after (valid : tree.Valid patterns) (occurrence : Path × Event) :
    (tree.after patterns occurrence).Valid patterns ∧
      (tree.after patterns occurrence).label = tree.label := by
  unfold Folder.after
  rcases tree.apply_cases patterns occurrence.1 occurrence.2 with
    ⟨failure, refused⟩ | unchanged | ⟨names, spells, edited⟩
  · rw [refused]
    exact ⟨valid, rfl⟩
  · rw [unchanged]
    exact ⟨valid, rfl⟩
  · rw [edited]
    have same := tree.edited_label patterns names occurrence.2
    have areNames : ∀ name ∈ names, IsEntryName name :=
      fun name member => (spells.isName name member).isEntryName
    refine ⟨⟨?_, valid.fit.edited areNames occurrence.2⟩, same⟩
    rw [same]
    exact valid.label

/-- A run of events leaves a valid tree with the label of the root. -/
theorem Folder.Valid.run (valid : tree.Valid patterns) (events : List (Path × Event)) :
    (events.foldl (Folder.after patterns) tree).Valid patterns ∧
      (events.foldl (Folder.after patterns) tree).label = tree.label := by
  induction events generalizing tree with
  | nil => exact ⟨valid, rfl⟩
  | cons occurrence rest ih =>
    obtain ⟨validNext, label⟩ := valid.after occurrence
    obtain ⟨validLast, labelLast⟩ := ih validNext
    exact ⟨validLast, labelLast.trans label⟩

/-! ## The files decide the tree -/

/-- Valid trees with the same root path are equal if their files have the same ids. -/
theorem Folder.Valid.ext (valid : tree.Valid patterns) (validOther : other.Valid others)
    (paths : tree.label.path = other.label.path)
    (same : ∀ id, id ∈ tree.files.map (·.id) ↔ id ∈ other.files.map (·.id)) : tree = other := by
  have labels : tree.label = other.label := by
    rw [valid.label, validOther.label, paths]
  have named := valid.fit.isNamed
  have namedOther := validOther.fit.isNamed
  refine valid.fit.canonical.ext validOther.fit.canonical labels fun names => ?_
  constructor
  · exact named.records_of_ids namedOther (by rw [labels]) fun id => (same id).1
  · exact namedOther.records_of_ids named (by rw [labels]) fun id => (same id).2

/-- A scan gives a valid tree with its root, and an event on any path, refused or not,
leaves a valid tree with the same root. Valid trees with the same root path are equal if
their files have the same ids; so the trees that two runs of events lead to are equal as
soon as the same files are recorded in the end. -/
theorem Folder.valid_kept_and_decided_by_files (patterns : List String) :
    (∀ (fs : FileSystem) (root : Path) (tree : Folder), fs.Tidy IsName →
      fs.scan patterns root = .ok tree → tree.Valid patterns ∧ tree.label.path = root) ∧
    (∀ (tree : Folder) (path : Path) (event : Event), tree.Valid patterns →
      (tree.after patterns (path, event)).Valid patterns ∧
        (tree.after patterns (path, event)).label = tree.label) ∧
    (∀ (others : List String) (tree other : Folder), tree.Valid patterns → other.Valid others →
      tree.label.path = other.label.path →
      (∀ id, id ∈ tree.files.map (·.id) ↔ id ∈ other.files.map (·.id)) → tree = other) ∧
    ∀ (others : List String) (tree other : Folder) (events eventsOther : List (Path × Event)),
      tree.Valid patterns → other.Valid others → tree.label.path = other.label.path →
      (∀ id, id ∈ (events.foldl (Folder.after patterns) tree).files.map (·.id) ↔
        id ∈ (eventsOther.foldl (Folder.after others) other).files.map (·.id)) →
      events.foldl (Folder.after patterns) tree =
        eventsOther.foldl (Folder.after others) other := by
  refine ⟨?_, ?_, ?_, ?_⟩
  · intro fs root tree tidy scanned
    refine ⟨FileSystem.valid_of_scan tidy scanned, ?_⟩
    obtain ⟨slots, -, -, rfl⟩ := FileSystem.scan_eq_ok_iff.1 scanned
    rfl
  · intro tree path event valid
    exact valid.after (path, event)
  · intro others tree other valid validOther paths same
    exact valid.ext validOther paths same
  · intro others tree other events eventsOther valid validOther paths same
    obtain ⟨validEnd, label⟩ := valid.run events
    obtain ⟨validOtherEnd, labelOther⟩ := validOther.run eventsOther
    refine validEnd.ext validOtherEnd ?_ same
    rw [label, labelOther, paths]

/-- Two files are created in either order where a third one stood; one of them needs a
folder in the place of that file, and a path that leaves the root is refused on the
way. -/
theorem Folder.valid_kept_and_decided_by_files_either_order :
    let fs : FileSystem := ⟨[⟨"r", .directory [⟨"a.entrypoint.js", .file ""⟩]⟩], []⟩
    let inside : Path × Event := (⟨"r/a.entrypoint.js/x.entrypoint.ts"⟩, .create)
    let beside : Path × Event := (⟨"r//b.entrypoint.js"⟩, .create)
    let refused : Path × Event := (⟨"r/../c.entrypoint.js"⟩, .create)
    ∃ tree, fs.Tidy IsName ∧ fs.scan [] ⟨"r"⟩ = .ok tree ∧ tree.Valid [] ∧
      (tree.after [] inside).Valid [] ∧ tree.after [] inside ≠ tree ∧
      tree.after [] refused = tree ∧
      [inside, refused, beside].foldl (Folder.after []) tree =
        [beside, inside].foldl (Folder.after []) tree := by
  intro fs inside beside refused
  obtain ⟨scans, keeps, decides, runs⟩ := Folder.valid_kept_and_decided_by_files []
  have tidy : fs.Tidy IsName := .single (by decide) (.single (by decide) (.file ""))
  have checked : (fs.scan [] ⟨"r"⟩).map (fun tree =>
      (decide (tree.after [] inside ≠ tree),
        decide ((tree.after [] refused).files.map (·.id) = tree.files.map (·.id)),
        decide (([inside, refused, beside].foldl (Folder.after []) tree).files.map (·.id) =
          ([beside, inside].foldl (Folder.after []) tree).files.map (·.id)))) =
      .ok (true, true, true) := by decide +kernel
  obtain ⟨tree, scanned, facts⟩ := map_eq_ok_iff.1 checked
  simp only [Prod.mk.injEq, decide_eq_true_eq] at facts
  obtain ⟨isEdited, sameFiles, sameEnd⟩ := facts
  obtain ⟨valid, -⟩ := scans fs ⟨"r"⟩ tree tidy scanned
  have validRefused := keeps tree refused.1 refused.2 valid
  refine ⟨tree, tidy, scanned, valid, (keeps tree inside.1 inside.2 valid).1, isEdited, ?_, ?_⟩
  · refine decides [] _ tree validRefused.1 valid (by rw [validRefused.2]) fun id => ?_
    rw [sameFiles]
  · refine runs [] tree tree _ _ valid valid rfl fun id => ?_
    rw [sameEnd]

end RouteAtlas
