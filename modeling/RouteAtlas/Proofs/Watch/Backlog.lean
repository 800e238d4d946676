import RouteAtlas.Proofs.FileTree.Scan

/-!
# Events that are still to come

A tree that is kept current by queued events is wrong in the meantime: an event is
handled when the files have long changed again. What holds all along is that every
mistake is mended by an event still in the queue. `Folder.Backlog` says this of a
tree, the files and the signals in the queue:

* a file on offer that is not recorded for good is announced by a created entry
  at its place or above, with no removed one behind it (`missing`);
* wherever the files do not bear out a record, a removed entry at that place or
  above is still to come (`stale`);
* above a created entry stand real directories, or a removed one is still to come
  behind it (`anchored`).

The files may change in two ways, each with a signal at the end of the queue: an
item appears at a free place (`Folder.Backlog.graft`) or one disappears
(`Folder.Backlog.prune`). The signal in front is handled against the files as they
are by then (`Folder.Backlog.removed`, `Folder.Backlog.created`).
-/

set_option autoImplicit false

namespace RouteAtlas

/-- What a queued event says about the entry at the end of some names. -/
inductive Signal where
  | created (names : List String)
  | removed (names : List String)
  deriving DecidableEq, Repr

namespace Signal

/-- A removed entry at the end of the names or above is still to come. -/
def Pending : List Signal → List String → Prop
  | [], _ => False
  | .created _ :: rest, names => Pending rest names
  | .removed above :: rest, names => above <+: names ∨ Pending rest names

/-- A created entry at the end of the names or above is still to come, and no removed
one after it. -/
def Covered : List Signal → List String → Prop
  | [], _ => False
  | .created above :: rest, names => above <+: names ∧ ¬ Pending rest names ∨ Covered rest names
  | .removed _ :: rest, names => Covered rest names

variable {signals rest : List Signal} {names above : List String}

/-- Names below pending ones are pending. -/
theorem Pending.below {below : List String} (pending : Pending signals names)
    (isAbove : names <+: below) : Pending signals below := by
  induction signals with
  | nil => exact pending
  | cons signal rest ih =>
    cases signal with
    | created => exact ih pending
    | removed above => exact pending.imp (fun gone => gone.trans isAbove) ih

/-- Names are pending in two queues if they are so in either. -/
theorem pending_append :
    Pending (signals ++ rest) names ↔ Pending signals names ∨ Pending rest names := by
  induction signals with
  | nil => simp [Pending]
  | cons signal signals ih =>
    cases signal with
    | created => exact ih
    | removed above => rw [List.cons_append, Pending, Pending, ih, or_assoc]

/-- The creation of something makes nothing pending. -/
theorem pending_concat_created :
    Pending (signals ++ [.created above]) names ↔ Pending signals names := by
  simp [pending_append, Pending]

/-- A removal makes pending what is at and below its names. -/
theorem pending_concat_removed :
    Pending (signals ++ [.removed above]) names ↔ Pending signals names ∨ above <+: names := by
  simp [pending_append, Pending]

/-- A created entry behind the others covers what is at its place or below, and takes
no cover away. -/
theorem covered_concat_created :
    Covered (signals ++ [.created above]) names ↔ Covered signals names ∨ above <+: names := by
  induction signals with
  | nil => simp [Covered, Pending]
  | cons signal signals ih =>
    cases signal with
    | created => rw [List.cons_append, Covered, Covered, ih, pending_concat_created, or_assoc]
    | removed => exact ih

/-- A removed entry behind the others takes the cover only from what is at its place
or below. -/
theorem Covered.concat_removed (covered : Covered signals names) (kept : ¬ above <+: names) :
    Covered (signals ++ [.removed above]) names := by
  induction signals with
  | nil => exact covered
  | cons signal signals ih =>
    cases signal with
    | created =>
      refine covered.imp (fun here => ⟨here.1, ?_⟩) ih
      rw [List.append_eq, pending_concat_removed]
      exact not_or.2 ⟨here.2, kept⟩
    | removed => exact ih covered

end Signal

namespace FileSystem

variable {fs other : FileSystem} {top : Location} {signals : List Signal}

/-- Above every created entry that is to come stand real directories, unless a removed
one is to come after it. -/
def Anchored (fs : FileSystem) (top : Location) : List Signal → Prop
  | [] => True
  | .created names :: rest =>
    (∀ above, above <+: names → above ≠ names →
      fs.kind? (top ++ above) = some .directory ∨ Signal.Pending rest above) ∧
      fs.Anchored top rest
  | .removed _ :: rest => fs.Anchored top rest

/-- Created entries stay anchored where no directory above them vanishes without a
removed entry. -/
theorem Anchored.append {rest : List Signal} (anchored : fs.Anchored top signals)
    (kept : ∀ above, fs.kind? (top ++ above) = some .directory →
      other.kind? (top ++ above) = some .directory ∨ Signal.Pending rest above)
    (anchoredRest : other.Anchored top rest) : other.Anchored top (signals ++ rest) := by
  induction signals with
  | nil => exact anchoredRest
  | cons signal signals ih =>
    cases signal with
    | created names =>
      refine ⟨fun above isAbove proper => ?_, ih anchored.2⟩
      rw [List.append_eq, Signal.pending_append]
      rcases anchored.1 above isAbove proper with isDirectory | pending
      · exact (kept above isDirectory).imp_right .inr
      · exact .inr (.inl pending)
    | removed => exact ih anchored

/-- The files bear out a file at the end of some names as far as `above`, or a removed
entry is to come there. -/
def Excuses (fs : FileSystem) (top : Location) (signals : List Signal) (names : List String) :
    Prop :=
  ∀ above, above <+: names →
    fs.kind? (top ++ above) = some (if above = names then .file else .directory) ∨
      Signal.Pending signals above

/-- Where a file is, nothing has to be excused. -/
theorem excuses_of_file {names : List String} (isFile : fs.kind? (top ++ names) = some .file)
    (signals : List Signal) : fs.Excuses top signals names := by
  rintro above ⟨rest, rfl⟩
  left
  split
  next last => rw [last, isFile]
  next notLast =>
    have more : rest ≠ [] := by
      rintro rfl
      exact notLast (List.append_nil above).symm
    rw [← List.append_assoc] at isFile
    exact kind?_of_append more (by rw [isFile]; exact nofun)

/-- A file at or below a created entry is excused if it is really there as soon as all
directories above the entry are. -/
theorem excuses_of_anchored {names more : List String}
    (anchors : ∀ above, above <+: names → above ≠ names →
      fs.kind? (top ++ above) = some .directory ∨ Signal.Pending signals above)
    (isFile : (∀ above, above <+: names → above ≠ names →
      fs.kind? (top ++ above) = some .directory) →
        fs.kind? (top ++ (names ++ more)) = some .file) :
    fs.Excuses top signals (names ++ more) := by
  by_cases real : ∀ above, above <+: names → above ≠ names →
      fs.kind? (top ++ above) = some .directory
  · exact excuses_of_file (isFile real) signals
  simp only [not_forall] at real
  obtain ⟨gone, isGone, proper, notDirectory⟩ := real
  have pending := (anchors gone isGone proper).resolve_left notDirectory
  intro above isAbove
  by_cases inFront : above <+: names ∧ above ≠ names
  · have notLast : above ≠ names ++ more := by
      rintro rfl
      exact inFront.2 (inFront.1.eq_of_length_le (by simp))
    rw [if_neg notLast]
    exact anchors above inFront.1 inFront.2
  · right
    refine pending.below (isGone.trans ?_)
    rcases List.prefix_or_prefix_of_prefix isAbove (List.prefix_append names more) with
      before | behind
    · obtain rfl : above = names := Decidable.byContradiction fun other => inFront ⟨before, other⟩
      exact List.prefix_rfl
    · exact behind

/-- Where a file is excused and a real file stands on its way, it is that file, or a
removed entry is to come there. -/
theorem Excuses.file_is_last {names above : List String} (excused : fs.Excuses top signals names)
    (isFile : fs.kind? (top ++ above) = some .file) (isAbove : above <+: names) :
    above = names ∨ Signal.Pending signals above := by
  refine (excused above isAbove).imp_left fun bornOut => ?_
  rw [isFile] at bornOut
  split at bornOut
  next isLast => exact isLast
  next => cases bornOut

end FileSystem

namespace Folder

/-- What a tree records takes part in routing, and the files bear it out or a removed
entry is to come. -/
structure Grounded (fs : FileSystem) (patterns : List String) (top : Location)
    (signals : List Signal) (tree : Folder) : Prop where
  canonical : tree.Canonical
  admitted : ∀ names, tree.Records names → Admitted patterns names
  stale : ∀ names, tree.Records names → fs.Excuses top signals names

/-- A tree is behind the files by no more than the signals to come. -/
structure Backlog (fs : FileSystem) (patterns : List String) (top : Location)
    (signals : List Signal) (tree : Folder) : Prop
    extends Grounded fs patterns top signals tree where
  missing : ∀ names, fs.Offers patterns top names →
    tree.Records names ∧ ¬ Signal.Pending signals names ∨ Signal.Covered signals names
  anchored : fs.Anchored top signals

variable {fs other : FileSystem} {patterns : List String} {top : Location}
  {signals : List Signal} {tree : Folder} {names : List String}

/-! ## Changes of the files -/

/-- A change that does not touch what is below the root leaves the signals as they
are. -/
theorem Backlog.elsewhere (backlog : tree.Backlog fs patterns top signals)
    (kinds : ∀ others, other.kind? (top ++ others) = fs.kind? (top ++ others)) :
    tree.Backlog other patterns top signals where
  canonical := backlog.canonical
  admitted := backlog.admitted
  stale names recorded above isAbove := by
    rw [kinds]
    exact backlog.stale names recorded above isAbove
  missing names offered := by
    rw [FileSystem.Offers, kinds] at offered
    exact backlog.missing names offered
  anchored := by
    rw [← List.append_nil signals]
    refine backlog.anchored.append (fun above isDirectory => .inl ?_) trivial
    rwa [kinds]

/-- When an item disappears below the root, a removed entry joins the queue. -/
theorem Backlog.prune (backlog : tree.Backlog fs patterns top signals)
    (kinds : ∀ others, other.kind? (top ++ others) =
      if names <+: others then none else fs.kind? (top ++ others)) :
    tree.Backlog other patterns top (signals ++ [.removed names]) where
  canonical := backlog.canonical
  admitted := backlog.admitted
  stale others recorded above isAbove := by
    rw [kinds, Signal.pending_concat_removed]
    split
    next gone => exact .inr (.inr gone)
    next => exact (backlog.stale others recorded above isAbove).imp_right .inl
  missing others offered := by
    rw [FileSystem.Offers, kinds] at offered
    obtain ⟨admitted, isFile⟩ := offered
    split at isFile
    next => cases isFile
    next stays =>
      rw [Signal.pending_concat_removed]
      refine (backlog.missing others ⟨admitted, isFile⟩).imp (fun kept => ?_) fun covered => ?_
      · exact ⟨kept.1, not_or.2 ⟨kept.2, stays⟩⟩
      · exact covered.concat_removed stays
  anchored := by
    refine backlog.anchored.append (fun above isDirectory => ?_) trivial
    rw [kinds]
    split
    next gone => exact .inr (.inl gone)
    next => exact .inl isDirectory

/-- What is there does not lie below a free place. -/
theorem not_prefix_of_present {others : List String} (free : fs.kind? (top ++ names) = none)
    (present : fs.kind? (top ++ others) ≠ none) : ¬ names <+: others := by
  rintro ⟨rest, rfl⟩
  rw [← List.append_assoc, FileSystem.kind?_append_of_none free] at present
  exact present rfl

/-- When an item appears at a free place below the root, a created entry joins the
queue. -/
theorem Backlog.graft (backlog : tree.Backlog fs patterns top signals)
    (free : fs.kind? (top ++ names) = none)
    (parents : ∀ above, above <+: names → above ≠ names →
      fs.kind? (top ++ above) = some .directory)
    (kinds : ∀ others, ¬ names <+: others →
      other.kind? (top ++ others) = fs.kind? (top ++ others)) :
    tree.Backlog other patterns top (signals ++ [.created names]) where
  canonical := backlog.canonical
  admitted := backlog.admitted
  stale others recorded above isAbove := by
    rw [Signal.pending_concat_created]
    rcases backlog.stale others recorded above isAbove with bornOut | pending
    · left
      rw [kinds above, bornOut]
      exact not_prefix_of_present free (by simp [bornOut])
    · exact .inr pending
  missing others offered := by
    rw [Signal.pending_concat_created, Signal.covered_concat_created]
    by_cases new : names <+: others
    · exact .inr (.inr new)
    · rw [FileSystem.Offers, kinds others new] at offered
      exact (backlog.missing others offered).imp_right .inl
  anchored := by
    have kept : ∀ above, fs.kind? (top ++ above) = some .directory →
        other.kind? (top ++ above) = some .directory := by
      intro above isDirectory
      rw [kinds above, isDirectory]
      exact not_prefix_of_present free (by simp [isDirectory])
    refine backlog.anchored.append (fun above isDirectory => .inl (kept above isDirectory)) ?_
    exact ⟨fun above isAbove proper => .inl (kept above (parents above isAbove proper)), trivial⟩

/-! ## Handling the signal in front -/

/-- Deleting the entry of a removed signal takes the signal off the queue. -/
theorem Backlog.removed (backlog : tree.Backlog fs patterns top (.removed names :: signals))
    (below : names ≠ []) :
    (tree.edited patterns names .delete).1.Backlog fs patterns top signals := by
  have recordsNow := records_edited_delete backlog.canonical backlog.admitted below
  constructor
  · constructor
    · exact backlog.canonical.edited patterns names .delete
    · exact fun others recorded => backlog.admitted others ((recordsNow others).1 recorded).1
    · intro others recorded above isAbove
      obtain ⟨old, stays⟩ := (recordsNow others).1 recorded
      refine (backlog.stale others old above isAbove).imp_right fun pending => ?_
      exact pending.resolve_left fun gone => stays (gone.trans isAbove)
  · intro others offered
    refine (backlog.missing others offered).imp_left fun kept => ?_
    obtain ⟨stays, notPending⟩ := not_or.1 kept.2
    exact ⟨(recordsNow others).2 ⟨kept.1, stays⟩, notPending⟩
  · exact backlog.anchored

/-- Creating a file that is excused, if it takes part in routing, keeps a tree grounded,
and records all real files that stay and were recorded before or are the one created. -/
theorem Grounded.create (grounded : tree.Grounded fs patterns top signals)
    (excused : Admitted patterns names → fs.Excuses top signals names) :
    (tree.edited patterns names .create).1.Grounded fs patterns top signals ∧
      ∀ others, fs.Offers patterns top others → ¬ Signal.Pending signals others →
        tree.Records others ∨ others = names →
        (tree.edited patterns names .create).1.Records others := by
  by_cases isAdmitted : Admitted patterns names
  · rw [edited_create_of_admitted isAdmitted]
    have excused := excused isAdmitted
    have recordsNow := records_create grounded.canonical isAdmitted.ne_nil
    refine ⟨⟨grounded.canonical.create names, fun others recorded => ?_,
      fun others recorded => ?_⟩, fun others offered notPending wanted => (recordsNow others).2 ?_⟩
    · rcases (recordsNow others).1 recorded with ⟨old, -⟩ | ⟨rfl, -⟩
      · exact grounded.admitted others old
      · exact isAdmitted
    · rcases (recordsNow others).1 recorded with ⟨old, -⟩ | ⟨rfl, -⟩
      · exact grounded.stale others old
      · exact excused
    · by_cases old : tree.Records others
      · refine .inl ⟨old, fun isAbove => ?_⟩
        exact (excused.file_is_last offered.2 isAbove).resolve_right notPending
      · obtain rfl := wanted.resolve_left old
        refine .inr ⟨rfl, ?_⟩
        rintro ⟨rest, below⟩
        have excusedBelow := grounded.stale _ below
        have isLast := (excusedBelow.file_is_last offered.2 (List.prefix_append _ _)).resolve_right
          notPending
        rw [← isLast] at below
        exact old below
  · rw [edited_create_of_not_admitted isAdmitted]
    refine ⟨grounded, fun others offered _ wanted => wanted.resolve_right ?_⟩
    rintro rfl
    exact isAdmitted offered.1

/-- The tree after some files were created, one after the other. -/
def createAll (patterns : List String) (tree : Folder) (files : List (List String)) : Folder :=
  files.foldl (fun tree names => (tree.edited patterns names .create).1) tree

/-- The root keeps its label when files are recorded. -/
@[simp] theorem createAll_label (patterns : List String) (tree : Folder)
    (files : List (List String)) : (createAll patterns tree files).label = tree.label := by
  induction files generalizing tree with
  | nil => rfl
  | cons names rest ih => exact (ih _).trans (edited_label tree patterns names .create)

/-- Creating files that are excused, as far as they take part in routing, keeps a tree
grounded, and records all real files that stay and were recorded before or are among
those created. -/
theorem Grounded.createAll (grounded : tree.Grounded fs patterns top signals)
    {files : List (List String)}
    (excused : ∀ names ∈ files, Admitted patterns names → fs.Excuses top signals names) :
    (createAll patterns tree files).Grounded fs patterns top signals ∧
      ∀ others, fs.Offers patterns top others → ¬ Signal.Pending signals others →
        tree.Records others ∨ others ∈ files →
        (Folder.createAll patterns tree files).Records others := by
  induction files generalizing tree with
  | nil =>
    exact ⟨grounded, fun others _ _ wanted => wanted.resolve_right List.not_mem_nil⟩
  | cons names rest ih =>
    obtain ⟨groundedNext, keeps⟩ := grounded.create (excused names List.mem_cons_self)
    obtain ⟨groundedLast, keepsRest⟩ :=
      ih groundedNext fun file member => excused file (List.mem_cons_of_mem _ member)
    refine ⟨groundedLast, fun others offered notPending wanted => ?_⟩
    refine keepsRest others offered notPending ?_
    rw [List.mem_cons, ← or_assoc] at wanted
    exact wanted.imp_left (keeps others offered notPending)

/-- Creating the files below a created entry, as far as they are there by now, takes
the signal off the queue. -/
theorem Backlog.created (backlog : tree.Backlog fs patterns top (.created names :: signals))
    {files : List (List String)}
    (excused : ∀ file ∈ files, Admitted patterns file → fs.Excuses top signals file)
    (complete : ∀ file, fs.Offers patterns top file → names <+: file → file ∈ files) :
    (createAll patterns tree files).Backlog fs patterns top signals := by
  have grounded : tree.Grounded fs patterns top signals :=
    ⟨backlog.canonical, backlog.admitted, backlog.stale⟩
  obtain ⟨groundedNext, keeps⟩ := grounded.createAll excused
  refine ⟨groundedNext, fun others offered => ?_, backlog.anchored.2⟩
  rcases backlog.missing others offered with ⟨old, notPending⟩ | ⟨new, notPending⟩ | covered
  · exact .inl ⟨keeps others offered notPending (.inl old), notPending⟩
  · have member := complete others offered new
    exact .inl ⟨keeps others offered notPending (.inr member), notPending⟩
  · exact .inr covered

/-- Creating further files that are there changes nothing about the queue. -/
theorem Backlog.createdElsewhere (backlog : tree.Backlog fs patterns top signals)
    {files : List (List String)}
    (excused : ∀ file ∈ files, Admitted patterns file → fs.Excuses top signals file) :
    (createAll patterns tree files).Backlog fs patterns top signals := by
  obtain ⟨groundedNext, keeps⟩ := backlog.toGrounded.createAll excused
  refine ⟨groundedNext, fun others offered => ?_, backlog.anchored⟩
  refine (backlog.missing others offered).imp_left fun kept => ?_
  exact ⟨keeps others offered kept.2 (.inl kept.1), kept.2⟩

/-- Once nothing is to come, a tree records exactly the files on offer. -/
theorem Backlog.records_iff (backlog : tree.Backlog fs patterns top []) :
    tree.Records names ↔ fs.Offers patterns top names := by
  constructor
  · intro recorded
    refine ⟨backlog.admitted names recorded, ?_⟩
    have bornOut := (backlog.stale names recorded names List.prefix_rfl).resolve_right id
    rwa [if_pos rfl] at bornOut
  · exact fun offered => ((backlog.missing names offered).resolve_right id).1

/-- A tree that records exactly the files on offer has no backlog. -/
theorem Backlog.of_records (canonical : tree.Canonical)
    (records : ∀ names, tree.Records names ↔ fs.Offers patterns top names) :
    tree.Backlog fs patterns top [] where
  canonical := canonical
  admitted names recorded := ((records names).1 recorded).1
  stale names recorded := FileSystem.excuses_of_file ((records names).1 recorded).2 []
  missing names offered := .inl ⟨(records names).2 offered, id⟩
  anchored := trivial

end Folder

end RouteAtlas
