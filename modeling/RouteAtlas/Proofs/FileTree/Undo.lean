import RouteAtlas.Proofs.FileTree.Commute

/-!
# Events that undo each other

A file that was created where none stood above is deleted without a trace, and a file that
was deleted is created again as it was, with all the folders that went with it. An event
that follows itself changes nothing (`Folder.create_delete_undo`).

None of this looks at folders. A canonical tree is the set of its files: creating a file
where nothing is recorded and none gives way adds it to the set, deleting it takes it away
again, and the folders with their labels follow from the set.
-/

set_option autoImplicit false

namespace RouteAtlas

namespace Folder

variable {tree : Folder} {patterns names : List String} {event : Event} {path : Path}

/-! ## Events on names -/

/-- After an event that acts, something is recorded at its entry or below exactly if it was
a creation. -/
theorem reaches_edited_self (canonical : tree.Canonical) (acts : event.Acts patterns names) :
    (tree.edited patterns names event).1.Reaches names ↔ event = .create := by
  cases event with
  | create =>
    refine iff_of_true ?_ rfl
    by_cases reached : tree.Reaches names
    · have unchanged : (tree.edited patterns names .create).2 = false := by
        rw [← Bool.not_eq_true, edited_changed_iff canonical]
        rintro ⟨-, isDelete⟩
        cases isDelete.1 reached
      rwa [edited_of_unchanged canonical unchanged]
    · exact ((records_edited canonical names).2 (.inr ⟨rfl, rfl, acts, reached⟩)).reaches
  | delete =>
    refine iff_of_false ?_ nofun
    rintro ⟨rest, recorded⟩
    rcases (records_edited canonical _).1 recorded with ⟨-, spared⟩ | ⟨-, impossible, -⟩
    · exact spared acts (List.prefix_append names rest)
    · cases impossible
  | update => exact acts.elim

/-- An event that follows itself changes nothing. -/
theorem edited_edited_self (canonical : tree.Canonical) (patterns names : List String)
    (event : Event) :
    (tree.edited patterns names event).1.edited patterns names event =
      ((tree.edited patterns names event).1, false) := by
  have canonicalNext := canonical.edited patterns names event
  by_cases acts : event.Acts patterns names
  · have unchanged :
        ((tree.edited patterns names event).1.edited patterns names event).2 = false := by
      rw [← Bool.not_eq_true, edited_changed_iff canonicalNext, reaches_edited_self canonical acts]
      rintro ⟨-, both⟩
      cases event <;> simp at both
      exact acts
    exact Prod.ext (edited_of_unchanged canonicalNext unchanged) unchanged
  · rw [edited_of_not_acts acts, edited_of_not_acts acts]

/-- A file that is created where nothing is recorded and no file gives way is deleted
without a trace. -/
theorem edited_create_delete (canonical : tree.Canonical) (admitted : Admitted patterns names)
    (free : ¬ tree.Reaches names) (clear : ∀ file, tree.Records file → ¬ file <+: names) :
    (tree.edited patterns names .create).1.edited patterns names .delete = (tree, true) := by
  have canonicalNext := canonical.edited patterns names .create
  have acts : Event.delete.Acts patterns names := ⟨admitted.ne_nil, admitted.1⟩
  refine Prod.ext ?_ ?_
  · refine (canonicalNext.edited patterns names .delete).ext canonical (by simp) fun file => ?_
    rw [records_edited canonicalNext, records_edited canonical]
    constructor
    · rintro (⟨⟨old, -⟩ | ⟨rfl, -⟩, spared⟩ | ⟨-, impossible, -⟩)
      · exact old
      · exact absurd List.prefix_rfl (spared acts)
      · cases impossible
    · intro recorded
      refine .inl ⟨.inl ⟨recorded, fun _ above => absurd above (clear file recorded)⟩, fun _ => ?_⟩
      rintro ⟨rest, rfl⟩
      exact free ⟨rest, recorded⟩
  · have isCreated : Event.create.Acts patterns names := admitted
    have reached := (reaches_edited_self canonical isCreated).2 rfl
    exact (edited_changed_iff canonicalNext).2 ⟨acts, iff_of_true reached rfl⟩

/-- A recorded file that is deleted is created again with all that went with it. -/
theorem edited_delete_create (canonical : tree.Canonical) (admitted : Admitted patterns names)
    (recorded : tree.Records names) :
    (tree.edited patterns names .delete).2 = true ∧
      (tree.edited patterns names .delete).1.edited patterns names .create = (tree, true) := by
  have canonicalNext := canonical.edited patterns names .delete
  have acts : Event.delete.Acts patterns names := ⟨admitted.ne_nil, admitted.1⟩
  have gone : ¬ (tree.edited patterns names .delete).1.Reaches names :=
    fun reached => nomatch (reaches_edited_self canonical acts).1 reached
  refine ⟨(edited_changed_iff canonical).2 ⟨acts, iff_of_true recorded.reaches rfl⟩,
    Prod.ext ?_ ?_⟩
  · refine (canonicalNext.edited patterns names .create).ext canonical (by simp) fun file => ?_
    rw [records_edited canonicalNext, records_edited canonical]
    constructor
    · rintro (⟨⟨old, -⟩ | ⟨-, impossible, -⟩, -⟩ | ⟨rfl, -⟩)
      · exact old
      · cases impossible
      · exact recorded
    · intro old
      by_cases isFile : file = names
      · exact .inr ⟨isFile, rfl, admitted, gone⟩
      · -- No file stands above or below another one.
        have apart : ¬ file <+: names ∧ ¬ names <+: file := by
          constructor
          · rintro ⟨rest, rfl⟩
            rw [Entry.Records.eq_nil_of_append old recorded, List.append_nil] at isFile
            exact isFile rfl
          · rintro ⟨rest, rfl⟩
            rw [Entry.Records.eq_nil_of_append recorded old, List.append_nil] at isFile
            exact isFile rfl
        exact .inl ⟨.inl ⟨old, fun _ => apart.2⟩, fun _ above => absurd above apart.1⟩
  · refine (edited_changed_iff canonicalNext).2 ⟨admitted, iff_of_false gone nofun⟩

/-! ## Events on paths -/

/-- Only an event on a path that spells names changes a tree. -/
theorem spells_of_reply (changed : tree.reply patterns (path, event) = .ok true) :
    ∃ names, tree.label.path.Spells path names := by
  rcases tree.apply_cases patterns path event with
    ⟨failure, refused⟩ | unchanged | ⟨names, spells, -⟩
  · rw [reply, refused] at changed
    cases changed
  · rw [reply, unchanged] at changed
    cases changed
  · exact ⟨names, spells⟩

/-- A repeated event that is not refused changes nothing. -/
theorem after_after_self (canonical : tree.Canonical) {changed : Bool}
    (accepted : tree.reply patterns (path, event) = .ok changed) :
    (tree.after patterns (path, event)).reply patterns (path, event) = .ok false ∧
      (tree.after patterns (path, event)).after patterns (path, event) =
        tree.after patterns (path, event) := by
  rcases tree.apply_cases patterns path event with
    ⟨failure, refused⟩ | unchanged | ⟨names, spells, -⟩
  · rw [reply, refused] at accepted
    cases accepted
  · have same : tree.after patterns (path, event) = tree := by rw [after, unchanged]
    rw [same, reply, unchanged]
    exact ⟨rfl, same⟩
  · have sameRoot : (tree.after patterns (path, event)).label.path = tree.label.path := by
      rw [after_label]
    rw [reply_of_spells spells sameRoot, after_of_spells spells sameRoot,
      after_of_spells spells rfl, edited_edited_self canonical]
    exact ⟨rfl, rfl⟩

/-- If the creation of a file changes a tree and no file stands above it, deleting the file
changes the tree back; and if a recorded file is deleted, creating it changes the tree back.
An event that was not refused changes nothing when it is repeated. -/
theorem create_delete_undo (tree : Folder) (patterns : List String) (path : Path)
    (valid : tree.Valid patterns) :
    ((∀ names, tree.label.path.Spells path names →
        ∀ file ∈ tree.fileSet, file <+: names → file = names) →
      tree.reply patterns (path, .create) = .ok true →
        (tree.after patterns (path, .create)).reply patterns (path, .delete) = .ok true ∧
        (tree.after patterns (path, .create)).after patterns (path, .delete) = tree) ∧
    (∀ names, tree.label.path.Spells path names → names ∈ tree.fileSet →
      tree.reply patterns (path, .delete) = .ok true ∧
      (tree.after patterns (path, .delete)).reply patterns (path, .create) = .ok true ∧
      (tree.after patterns (path, .delete)).after patterns (path, .create) = tree) ∧
    ∀ event changed, tree.reply patterns (path, event) = .ok changed →
      (tree.after patterns (path, event)).reply patterns (path, event) = .ok false ∧
      (tree.after patterns (path, event)).after patterns (path, event) =
        tree.after patterns (path, event) := by
  have canonical := valid.fit.canonical
  have sameRoot : ∀ event,
      (tree.after patterns (path, event)).label.path = tree.label.path := fun event => by
    rw [after_label]
  refine ⟨?_, ?_, fun event changed => after_after_self canonical⟩
  · intro noneAbove created
    obtain ⟨names, spells⟩ := spells_of_reply created
    rw [reply_of_spells spells rfl, Except.ok.injEq, edited_changed_iff canonical] at created
    obtain ⟨admitted, isFree⟩ := created
    have free : ¬ tree.Reaches names := fun reached => nomatch isFree.1 reached
    have clear : ∀ file, tree.Records file → ¬ file <+: names := by
      intro file recorded above
      rw [noneAbove names spells file recorded above] at recorded
      exact free recorded.reaches
    rw [reply_of_spells spells (sameRoot _), after_of_spells spells (sameRoot _),
      after_of_spells spells rfl, edited_create_delete canonical admitted free clear]
    exact ⟨rfl, rfl⟩
  · intro names spells recorded
    obtain ⟨changed, restored⟩ :=
      edited_delete_create canonical (valid.fit.recordable recorded).1 recorded
    rw [reply_of_spells spells rfl, reply_of_spells spells (sameRoot _),
      after_of_spells spells (sameRoot _), after_of_spells spells rfl, restored, changed]
    exact ⟨rfl, rfl, rfl⟩

/-- A file comes and goes with the folder above it, and then the only other file goes and
comes back with its own folder. -/
theorem create_delete_undo_nested :
    let first : Path × Event := (⟨"/app/a/b.entrypoint.js"⟩, .create)
    let tree := (Folder.root ⟨"/app"⟩).after [] first
    let path : Path := ⟨"/app/a/c/d.entrypoint.ts"⟩
    tree.Valid [] ∧ tree.reply [] (path, .create) = .ok true ∧
      (tree.after [] (path, .create)).after [] (path, .delete) = tree ∧
      (tree.after [] (first.1, .delete)).entries = [] ∧
      (tree.after [] (first.1, .delete)).after [] first = tree ∧
      (tree.after [] first).reply [] first = .ok false := by
  intro first tree path
  have valid : tree.Valid [] := ((valid_root ⟨"/app"⟩ []).after first).1
  have spells : tree.label.path.Spells first.1 ["a", "b.entrypoint.js"] :=
    ⟨[.name "a", .name "b.entrypoint.js"], by decide +kernel, rfl⟩
  have spellsPath : tree.label.path.Spells path ["a", "c", "d.entrypoint.ts"] :=
    ⟨[.name "a", .name "c", .name "d.entrypoint.ts"], by decide +kernel, rfl⟩
  have noneAbove : ∀ names, tree.label.path.Spells path names →
      ∀ file ∈ tree.fileSet, file <+: names → file = names := by
    intro names spellsNames file recorded above
    have notAbove : ∀ file ∈ tree.fileNames, ¬ file <+: ["a", "c", "d.entrypoint.ts"] := by
      decide +kernel
    obtain rfl := spellsNames.unique spellsPath
    exact absurd above (notAbove file (valid.fit.isNamed.mem_fileNames_iff.2 recorded))
  have recorded : ["a", "b.entrypoint.js"] ∈ tree.fileSet :=
    valid.fit.isNamed.mem_fileNames_iff.1 (by decide +kernel)
  have created : tree.reply [] (path, .create) = .ok true := by decide +kernel
  obtain ⟨createDelete, -, -⟩ := create_delete_undo tree [] path valid
  obtain ⟨-, deleteCreate, again⟩ := create_delete_undo tree [] first.1 valid
  obtain ⟨-, -, restored⟩ := deleteCreate _ spells recorded
  obtain ⟨repeated, -⟩ := again .create false (by decide +kernel)
  exact ⟨valid, created, (createDelete noneAbove created).2, by decide +kernel, restored, repeated⟩

end Folder

end RouteAtlas
