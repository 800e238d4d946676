import RouteAtlas.CommandLine.Run
import RouteAtlas.Proofs.FileSystem.Written
import RouteAtlas.Proofs.Watch.Handling
import RouteAtlas.Proofs.Watch.Incremental

/-!
# What a run leaves behind

A run prints the rendered text, or leaves the output file holding exactly that text and
all else as it was, or it fails and changes nothing at all. Whatever it has done, the same
run again does the same and changes nothing more, unless the first run has itself created
an entry point that a scan of the directory records (`run_whole_and_repeatable`).

The steps of a run are followed one by one. Those that can fail only look at the files, up
to the one that opens the output file, and what comes behind that one cannot fail
(`Arguments.careful_execute`). So a run that fails has done nothing until then.

A written file takes no directory away and adds none, and it takes the place of nothing but
a file. So the directory keeps its canonical path, and a scan of it gives the same tree, if
the file is not a new one on offer (`FileSystem.Written.scan`). The same text is rendered
then, and the file that holds it is left alone.
-/

set_option autoImplicit false

namespace RouteAtlas

/-! ## Scanning again -/

namespace FileSystem

variable {fs after : FileSystem} {patterns : List String} {root : Path} {text : String}
  {location top : Location} {tree : Folder} {valid : String → Prop}

namespace Written

/-- A scan that succeeded succeeds again. -/
theorem exists_scan (written : fs.Written location text after) (tidy : after.Tidy valid)
    (rootAt : fs.RootAt root top) (scanned : fs.scan patterns root = .ok tree) :
    ∃ fresh, after.scan patterns root = .ok fresh :=
  scan_of_short tidy (written.rootAt rootAt) fun _ noneIgnored isDirectory =>
    short_of_scan rootAt.1 scanned noneIgnored (written.directory isDirectory)

/-- A scan gives the tree that it gave before, unless the file is new and on offer. -/
theorem scan (written : fs.Written location text after) (tidy : fs.Tidy valid)
    (tidyAfter : after.Tidy valid) (rootAt : fs.RootAt root top)
    (scanned : fs.scan patterns root = .ok tree)
    (notNew : ∀ names, location = top ++ names → Admitted patterns names →
      fs.kind? location ≠ none) : after.scan patterns root = .ok tree := by
  have distinct := tidy.mono fun _ _ => trivial
  have mirrored := MirroredBy.of_scan distinct rootAt.1 scanned
  have sameOffers : ∀ names, fs.Offers patterns top names ↔ after.Offers patterns top names := by
    refine fun names => and_congr_right fun admitted => ?_
    by_cases same : top ++ names = location
    · -- A file on offer that is not new was there before, and was a file.
      have wasFile := written.replaced.resolve_left (notNew names same.symm admitted)
      rw [same, wasFile, written.isFile]
    · rw [kind?_congr (written.elsewhere _ same)]
  have mirroredAfter : after.MirroredBy patterns root top tree :=
    ⟨tidyAfter.mono fun _ _ => trivial, written.rootAt rootAt, mirrored.label,
      mirrored.canonical, fun names => (mirrored.records names).trans (sameOffers names)⟩
  exact mirroredAfter.scan rootAt scanned fun _ => written.directory

end Written

end FileSystem

namespace CommandLine

variable {asked : Arguments} {fs after : FileSystem} {surroundings : Surroundings}
  {path : Path} {text : String} {program : RoutesModule} {failure : Failure}
  {location : Location} {world : World}

/-! ## Actions -/

namespace Action

variable {α β : Type} {action : Action α} {next : α → Action β}

/-- Whether an action leaves everything as it is, also if it does not get to its end. -/
def Looks (action : Action α) : Prop :=
  ∀ world, (∃ a, action.run world = .ok a world) ∨ ∃ abort, action.run world = .error abort world

/-- Whether an action that does not get to its end has left everything as it was. -/
def Careful (action : Action α) : Prop :=
  ∀ world abort after, action.run world = .error abort after → after = world

/-- Whether an action always gets to its end. -/
def Succeeds (action : Action α) : Prop :=
  ∀ world, ∃ a after, action.run world = .ok a after

/-- Whether all answers of an action that gets to its end are of some kind. -/
def Answers (action : Action α) (isAnswer : α → Prop) : Prop :=
  ∀ world a after, action.run world = .ok a after → isAnswer a

/-- The last action gives the answer. -/
theorem Answers.bind {isAnswer : β → Prop} (last : ∀ a, (next a).Answers isAnswer) :
    (action >>= next).Answers isAnswer := by
  intro world b after done
  rw [EStateM.run_bind] at done
  cases reached : action.run world with
  | ok a middle =>
    rw [reached] at done
    exact last a middle b after done
  | error =>
    rw [reached] at done
    cases done

/-- To answer at once is to give that answer. -/
theorem answers_pure {isAnswer : α → Prop} {a : α} (answers : isAnswer a) :
    (pure a : Action α).Answers isAnswer := by
  rintro world _ _ ⟨⟩
  exact answers

/-- An action that gets to its end does not fail on the way. -/
theorem Succeeds.careful (succeeds : action.Succeeds) : action.Careful := by
  intro world abort after failed
  obtain ⟨a, reached, done⟩ := succeeds world
  rw [done] at failed
  cases failed

/-- Two actions get to their end one after the other. -/
theorem Succeeds.bind (first : action.Succeeds) (second : ∀ a, (next a).Succeeds) :
    (action >>= next).Succeeds := by
  intro world
  obtain ⟨a, reached, done⟩ := first world
  rw [EStateM.run_bind, done]
  exact second a reached

/-- To look twice is to look. -/
theorem Looks.bind (first : action.Looks) (second : ∀ a, (next a).Looks) :
    (action >>= next).Looks := by
  intro world
  rw [EStateM.run_bind]
  rcases first world with ⟨a, done⟩ | ⟨abort, done⟩
  · rw [done]
    exact second a world
  · exact .inr ⟨abort, by rw [done]⟩

/-- To look first does no harm. -/
theorem Looks.bind_careful (first : action.Looks) (second : ∀ a, (next a).Careful) :
    (action >>= next).Careful := by
  intro world abort after failed
  rw [EStateM.run_bind] at failed
  rcases first world with ⟨a, done⟩ | ⟨cause, done⟩
  · rw [done] at failed
    exact second a world abort after failed
  · rw [done] at failed
    cases failed
    rfl

/-- What cannot fail may come behind what is done with care. -/
theorem Careful.bind (first : action.Careful) (second : ∀ a, (next a).Succeeds) :
    (action >>= next).Careful := by
  intro world abort after failed
  rw [EStateM.run_bind] at failed
  cases done : action.run world with
  | ok a reached =>
    obtain ⟨b, ending, finished⟩ := second a reached
    rw [done] at failed
    dsimp only at failed
    rw [finished] at failed
    cases failed
  | error cause reached =>
    rw [done] at failed
    cases failed
    exact first world _ _ done

/-- To ask how things stand is to look. -/
theorem looks_get : Looks get := fun world => .inl ⟨world, rfl⟩

/-- To give up changes nothing. -/
theorem looks_throw (abort : Abort) : Looks (throw abort : Action α) :=
  fun _ => .inr ⟨abort, rfl⟩

/-- To go on with what was found out, or to give up, changes nothing. -/
theorem looks_ofExcept (outcome : Except Failure α) : (ofExcept outcome).Looks := by
  intro world
  cases outcome with
  | ok a => exact .inl ⟨a, rfl⟩
  | error failure => exact .inr ⟨.failed failure, rfl⟩

/-- What only looks is careful. -/
theorem Looks.careful (looks : action.Looks) : action.Careful := by
  intro world abort after failed
  rcases looks world with ⟨a, done⟩ | ⟨cause, done⟩
  · rw [done] at failed
    cases failed
  · rw [done] at failed
    cases failed
    rfl

/-- An answer is always given. -/
theorem succeeds_pure (a : α) : (pure a : Action α).Succeeds := fun world => ⟨a, world, rfl⟩

/-- A change is always made. -/
theorem succeeds_modify (change : World → World) : Succeeds (modify change) :=
  fun world => ⟨(), change world, rfl⟩

/-- A file that cannot be opened is all that keeps a text from being written. -/
theorem careful_writeIfChanged (path : Path) (text : String) :
    (writeIfChanged path text).Careful := by
  refine looks_get.bind_careful fun world => ?_
  split
  next => exact (succeeds_pure ()).careful
  next =>
    cases world.files.openFile path with
    | error cause => exact (looks_throw _).careful
    | ok opened =>
      -- The file is empty by now, but nothing behind this can fail any more.
      exact ((succeeds_modify _).bind fun _ => succeeds_modify _).careful

end Action

namespace Arguments

/-- To prepare a routes module is only to look at the files. -/
theorem looks_prepare (asked : Arguments) : asked.prepare.Looks := by
  refine Action.looks_get.bind fun world => (Action.looks_ofExcept _).bind fun registry => ?_
  split
  next => exact Action.looks_throw .brokeDown
  next => exact Action.looks_ofExcept _

/-- A routes module is delivered, or its output file cannot be opened and nothing happens. -/
theorem careful_deliver (asked : Arguments) (surroundings : Surroundings)
    (program : RoutesModule) : (asked.deliver surroundings program).Careful := by
  unfold deliver
  split
  next =>
    exact ((Action.succeeds_modify _).bind fun _ => Action.succeeds_pure _).careful
  next =>
    exact (Action.careful_writeIfChanged _ _).bind fun _ =>
      (Action.succeeds_modify _).bind fun _ => Action.succeeds_pure _

/-- A run that fails has done nothing before: what can fail comes first, and last the
opening of the output file. -/
theorem careful_execute (asked : Arguments) (surroundings : Surroundings) :
    (asked.execute surroundings).Careful :=
  asked.looks_prepare.bind_careful fun program => asked.careful_deliver surroundings program

/-- A run that gets to its end exits with 0, or it goes on. -/
theorem answers_execute (asked : Arguments) (surroundings : Surroundings) :
    (asked.execute surroundings).Answers fun code => ∀ exit ∈ code, exit = 0 := by
  refine .bind fun program => ?_
  unfold deliver
  split
  next => exact .bind fun _ => Action.answers_pure (by simp)
  next => exact .bind fun _ => .bind fun _ => Action.answers_pure (by split <;> simp)

end Arguments

/-- No run that exits with another code than 0 changes a file or prints anything but
errors, whatever its arguments are. -/
theorem run_keeps_files (fs : FileSystem) (surroundings : Surroundings) (line : List String)
    {exit : Nat} (exits : (run fs surroundings line).1 = some exit) (failed : exit ≠ 0) :
    (run fs surroundings line).2.files = fs ∧ (run fs surroundings line).2.output = "" := by
  unfold run at exits ⊢
  cases parsed : Arguments.parse line with
  | error stop =>
    rw [parsed] at exits
    cases stop with
    | version => exact absurd (Option.some.inj exits).symm failed
    | usage | help | breakdown => exact ⟨rfl, rfl⟩
  | ok asked =>
    rw [parsed] at exits
    dsimp only at exits ⊢
    cases executed : (asked.execute surroundings).run ⟨fs, "", ""⟩ with
    | ok code world =>
      rw [executed] at exits
      cases exits
      exact absurd (asked.answers_execute surroundings _ _ _ executed exit rfl) failed
    | error abort world =>
      have unchanged := asked.careful_execute surroundings _ _ _ executed
      cases abort <;> rw [unchanged] <;> exact ⟨rfl, rfl⟩

/-! ## Rendering -/

/-- The routes module of what a scan of the canonical directory finds. -/
def Arguments.rendered (asked : Arguments) (fs : FileSystem) : Except Failure RoutesModule :=
  match fs.canonical asked.directory with
  | .error cause => .error (.io asked.directory cause)
  | .ok root =>
    match fs.scan asked.ignored root with
    | .error failure => .error failure
    | .ok tree => RoutesModule.ofFileTree tree

/-- Something is rendered if the directory has a canonical path, a scan of it succeeds and
the tree can be rendered. -/
theorem Arguments.rendered_eq_ok_iff :
    asked.rendered fs = .ok program ↔ ∃ root tree, fs.canonical asked.directory = .ok root ∧
      fs.scan asked.ignored root = .ok tree ∧ RoutesModule.ofFileTree tree = .ok program := by
  rw [rendered]
  cases fs.canonical asked.directory with
  | error => exact iff_of_false nofun (by simp)
  | ok root =>
    cases scanned : fs.scan asked.ignored root with
    | error => exact iff_of_false (by simp [scanned]) (by simp [scanned])
    | ok tree => simp [scanned]

/-- The app of a registry with one app is rendered from its tree. -/
theorem render_alone (name : String) (root : Path) (patterns : List String) (tree : Folder) :
    (Registry.alone name root patterns tree).render name = RoutesModule.ofFileTree tree := by
  simp [Registry.alone, Registry.render, Registry.snapshot, Registry.find, Except.map]

/-- The registry of a run holds the scanned tree of the canonical directory. -/
theorem Arguments.registry_of_scan {root : Path} {tree : Folder}
    (canonical : fs.canonical asked.directory = .ok root)
    (scanned : fs.scan asked.ignored root = .ok tree) :
    asked.registry fs = .ok (.alone appName root asked.ignored tree) := by
  simp only [registry, canonical, Registry.scan_eq_ok_alone_iff.2 scanned]

/-- What is prepared is what is rendered. -/
theorem Arguments.run_prepare (narrow : asked.isTooWide = false) (world : World) :
    asked.prepare.run world =
      match asked.rendered world.files with
      | .ok program => .ok program world
      | .error failure => .error (.failed failure) world := by
  simp only [prepare, EStateM.run_bind, EStateM.run_get, rendered, narrow, Bool.false_eq_true,
    if_false]
  cases canonical : world.files.canonical asked.directory with
  | error cause =>
    simp only [registry, canonical]
    rfl
  | ok root =>
    cases scanned : world.files.scan asked.ignored root with
    | error failure =>
      simp only [registry, canonical, Registry.scan, Registry.scanApps, scanned]
      rfl
    | ok tree =>
      simp only [registry_of_scan canonical scanned, Action.ofExcept, EStateM.run_pure,
        render_alone, scanned]
      cases RoutesModule.ofFileTree tree <;> rfl

/-! ## Writing -/

/-- The files with a text written to a file, unless the file holds it already. -/
def writtenIfChanged (fs : FileSystem) (path : Path) (text : String) :
    Except OsError FileSystem :=
  if (fs.read path).toOption = some text then .ok fs else fs.write path text

/-- A text is written, or the file cannot be opened. -/
theorem Action.run_writeIfChanged (path : Path) (text : String) (world : World) :
    (writeIfChanged path text).run world =
      match writtenIfChanged world.files path text with
      | .ok files => .ok () { world with files := files }
      | .error cause => .error (.failed (.io path cause)) world := by
  simp only [writeIfChanged, EStateM.run_bind, EStateM.run_get, writtenIfChanged,
    FileSystem.write_eq_open]
  split
  next => rfl
  next => cases world.files.openFile path <;> rfl

/-- A file that holds the text is left alone. -/
theorem writtenIfChanged_of_read (read : fs.read path = .ok text) :
    writtenIfChanged fs path text = .ok fs := by
  rw [writtenIfChanged, read]
  exact if_pos rfl

/-- After a write that succeeds, the path leads to a file that holds the text, whether or
not it was rewritten. -/
theorem written_of_writtenIfChanged (isThere : fs.kind? fs.workingDirectory = some .directory)
    (tidy : fs.Tidy IsName) (wrote : writtenIfChanged fs path text = .ok after) :
    ∃ location, after.resolve .follow path = .ok location ∧ fs.Written location text after ∧
      after.Tidy IsName := by
  rw [writtenIfChanged] at wrote
  split at wrote
  next holds =>
    cases wrote
    cases read : fs.read path with
    | error => rw [read] at holds; cases holds
    | ok contents =>
      rw [read] at holds
      cases holds
      obtain ⟨location, leads, written⟩ := FileSystem.Written.of_read read
      exact ⟨location, leads, written, tidy⟩
  next => exact FileSystem.written_of_write isThere tidy wrote

/-- Only a file that cannot be opened is not written. -/
theorem openFile_of_writtenIfChanged {cause : OsError}
    (refused : writtenIfChanged fs path text = .error cause) :
    fs.openFile path = .error cause := by
  rw [writtenIfChanged] at refused
  split at refused
  next => cases refused
  next =>
    rw [FileSystem.write_eq_open] at refused
    exact map_eq_error_iff.1 refused

/-! ## Outcomes -/

/-- Why a run fails: nothing can be rendered, or the output file cannot be opened. -/
inductive Arguments.Fails (asked : Arguments) (fs : FileSystem) : Failure → Prop
  | rendering {failure : Failure} (unrendered : asked.rendered fs = .error failure) :
      Fails asked fs failure
  | opening {program : RoutesModule} {path : Path} {cause : OsError}
      (rendered : asked.rendered fs = .ok program) (isOutput : asked.output = some path)
      (refused : fs.openFile path = .error cause) :
      Fails asked fs (.io path cause)

/-- With which code a run exits and what it leaves behind: the text on the output and the
files as they were, or nothing there and the text in the output file alone, or a failure
and the files as they were. -/
inductive Arguments.Leaves (asked : Arguments) (surroundings : Surroundings) (fs : FileSystem) :
    Option Nat → World → Prop
  | printed {program : RoutesModule} {text : String} (noOutput : asked.output = none)
      (rendered : asked.rendered fs = .ok program)
      (isText : text = if asked.json then program.jsonText else program.moduleText asked.indent) :
      Leaves asked surroundings fs (some 0) ⟨fs, text, ""⟩
  | wrote {program : RoutesModule} {text : String} {path : Path} {location : Location}
      {after : FileSystem} (isOutput : asked.output = some path)
      (rendered : asked.rendered fs = .ok program)
      (isText : text = if asked.json then program.jsonText else program.moduleText asked.indent)
      (leads : after.resolve .follow path = .ok location)
      (written : fs.Written location text after) :
      Leaves asked surroundings fs (some 0)
        ⟨after, "", statusLine (usesColor surroundings asked.color) path program⟩
  | failed {failure : Failure} (fails : asked.Fails fs failure) :
      Leaves asked surroundings fs (some 1) ⟨fs, "", "fsroutes: " ++ failure.message ++ "\n"⟩

/-- A run whose arguments are read does what they ask for. A failure is shown behind the
name of the program. -/
theorem run_of_parsed {line : List String} (parsed : Arguments.parse line = .ok asked)
    (narrow : asked.isTooWide = false) (fs : FileSystem) (surroundings : Surroundings) :
    run fs surroundings line =
      match asked.rendered fs with
      | .error failure => (some 1, ⟨fs, "", "fsroutes: " ++ failure.message ++ "\n"⟩)
      | .ok program =>
        match asked.output with
        | none => (some 0, ⟨fs, asked.print program, ""⟩)
        | some path =>
          match writtenIfChanged fs path (asked.print program) with
          | .error cause =>
            (some 1, ⟨fs, "", "fsroutes: " ++ (Failure.io path cause).message ++ "\n"⟩)
          | .ok after =>
            (if asked.watch then none else some 0,
              ⟨after, "", statusLine (usesColor surroundings asked.color) path program⟩) := by
  simp only [run, parsed, Arguments.execute, EStateM.run_bind, Arguments.run_prepare narrow]
  cases asked.rendered fs with
  | error failure => rfl
  | ok program =>
    dsimp only
    cases isOutput : asked.output with
    | none =>
      simp only [Arguments.deliver, isOutput]
      rfl
    | some path =>
      simp only [Arguments.deliver, isOutput, EStateM.run_bind, Action.run_writeIfChanged]
      cases writtenIfChanged fs path (asked.print program) with
      | error => rfl
      | ok after => rfl

/-- A run leaves behind one of these. -/
theorem exists_leaves (surroundings : Surroundings)
    (isThere : fs.kind? fs.workingDirectory = some .directory) (tidy : fs.Tidy IsName)
    {line : List String} (parsed : Arguments.parse line = .ok asked)
    (narrow : asked.isTooWide = false) (once : asked.watch = false) :
    ∃ code world, run fs surroundings line = (code, world) ∧
      asked.Leaves surroundings fs code world ∧ world.files.Tidy IsName := by
  have ran := run_of_parsed parsed narrow fs surroundings
  cases rendered : asked.rendered fs with
  | error failure =>
    rw [rendered] at ran
    exact ⟨_, _, ran, .failed (.rendering rendered), tidy⟩
  | ok program =>
    cases isOutput : asked.output with
    | none =>
      simp only [rendered, isOutput] at ran
      exact ⟨_, _, ran, .printed isOutput rendered rfl, tidy⟩
    | some path =>
      cases wrote : writtenIfChanged fs path (asked.print program) with
      | error cause =>
        simp only [rendered, isOutput, wrote] at ran
        exact ⟨_, _, ran, .failed (.opening rendered isOutput (openFile_of_writtenIfChanged wrote)),
          tidy⟩
      | ok after =>
        simp only [rendered, isOutput, wrote, once, Bool.false_eq_true, if_false] at ran
        obtain ⟨location, leads, written, tidyAfter⟩ :=
          written_of_writtenIfChanged isThere tidy wrote
        exact ⟨_, _, ran, .wrote isOutput rendered rfl leads written, tidyAfter⟩

/-! ## The same run again -/

/-- A file is new that a scan of the canonical directory records by now. -/
def Arguments.CreatesEntryPoint (asked : Arguments) (fs after : FileSystem) : Prop :=
  ∃ location root tree, fs.kind? location = none ∧ after.kind? location = some .file ∧
    after.canonical asked.directory = .ok root ∧ after.scan asked.ignored root = .ok tree ∧
    FileSystem.pathOf location ∈ tree.files.map (·.path)

/-- What was rendered is rendered again. -/
theorem Arguments.rendered_again (isThere : fs.kind? fs.workingDirectory = some .directory)
    (tidy : fs.Tidy IsName) (tidyAfter : after.Tidy IsName)
    (written : fs.Written location text after) (rendered : asked.rendered fs = .ok program)
    (noneCreated : ¬ asked.CreatesEntryPoint fs after) :
    asked.rendered after = .ok program := by
  obtain ⟨root, tree, canonical, scanned, isProgram⟩ := rendered_eq_ok_iff.1 rendered
  obtain ⟨top, rootAt⟩ := FileSystem.exists_rootAt_of_scan scanned
  have canonicalAfter := written.canonical canonical
  refine rendered_eq_ok_iff.2 ⟨root, tree, canonicalAfter, ?_, isProgram⟩
  refine written.scan tidy tidyAfter rootAt scanned fun names isLocation admitted isFree => ?_
  subst isLocation
  obtain ⟨fresh, scannedAfter⟩ := written.exists_scan tidyAfter rootAt scanned
  obtain ⟨place, placeAt, lists⟩ := FileSystem.mem_paths_of_scan tidyAfter scannedAfter
  cases placeAt.1.symm.trans (written.rootAt rootAt).1
  have isPath : FileSystem.pathOf (top ++ names) = root.descendant names := by
    rw [FileSystem.rootAt_of_canonical isThere tidy canonical rootAt]
    exact FileSystem.pathOf_append
      (tidyAfter.valid_of_kind? (by rw [written.isFile]; exact nofun))
  exact noneCreated ⟨top ++ names, root, fresh, isFree, written.isFile, canonicalAfter,
    scannedAfter, (lists _).2 ⟨names, ⟨admitted, written.isFile⟩, isPath⟩⟩

/-- A run that has written its output finds it as it is to be. -/
theorem run_again {line : List String} (parsed : Arguments.parse line = .ok asked)
    (narrow : asked.isTooWide = false) (once : asked.watch = false)
    (isOutput : asked.output = some path) (rendered : asked.rendered after = .ok program)
    (read : after.read path = .ok (asked.print program)) :
    run after surroundings line =
      (some 0, ⟨after, "", statusLine (usesColor surroundings asked.color) path program⟩) := by
  simp only [run_of_parsed parsed narrow, rendered, isOutput, writtenIfChanged_of_read read, once,
    Bool.false_eq_true, if_false]

/-- A run whose arguments are read, which is not to watch and whose indentation is not too
wide, leaves behind the whole of its work or none of it. It exits with 0 after it has
printed the text that the files in the directory are rendered to, or has made its output
file hold that text, and otherwise with 1. The same run again has the same outcome and
changes nothing, unless the first one has created an entry point of its own. -/
theorem run_whole_and_repeatable (fs : FileSystem) (surroundings : Surroundings)
    (line : List String) (asked : Arguments)
    (isThere : fs.kind? fs.workingDirectory = some .directory) (tidy : fs.Tidy IsName)
    (parsed : Arguments.parse line = .ok asked) (narrow : asked.isTooWide = false)
    (once : asked.watch = false) :
    ∃ code world, run fs surroundings line = (code, world) ∧
      asked.Leaves surroundings fs code world ∧
      (¬ asked.CreatesEntryPoint fs world.files →
        run world.files surroundings line = (code, world)) := by
  obtain ⟨code, world, ran, leaves, tidyAfter⟩ :=
    exists_leaves surroundings isThere tidy parsed narrow once
  refine ⟨code, world, ran, leaves, fun noneCreated => ?_⟩
  cases leaves with
  | printed => exact ran
  | wrote isOutput rendered isText leads written =>
    subst isText
    exact run_again parsed narrow once isOutput
      (Arguments.rendered_again isThere tidy tidyAfter written rendered noneCreated)
      (written.read leads)
  | failed => exact ran

/-- The output is written behind a link that leads nowhere yet, into the directory itself,
where a scan does not record it. -/
theorem run_whole_and_repeatable_behind_link :
    let fs : FileSystem := ⟨[⟨"app", .directory [⟨"a.entrypoint.js", .file ""⟩]⟩,
      ⟨"out", .link ⟨"app/out.js"⟩⟩], []⟩
    let line := ["app", "out"]
    let asked : Arguments := ⟨⟨"app"⟩, some ⟨"out"⟩, false, 2, [], 0, false,
      .ofMilliseconds 100, .auto, 0⟩
    fs.kind? fs.workingDirectory = some .directory ∧ fs.Tidy IsName ∧
      Arguments.parse line = .ok asked ∧ asked.isTooWide = false ∧ asked.watch = false ∧
      ∃ world, run fs ⟨[], false⟩ line = (some 0, world) ∧
        asked.Leaves ⟨[], false⟩ fs (some 0) world ∧ ¬ asked.CreatesEntryPoint fs world.files ∧
        run world.files ⟨[], false⟩ line = (some 0, world) := by
  intro fs line asked
  have isThere : fs.kind? fs.workingDirectory = some .directory := rfl
  have tidy : fs.Tidy IsName :=
    .cons (by decide) (by decide) (.single (by decide) (.file "")) (.single (by decide) (.link _))
  have parsed : Arguments.parse line = .ok asked := by decide +kernel
  have narrow : asked.isTooWide = false := by decide
  have isDone : (run fs ⟨[], false⟩ line).1 = some 0 := by decide +kernel
  have place : (run fs ⟨[], false⟩ line).2.files.resolve .follow ⟨"out"⟩ =
      .ok ["app", "out.js"] := by
    decide +kernel
  have isRoot : (run fs ⟨[], false⟩ line).2.files.canonical ⟨"app"⟩ = .ok ⟨"/app"⟩ := by
    decide +kernel
  have found : ((run fs ⟨[], false⟩ line).2.files.scan [] ⟨"/app"⟩).map
      (·.files.map (·.path)) = .ok [⟨"/app/a.entrypoint.js"⟩] := by
    decide +kernel
  obtain ⟨code, world, ran, leaves, again⟩ :=
    run_whole_and_repeatable fs ⟨[], false⟩ line asked isThere tidy parsed narrow rfl
  rw [ran] at isDone place isRoot found
  have noneCreated : ¬ asked.CreatesEntryPoint fs world.files := by
    rintro ⟨location, root, tree, isFree, isFile, canonical, scanned, listed⟩
    cases leaves with
    | printed noOutput => cases noOutput
    | failed => cases isDone
    | wrote isOutput _ _ leads written =>
      cases isOutput
      cases isRoot.symm.trans canonical
      obtain rfl := written.eq_of_new isFree (by rw [isFile]; exact nofun)
      cases place.symm.trans leads
      obtain ⟨other, scannedOther, paths⟩ := map_eq_ok_iff.1 found
      cases scannedOther.symm.trans scanned
      rw [paths] at listed
      revert listed
      decide
  cases isDone
  exact ⟨isThere, tidy, parsed, narrow, rfl, world, ran, leaves, noneCreated, again noneCreated⟩

/-- A run that creates an entry point in its own directory finds one more the next time. -/
example :
    let fs : FileSystem := ⟨[⟨"app", .directory []⟩], []⟩
    let line := ["app", "app/b.entrypoint.js"]
    let after := (run fs ⟨[], false⟩ line).2
    after.errors = "   Wrote app/b.entrypoint.js (0 entry points)\n" ∧
      (run after.files ⟨[], false⟩ line).2.errors =
        "   Wrote app/b.entrypoint.js (1 entry points)\n" := by
  decide +kernel

end CommandLine

end RouteAtlas
