import RouteAtlas.CommandLine.Arguments
import RouteAtlas.FileSystem.Change
import RouteAtlas.Registry
import RouteAtlas.RoutesModule.AsJson
import RouteAtlas.RoutesModule.JavaScript

/-!
# Running a command line

A run scans the directory, makes its routes module and prints it or writes it to
a file; a file that already holds the text is left alone. It acts on a `World`, step by
step, and what it has done stays done if a later step fails.

The exit code is 0 for a run that did its work, 1 for one that failed, 2 for arguments
that were refused and 101 for a run that broke down: numbers that are too large to work
with are found out only when they are needed. With `--watch` there is no exit code: a run
that has written its file goes on, and what it then does is up to `Registry.process`.

Left out are the log, the report of a run that broke down, and the start of the watcher.
The help text and the reports on refused arguments are those of the parser of command
lines that the program is built with, and are left out as well.
-/

set_option autoImplicit false

namespace RouteAtlas.CommandLine

/-- The name by which the program speaks of itself. -/
def programName : String := "fsroutes"

/-- The line that tells the version. -/
def versionLine : String := programName ++ " 0.1.0\n"

/-- What a run sees of its surroundings besides the file system. -/
structure Surroundings where
  /-- The variables that are set, with their values. -/
  environment : List (String × String)
  /-- Whether errors are shown on a terminal. -/
  terminal : Bool
  deriving DecidableEq, Repr

/-- Whether status lines are colored. Unless the arguments decide, a variable
against colors comes before one for them, and both before the terminal. -/
def usesColor (surroundings : Surroundings) : ColorMode → Bool
  | .always => true
  | .never => false
  | .auto =>
    if (surroundings.environment.lookup "NO_COLOR").isSome then false
    else if (surroundings.environment.lookup "FORCE_COLOR").isSome then true
    else if surroundings.environment.lookup "TERM" = some "dumb" then false
    else surroundings.terminal

/-- A text in bold green. -/
def highlighted (text : String) : String :=
  "\x1b[0m\x1b[1m\x1b[32m" ++ text ++ "\x1b[0m"

/-- The line that reports a written file. -/
def statusLine (color : Bool) (output : Path) (program : RoutesModule) : String :=
  let verb := "   Wrote"
  (if color then highlighted verb else verb) ++ " " ++ output.text ++ " (" ++
    toString program.imports.length ++ " entry points)\n"

/-- The text of a routes module in the format that the arguments ask for. -/
def Arguments.print (arguments : Arguments) (program : RoutesModule) : String :=
  if arguments.json then program.jsonText else program.moduleText arguments.indent

/-- The name under which the only app is registered. -/
def appName : String := "routes"

/-- The registry with the directory that the arguments name as its only app.
The app's root is the canonical path of the directory. -/
def Arguments.registry (arguments : Arguments) (fs : FileSystem) : Except Failure Registry :=
  match fs.canonical arguments.directory with
  | .error cause => .error (.io arguments.directory cause)
  | .ok root => Registry.scan fs arguments.ignored [(appName, root)]

/-- Whether the arguments ask for more spaces than an indentation can have. The
JSON format does not look at the number. -/
def Arguments.isTooWide (arguments : Arguments) : Bool :=
  !arguments.json && RoutesModule.indentLimit ≤ arguments.indent

/-! ## Actions -/

/-- What a run acts on: the files, and what it has put out so far. -/
structure World where
  files : FileSystem
  output : String
  errors : String

/-- Prints a text. -/
def World.print (world : World) (text : String) : World :=
  { world with output := world.output ++ text }

/-- Prints a text where errors are shown. -/
def World.report (world : World) (text : String) : World :=
  { world with errors := world.errors ++ text }

/-- Why a run does not get to its end. -/
inductive Abort where
  | failed (failure : Failure)
  /-- A number is too large. -/
  | brokeDown
  deriving DecidableEq, Repr

/-- A part of a run. If it does not get to its end, what it has done until then stays. -/
abbrev Action := EStateM Abort World

namespace Action

/-- Goes on with what was found out, unless that failed. -/
def ofExcept {α : Type} : Except Failure α → Action α
  | .ok a => pure a
  | .error failure => throw (.failed failure)

/-- Writes a text to a file, unless the file already holds exactly that. The file is
opened first, which empties it. -/
def writeIfChanged (path : Path) (text : String) : Action Unit := do
  let world ← get
  if (world.files.read path).toOption = some text then return ()
  match world.files.openFile path with
  | .error cause => throw (.failed (.io path cause))
  | .ok (files, location) =>
    modify fun world => { world with files := files }
    modify fun world => { world with files := world.files.putText location text }

end Action

/-- Scans the directory that complete arguments name and makes its routes module. The number
of jobs makes no difference to a scan (`FileSystem.scanWith_eq_scan`). -/
def Arguments.prepare (arguments : Arguments) : Action RoutesModule := do
  let world ← get
  let registry ← Action.ofExcept (arguments.registry world.files)
  if arguments.isTooWide then throw .brokeDown
  else Action.ofExcept (registry.render appName)

/-- Prints a routes module, or writes it to the output file and reports that. The answer is
the exit code, unless the run goes on to watch the directory. -/
def Arguments.deliver (arguments : Arguments) (surroundings : Surroundings)
    (program : RoutesModule) : Action (Option Nat) :=
  match arguments.output with
  | none => do
    modify (·.print (arguments.print program))
    return some 0
  | some output => do
    Action.writeIfChanged output (arguments.print program)
    modify (·.report (statusLine (usesColor surroundings arguments.color) output program))
    return if arguments.watch then none else some 0

/-- Does what complete arguments ask for. -/
def Arguments.execute (arguments : Arguments) (surroundings : Surroundings) :
    Action (Option Nat) := do
  arguments.deliver surroundings (← arguments.prepare)

/-- Runs a command line. Gives the exit code, if the run ends, and what it has made of the
files. -/
def run (fs : FileSystem) (surroundings : Surroundings) (arguments : List String) :
    Option Nat × World :=
  let start : World := ⟨fs, "", ""⟩
  match Arguments.parse arguments with
  | .error .version => (some 0, start.print versionLine)
  | .error .help => (some 0, start)
  | .error .breakdown => (some 101, start)
  | .error (.usage _) => (some 2, start)
  | .ok arguments =>
    match (arguments.execute surroundings).run start with
    | .ok code world => (code, world)
    | .error (.failed failure) world =>
      (some 1, world.report (programName ++ ": " ++ failure.message ++ "\n"))
    | .error .brokeDown world => (some 101, world)

end RouteAtlas.CommandLine
