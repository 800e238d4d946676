import RouteAtlas.CommandLine.Run
import RouteAtlas.FileSystem.Listing

/-!
# The program

The program runs its arguments as a command line in the working directory. It
sees the file system as a value, which it makes from a listing on its standard
input: one line for each item, in the form that `FileSystem.ofListing` reads,
relative to the working directory or absolute. What the run has to say is
printed, and the file that the run has changed is written.
-/

set_option autoImplicit false

namespace RouteAtlas

/-- The lines that are left of a stream. -/
partial def readLines (input : IO.FS.Stream) (read : List String) : IO (List String) := do
  let line ← input.getLine
  if line.isEmpty then return read.reverse
  readLines input (String.ofList (line.toList.takeWhile (· ≠ '\n')) :: read)

/-- The variables that decide about colors, as far as they are set. -/
def colorVariables : IO (List (String × String)) := do
  let mut found := []
  for name in ["NO_COLOR", "FORCE_COLOR", "TERM"] do
    if let some value ← IO.getEnv name then
      found := (name, value) :: found
  return found

/-- Writes the output file if a run has changed it. -/
def writeOutput (arguments : List String) (before after : FileSystem) : IO Unit := do
  match CommandLine.Arguments.parse arguments with
  | .ok ⟨_, some path, _, _, _, _, _, _, _, _⟩ =>
    let text? := (after.read path).toOption
    if text? ≠ (before.read path).toOption then
      if let some text := text? then IO.FS.writeFile path.text text
  | _ => return

/-- Runs a command line in the working directory and gives its exit code. A run that would
go on to watch the directory ends here. -/
def runProgram (arguments : List String) : IO UInt32 := do
  let workingDirectory : Path := ⟨toString (← IO.currentDir)⟩
  let fs := FileSystem.ofListing workingDirectory.steps (← readLines (← IO.getStdin) [])
  let surroundings := ⟨← colorVariables, ← (← IO.getStderr).isTty⟩
  let (code, world) := CommandLine.run fs surroundings arguments
  IO.print world.output
  IO.eprint world.errors
  writeOutput arguments fs world.files
  return (code.getD 0).toUInt32

end RouteAtlas

/-- The command line. -/
def main (arguments : List String) : IO UInt32 :=
  RouteAtlas.runProgram arguments
