import RouteAtlas.CommandLine.Duration
import RouteAtlas.Path

/-!
# Command line arguments

The arguments are read from left to right. Options may stand anywhere; a long
option takes its value behind `=` or from the next argument, a short one from
the same or the next argument, and short options without a value may be joined.
After `--` everything is positional. A value taken from the next argument may
not look like an option.

Reading stops at the first argument that is wrong, or at one that asks for the
version or for help. What can only be judged when all arguments are read is
judged last. A value with a fatal flaw stops more than the reading: the whole
run breaks down.

The program leaves the reading to a parser that it is built with. What stands here is how
that parser reads the options that the program declares; the wording of its reports and
its help text are left out.
-/

set_option autoImplicit false

namespace RouteAtlas.CommandLine

/-- When status lines are colored. -/
inductive ColorMode where
  | auto
  | always
  | never
  deriving DecidableEq, Repr

/-- The color mode of the given name. -/
def ColorMode.ofName? (name : String) : Option ColorMode :=
  if name = "auto" then some .auto
  else if name = "always" then some .always
  else if name = "never" then some .never
  else none

/-- Why arguments are refused. -/
inductive UsageError where
  | unknownOption (option : String)
  | unexpectedValue (option : String)
  | missingValue (option : String)
  | invalidValue (option value : String)
  | repeated (option : String)
  | tooMany (argument : String)
  | emptyPath
  | missingDirectory
  /-- Watching needs a file to keep up to date. -/
  | watchWithoutOutput
  deriving DecidableEq, Repr

/-- Why reading the arguments ends early. -/
inductive Stop where
  | usage (error : UsageError)
  | version
  | help
  /-- A value cannot even be judged. -/
  | breakdown
  deriving DecidableEq, Repr

/-- An option without a value. -/
inductive Switch where
  | json
  | watch
  | verbose
  | version
  | help
  deriving DecidableEq, Repr

/-- An option with a value. -/
inductive Setting where
  | indent
  | ignore
  | jobs
  | debounce
  | color
  deriving DecidableEq, Repr

/-- The long spelling of an option without a value. -/
def Switch.longName : Switch → String
  | .json => "--json"
  | .watch => "--watch"
  | .verbose => "--verbose"
  | .version => "--version"
  | .help => "--help"

/-- The long spelling of an option with a value. -/
def Setting.longName : Setting → String
  | .indent => "--indent"
  | .ignore => "--ignore"
  | .jobs => "--jobs"
  | .debounce => "--debounce"
  | .color => "--color"

/-- The option without a value that a long spelling means. -/
def Switch.ofLong? (option : String) : Option Switch :=
  [json, watch, verbose, version, help].find? (·.longName = option)

/-- The option with a value that a long spelling means. -/
def Setting.ofLong? (option : String) : Option Setting :=
  [indent, ignore, jobs, debounce, color].find? (·.longName = option)

/-- The option without a value that a letter means. -/
def Switch.ofShort? : Char → Option Switch
  | 'w' => some .watch
  | 'v' => some .verbose
  | 'V' => some .version
  | 'h' => some .help
  | _ => none

/-- The option with a value that a letter means. -/
def Setting.ofShort? : Char → Option Setting
  | 'I' => some .ignore
  | 'j' => some .jobs
  | _ => none

/-- What the arguments read so far have said. -/
structure Draft where
  /-- Positional arguments, the last one first. -/
  positional : List String
  json : Bool
  watch : Bool
  verbosity : Nat
  indent : Option Nat
  /-- Ignore patterns, the last one first. -/
  ignored : List String
  jobs : Option Nat
  debounce : Option Duration
  color : Option ColorMode
  /-- An option whose value is the next argument. -/
  pending : Option Setting
  /-- Whether everything that follows is positional. -/
  onlyPositional : Bool
  deriving DecidableEq, Repr

/-- The draft before any argument is read. -/
def Draft.blank : Draft :=
  ⟨[], false, false, 0, none, [], none, none, none, none, false⟩

/-- The number that a text spells: digits behind an optional plus sign, within
64 bits. -/
def number? (text : String) : Option Nat :=
  let digits := match text.toList with
    | '+' :: rest => rest
    | all => all
  if digits.isEmpty || !digits.all Char.isDigit then none
  else
    let value := digits.foldl (fun value c => 10 * value + Duration.digitValue c) 0
    if value < Duration.limit then some value else none

/-- Ends the reading with a usage error. -/
def refuse {α : Type} (error : UsageError) : Except Stop α := .error (.usage error)

/-- The value of an option, whose text may have turned out to spell none. -/
def required {α : Type} (setting : Setting) (text : String) : Option α → Except Stop α
  | some value => .ok value
  | none => refuse (.invalidValue setting.longName text)

/-- The number that an option is given. -/
def readNumber (setting : Setting) (text : String) : Except Stop Nat :=
  required setting text (number? text)

/-- The color mode that an option is given. -/
def readColorMode (setting : Setting) (text : String) : Except Stop ColorMode :=
  required setting text (ColorMode.ofName? text)

/-- The duration that an option is given. -/
def readDuration (setting : Setting) (text : String) : Except Stop Duration :=
  match Duration.parse text with
  | .ok duration => .ok duration
  | .error .refused => refuse (.invalidValue setting.longName text)
  | .error .fatal => .error .breakdown

/-- Sets what has not been set yet to the value that a text gives. -/
def setOnce {α : Type} (setting : Setting) (current : Option α)
    (read : Setting → String → Except Stop α) (text : String) : Except Stop (Option α) :=
  if current.isSome then refuse (.repeated setting.longName)
  else (read setting text).map some

namespace Draft

/-- Turns on an option without a value. -/
def turnOn (draft : Draft) : Switch → Except Stop Draft
  | .json =>
    if draft.json then refuse (.repeated Switch.json.longName)
    else .ok { draft with json := true }
  | .watch =>
    if draft.watch then refuse (.repeated Switch.watch.longName)
    else .ok { draft with watch := true }
  | .verbose => .ok { draft with verbosity := draft.verbosity + 1 }
  | .version => .error .version
  | .help => .error .help

/-- Gives an option its value. -/
def set (draft : Draft) (setting : Setting) (value : String) : Except Stop Draft :=
  match setting with
  | .indent =>
    (setOnce setting draft.indent readNumber value).map fun indent => { draft with indent := indent }
  | .ignore => .ok { draft with ignored := value :: draft.ignored }
  | .jobs =>
    (setOnce setting draft.jobs readNumber value).map fun jobs => { draft with jobs := jobs }
  | .debounce =>
    (setOnce setting draft.debounce readDuration value).map fun debounce =>
      { draft with debounce := debounce }
  | .color =>
    (setOnce setting draft.color readColorMode value).map fun color =>
      { draft with color := color }

/-- Adds a positional argument; there is room for two. -/
def addPositional (draft : Draft) (argument : String) : Except Stop Draft :=
  if 2 ≤ draft.positional.length then refuse (.tooMany argument)
  else if argument.isEmpty then refuse .emptyPath
  else .ok { draft with positional := argument :: draft.positional }

/-- Reads a long option, with the value behind its `=` if it has one. -/
def readLong (draft : Draft) (option : String) (value? : Option String) : Except Stop Draft :=
  match Switch.ofLong? option, Setting.ofLong? option, value? with
  | some switch, _, none => draft.turnOn switch
  | some _, _, some _ => refuse (.unexpectedValue option)
  | none, some setting, some value => draft.set setting value
  | none, some setting, none => .ok { draft with pending := some setting }
  | none, none, _ => refuse (.unknownOption option)

/-- Reads the letters behind a dash. -/
def readShort (draft : Draft) : List Char → Except Stop Draft
  | [] => .ok draft
  | letter :: rest =>
    match Switch.ofShort? letter, Setting.ofShort? letter with
    | some switch, _ =>
      match draft.turnOn switch with
      | .ok draft => draft.readShort rest
      | .error stop => .error stop
    | none, some setting =>
      match rest with
      | [] => .ok { draft with pending := some setting }
      | '=' :: value => draft.set setting (String.ofList value)
      | value => draft.set setting (String.ofList value)
    | none, none => refuse (.unknownOption (String.ofList ['-', letter]))

/-- The text before the first `=` and the text behind it, if there is one. -/
def splitValue (text : List Char) : List Char × Option (List Char) :=
  (text.takeWhile (· ≠ '='),
    match text.dropWhile (· ≠ '=') with
    | [] => none
    | _ :: value => some value)

/-- Reads one argument. -/
def read (draft : Draft) (argument : String) : Except Stop Draft :=
  if draft.onlyPositional then draft.addPositional argument
  else
    match draft.pending, argument.toList with
    | some setting, '-' :: _ :: _ => refuse (.missingValue setting.longName)
    | some setting, _ => { draft with pending := none }.set setting argument
    | none, ['-', '-'] => .ok { draft with onlyPositional := true }
    | none, '-' :: '-' :: long =>
      let (option, value) := splitValue long
      draft.readLong ("--" ++ String.ofList option) (value.map String.ofList)
    | none, '-' :: letter :: rest => draft.readShort (letter :: rest)
    | none, _ => draft.addPositional argument

end Draft

/-- Complete arguments. -/
structure Arguments where
  directory : Path
  /-- The file to write; without one the text is printed. -/
  output : Option Path
  json : Bool
  /-- Spaces per depth of indentation. -/
  indent : Nat
  ignored : List String
  /-- How many directories may be read at the same time. -/
  jobs : Nat
  watch : Bool
  /-- How long nothing must happen before the file is written again. -/
  debounce : Duration
  color : ColorMode
  verbosity : Nat
  deriving DecidableEq, Repr

/-- Completes a draft by the defaults. -/
def Draft.complete (draft : Draft) : Except Stop Arguments :=
  match draft.pending with
  | some setting => refuse (.missingValue setting.longName)
  | none =>
    match draft.positional.reverse with
    | [] => refuse .missingDirectory
    | directory :: others =>
      if draft.watch && others.isEmpty then refuse .watchWithoutOutput
      else .ok {
        directory := ⟨directory⟩
        output := others.head?.map (⟨·⟩)
        json := draft.json
        indent := draft.indent.getD 2
        ignored := draft.ignored.reverse
        jobs := draft.jobs.getD 0
        watch := draft.watch
        debounce := draft.debounce.getD (.ofMilliseconds 100)
        color := draft.color.getD .auto
        verbosity := draft.verbosity }

/-- Reads the arguments of a command line. -/
def Arguments.parse (arguments : List String) : Except Stop Arguments := do
  (← arguments.foldlM Draft.read Draft.blank).complete

end RouteAtlas.CommandLine
