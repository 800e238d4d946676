import RouteAtlas.Text.Blank

/-!
# Durations

A duration is written as a sum of spans such as `2m 3ms`, each a number and a
unit. Blanks may stand in front of a span and inside its number, a span may
directly follow the unit of the one before it, and a number may have decimal
places.

A duration counts whole seconds and the nanoseconds beyond them. The decimal
places of short units are counted in nanoseconds, those of long units in
seconds, and they must come out even: a duration is never rounded. Numbers, and
the seconds and nanoseconds on the way to a sum, must fit into 64 bits.

A text that breaks these rules is refused. One flaw is worse than that: where
nanoseconds fill up exactly the last second that can be counted, there is no
next second to carry them to, and whoever reads the text has to give up.
-/

set_option autoImplicit false

namespace RouteAtlas

/-- A length of time: its whole seconds and the nanoseconds beyond them. -/
structure Duration where
  seconds : Nat
  nanoseconds : Nat
  deriving DecidableEq, Repr

namespace Duration

/-- The first number that does not fit into 64 bits. -/
def limit : Nat := 18446744073709551616

/-- The nanoseconds of a second. -/
def secondLength : Nat := 1000000000

/-- No time at all. -/
def zero : Duration := ⟨0, 0⟩

/-- The duration of this many milliseconds. -/
def ofMilliseconds (count : Nat) : Duration :=
  ⟨count / 1000, count % 1000 * 1000000⟩

/-- Why a text gives no duration. -/
inductive Flaw where
  /-- The text is not that of a duration, or counts too much. -/
  | refused
  /-- The last second that can be counted is full. -/
  | fatal
  deriving DecidableEq, Repr

/-- What durations are counted in. -/
inductive Grain where
  | second
  | nanosecond
  deriving DecidableEq, Repr

/-- A duration that is longer by this many seconds or nanoseconds. -/
def add (duration : Duration) (grain : Grain) (count : Nat) : Except Flaw Duration :=
  let (seconds, nanoseconds) := match grain with
    | .second => (count, 0)
    | .nanosecond => (0, count)
  let beyond := duration.nanoseconds + nanoseconds
  let whole := duration.seconds + seconds + beyond / secondLength
  if beyond < limit ∧ whole < limit then .ok ⟨whole, beyond % secondLength⟩
  else if beyond = secondLength ∧ whole = limit then .error .fatal
  else .error .refused

/-- A measure of time: so many seconds or nanoseconds. -/
structure Measure where
  grain : Grain
  count : Nat
  deriving DecidableEq, Repr

/-- How numbers of a unit are counted. -/
structure TimeUnit where
  /-- How long the unit is. -/
  whole : Measure
  /-- How long the unit is when its decimal places are counted; `none` for a unit
  that takes none. -/
  divided : Option Measure
  deriving DecidableEq, Repr

/-- A unit of nanoseconds that can be divided down to one of them. -/
def shortUnit (nanoseconds : Nat) : TimeUnit :=
  ⟨⟨.nanosecond, nanoseconds⟩, some ⟨.nanosecond, nanoseconds⟩⟩

/-- A unit of seconds that can be divided down to nanoseconds. -/
def mediumUnit (seconds : Nat) : TimeUnit :=
  ⟨⟨.second, seconds⟩, some ⟨.nanosecond, seconds * secondLength⟩⟩

/-- A unit of seconds that can be divided down to seconds only. -/
def longUnit (seconds : Nat) : TimeUnit :=
  ⟨⟨.second, seconds⟩, some ⟨.second, seconds⟩⟩

/-- The units under each of their spellings. -/
def units : List (String × TimeUnit) :=
  let all (names : List String) (unit : TimeUnit) := names.map (·, unit)
  all ["nanos", "nsec", "ns"] ⟨⟨.nanosecond, 1⟩, none⟩ ++
  all ["usec", "us", "µs"] (shortUnit 1000) ++
  all ["millis", "msec", "ms"] (shortUnit 1000000) ++
  all ["seconds", "second", "secs", "sec", "s"] (mediumUnit 1) ++
  all ["minutes", "minute", "mins", "min", "m"] (mediumUnit 60) ++
  all ["hours", "hour", "hrs", "hr", "h"] (longUnit 3600) ++
  all ["days", "day", "d"] (longUnit 86400) ++
  all ["weeks", "week", "wks", "wk", "w"] (longUnit 604800) ++
  all ["months", "month", "M"] (longUnit 2630016) ++
  all ["years", "year", "yrs", "yr", "y"] (longUnit 31557600)

/-- A number as it is written: its whole part, and the digits and the count of
its decimal places. -/
structure Numeral where
  whole : Nat
  digits : Nat
  places : Nat
  deriving DecidableEq, Repr

/-- A duration that is longer by the decimal places of a number. A part of what
they are counted in is refused. -/
def addPlaces (duration : Duration) (numeral : Numeral) (unit : TimeUnit) :
    Except Flaw Duration :=
  match unit.divided with
  | none => .error .refused
  | some measure =>
    let product := numeral.digits * measure.count
    let parts := Nat.pow 10 numeral.places
    if product < limit ∧ product % parts = 0 then duration.add measure.grain (product / parts)
    else .error .refused

/-- A duration that is longer by a number of a unit. -/
def addSpan (duration : Duration) (numeral : Numeral) (unit : TimeUnit) :
    Except Flaw Duration := do
  let longer ← duration.add unit.whole.grain (numeral.whole * unit.whole.count)
  if numeral.places = 0 then .ok longer else longer.addPlaces numeral unit

/-- What has been read of the next span. -/
inductive Reading where
  /-- Nothing; `first` as long as there was no span at all. -/
  | between (first : Bool)
  /-- Some digits of a number. -/
  | whole (number : Nat)
  /-- A number with a decimal point. -/
  | decimals (numeral : Numeral)
  /-- A number and some letters of a unit, the last one first. -/
  | unit (numeral : Numeral) (letters : List Char)
  deriving DecidableEq, Repr

/-- The sum of the spans that are complete, and the reading of the next. -/
structure Progress where
  sum : Duration
  reading : Reading
  deriving DecidableEq, Repr

/-- The most decimal places of a number. -/
def placeLimit : Nat := 19

/-- Whether a character can stand in a unit. -/
def isUnitLetter (c : Char) : Bool := c.isAlpha || c == 'µ'

/-- The value of a digit. -/
def digitValue (c : Char) : Nat := c.toNat - '0'.toNat

/-- The sum with the span that a number and the letters of a unit make. -/
def Progress.complete (progress : Progress) (numeral : Numeral) (letters : List Char) :
    Except Flaw Duration :=
  match units.lookup (String.ofList letters.reverse) with
  | none => .error .refused
  | some unit => progress.sum.addSpan numeral unit

/-- Reads one more character. -/
def Progress.next (progress : Progress) (c : Char) : Except Flaw Progress :=
  match progress.reading with
  | .between _ =>
    if c.isDigit then .ok { progress with reading := .whole (digitValue c) }
    else if Text.isBlank c then .ok progress
    else .error .refused
  | .whole number =>
    if c.isDigit then
      let number := 10 * number + digitValue c
      if number < limit then .ok { progress with reading := .whole number } else .error .refused
    else if Text.isBlank c then .ok progress
    else if isUnitLetter c then .ok { progress with reading := .unit ⟨number, 0, 0⟩ [c] }
    else if c = '.' then .ok { progress with reading := .decimals ⟨number, 0, 0⟩ }
    else .error .refused
  | .decimals numeral =>
    if c.isDigit then
      if numeral.places < placeLimit then
        let digits := 10 * numeral.digits + digitValue c
        .ok { progress with reading := .decimals ⟨numeral.whole, digits, numeral.places + 1⟩ }
      else .error .refused
    else if Text.isBlank c then .ok progress
    else if isUnitLetter c ∧ numeral.places ≠ 0 then
      .ok { progress with reading := .unit numeral [c] }
    else .error .refused
  | .unit numeral letters =>
    if isUnitLetter c then
      .ok { progress with reading := .unit numeral (c :: letters) }
    else if c.isDigit then
      (progress.complete numeral letters).map (⟨·, .whole (digitValue c)⟩)
    else if Text.isBlank c then
      (progress.complete numeral letters).map (⟨·, .between false⟩)
    else .error .refused

/-- The sum when nothing more is to be read. -/
def Progress.finish (progress : Progress) : Except Flaw Duration :=
  match progress.reading with
  | .between first => if first then .error .refused else .ok progress.sum
  | .unit numeral letters => progress.complete numeral letters
  | _ => .error .refused

/-- The duration that a text spells, blanks at its ends left out. A bare zero
needs no unit. -/
def parse (text : String) : Except Flaw Duration :=
  let trimmed := Text.trim text.toList
  if trimmed = ['0'] then .ok zero
  else do (← trimmed.foldlM Progress.next ⟨zero, .between true⟩).finish

end Duration

end RouteAtlas
