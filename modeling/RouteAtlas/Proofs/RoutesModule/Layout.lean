import Mathlib.Data.List.Basic
import RouteAtlas.RoutesModule.JavaScript

/-!
# The layout of a text with brackets

A reader goes through a text one character at a time and counts the brackets that are open,
knowing no more than whether it stands in a string literal (`JavaScript.Reading`). That
tells the depth of each line. A text is another one indented (`JavaScript.Indented`) if it
differs from it only in the spaces behind its line breaks, which are the given width as
many times as the line is deep.

The lines of the two texts are then the same up to the spaces in front of them, and the
spaces are as many as the brackets ask for (`JavaScript.Indented.layout`): the reader comes
out of a line in the same state with the spaces or without them, since no line starts
behind a backslash.
-/

set_option autoImplicit false

namespace RouteAtlas.JavaScript

/-! ## Lines -/

/-- The lines of a text. -/
def linesOf (text : List Char) : List (List Char) := text.splitOn '\n'

/-- The number of spaces at the front of a line. -/
def leadingSpaces (line : List Char) : Nat := (line.takeWhile (· = ' ')).length

/-- A line without the spaces at its front. -/
def trimmed (line : List Char) : List Char := line.dropWhile (· = ' ')

/-- A text without line breaks in front of one is a line. -/
theorem linesOf_line {line : List Char} (noBreak : '\n' ∉ line) (text : List Char) :
    linesOf (line ++ '\n' :: text) = line :: linesOf text :=
  List.splitOn_append_cons_self_of_not_mem noBreak text

/-- A line break at the front of a text ends an empty line. -/
theorem linesOf_lineBreak (text : List Char) : linesOf ('\n' :: text) = [] :: linesOf text :=
  linesOf_line List.not_mem_nil text

/-- A character in front of a text belongs to its first line. -/
theorem linesOf_cons {c : Char} (noBreak : c ≠ '\n') {text line : List Char}
    {rest : List (List Char)} (split : linesOf text = line :: rest) :
    linesOf (c :: text) = (c :: line) :: rest := by
  rw [linesOf, List.splitOn_cons_eq_if_modifyHead, if_neg (by simpa using noBreak), ← linesOf,
    split]
  rfl

/-- A text without line breaks in front of another belongs to its first line. -/
theorem linesOf_append {front : List Char} (noBreak : '\n' ∉ front) {text line : List Char}
    {rest : List (List Char)} (split : linesOf text = line :: rest) :
    linesOf (front ++ text) = (front ++ line) :: rest := by
  induction front with
  | nil => exact split
  | cons c front ih =>
    rw [List.mem_cons, not_or] at noBreak
    exact linesOf_cons (Ne.symm noBreak.1) (ih noBreak.2)

/-- The first line starts as the text does. -/
theorem head?_of_linesOf {text line : List Char} {rest : List (List Char)}
    (split : linesOf text = line :: rest) : line.head? = text.head?.filter (· ≠ '\n') := by
  cases text with
  | nil =>
    obtain ⟨rfl, -⟩ := List.cons.inj split
    rfl
  | cons c text =>
    by_cases isBreak : c = '\n'
    · subst isBreak
      rw [linesOf_lineBreak] at split
      obtain ⟨rfl, -⟩ := List.cons.inj split
      rfl
    · obtain ⟨first, later, splitText⟩ :=
        List.exists_cons_of_ne_nil (List.splitOn_ne_nil '\n' text)
      rw [linesOf_cons isBreak splitText] at split
      obtain ⟨rfl, -⟩ := List.cons.inj split
      exact (Option.filter_some_pos (by simpa using isBreak)).symm

/-- An indentation is trimmed off. -/
theorem trimmed_indentation (width depth : Nat) (line : List Char) :
    trimmed (indentation width depth ++ line) = trimmed line :=
  List.dropWhile_append_of_pos fun c member => by simp [(List.mem_replicate.1 member).2]

/-- An indentation adds its spaces to those that a line starts with. -/
theorem leadingSpaces_indentation (width depth : Nat) (line : List Char) :
    leadingSpaces (indentation width depth ++ line) = width * depth + leadingSpaces line := by
  rw [leadingSpaces, List.takeWhile_append_of_pos fun c member => by
    simp [(List.mem_replicate.1 member).2]]
  simp [indentation, leadingSpaces]

/-- A line that does not start with a space has nothing to trim. -/
theorem trimmed_of_flush {line : List Char} (flush : line.head? ≠ some ' ') :
    trimmed line = line ∧ leadingSpaces line = 0 := by
  cases line with
  | nil => exact ⟨rfl, rfl⟩
  | cons c rest =>
    have noSpace : c ≠ ' ' := by simpa using flush
    simp [trimmed, leadingSpaces, noSpace]

/-! ## Reading brackets -/

/-- Where a reader stands: in code, in a string literal, or behind a backslash in one. -/
inductive Spot where
  | code
  | literal
  | escaped
  deriving DecidableEq, Repr

/-- What a reader of a text knows: how many brackets are open and where it stands. -/
structure Reading where
  depth : Nat
  spot : Spot
  deriving DecidableEq, Repr

/-- Whether a line starts with a closing bracket, spaces left out. -/
def closes (line : List Char) : Bool :=
  (trimmed line).head?.any fun c => c = ']' ∨ c = '}'

/-- A line that does not start with a space closes something if its first character does. -/
theorem closes_of_flush {line : List Char} (flush : line.head? ≠ some ' ') :
    closes line = line.head?.any fun c => c = ']' ∨ c = '}' := by
  rw [closes, (trimmed_of_flush flush).1]

namespace Reading

/-- Nothing is read yet. -/
def start : Reading := ⟨0, .code⟩

/-- Reads a character. Brackets count in code only. -/
def next (reading : Reading) (c : Char) : Reading :=
  match reading.spot with
  | .code =>
    if c = '"' then { reading with spot := .literal }
    else if c = '[' ∨ c = '{' then { reading with depth := reading.depth + 1 }
    else if c = ']' ∨ c = '}' then { reading with depth := reading.depth - 1 }
    else reading
  | .literal =>
    if c = '"' then { reading with spot := .code }
    else if c = '\\' then { reading with spot := .escaped }
    else reading
  | .escaped => { reading with spot := .literal }

/-- Reads a text. -/
def after (reading : Reading) (text : List Char) : Reading := text.foldl next reading

/-- The depth of a line: the number of brackets that are open in front of it, without the
one that it starts with closing. -/
def depthOf (reading : Reading) (line : List Char) : Nat :=
  reading.depth - if closes line then 1 else 0

/-- The depths of some lines. -/
def depths (reading : Reading) : List (List Char) → List Nat
  | [] => []
  | line :: rest => reading.depthOf line :: ((reading.after line).next '\n').depths rest

/-- A space changes nothing, unless it is escaped. -/
theorem next_space {reading : Reading} (unescaped : reading.spot ≠ .escaped) :
    reading.next ' ' = reading := by
  obtain ⟨depth, _ | _ | _⟩ := reading
  · rfl
  · rfl
  · exact absurd rfl unescaped

/-- Behind a line break no reader stands behind a backslash. -/
theorem next_lineBreak_unescaped (reading : Reading) : (reading.next '\n').spot ≠ .escaped := by
  obtain ⟨depth, _ | _ | _⟩ := reading <;> exact nofun

/-- An indentation changes nothing for a reader. -/
theorem after_indentation {reading : Reading} (unescaped : reading.spot ≠ .escaped)
    (width depth : Nat) (line : List Char) :
    reading.after (indentation width depth ++ line) = reading.after line := by
  rw [after, List.foldl_append, indentation, after]
  congr 1
  induction width * depth with
  | zero => rfl
  | succ n ih => rw [List.replicate_succ, List.foldl_cons, next_space unescaped, ih]

/-- The depth of a line does not depend on its indentation. -/
theorem depthOf_indentation (reading : Reading) (width depth : Nat) (line : List Char) :
    reading.depthOf (indentation width depth ++ line) = reading.depthOf line := by
  rw [depthOf, closes, trimmed_indentation, ← closes, ← depthOf]

/-- A text has the depth of its first line. -/
theorem depthOf_of_linesOf {text line : List Char} {rest : List (List Char)}
    (flush : text.head? ≠ some ' ') (split : linesOf text = line :: rest) (reading : Reading) :
    line.head? ≠ some ' ' ∧ reading.depthOf text = reading.depthOf line := by
  have heads := head?_of_linesOf split
  have flushLine : line.head? ≠ some ' ' := by
    rw [heads]
    intro isSpace
    exact flush (Option.eq_some_of_filter_eq_some isSpace)
  have sameCloses : closes text = closes line := by
    rw [closes_of_flush flush, closes_of_flush flushLine, heads, Option.any_filter]
    refine congrArg (text.head?.any ·) (funext fun c => ?_)
    by_cases isBreak : c = '\n' <;> simp [isBreak]
  exact ⟨flushLine, by rw [depthOf, depthOf, sameCloses]⟩

/-- Some lines, each behind an indentation that is as deep as the line is. -/
def indentLines (width : Nat) (reading : Reading) : List (List Char) → List (List Char)
  | [] => []
  | line :: rest =>
    (indentation width (reading.depthOf line) ++ line) ::
      ((reading.after line).next '\n').indentLines width rest

/-- Lines without spaces in front of them, once they are indented, are the same lines up to
the spaces, and have the width as many times in front as they are deep. -/
theorem layout_indentLines (width : Nat) {lines : List (List Char)} {reading : Reading}
    (unescaped : reading.spot ≠ .escaped) (flush : ∀ line ∈ lines, line.head? ≠ some ' ') :
    (reading.indentLines width lines).map trimmed = lines ∧
      (reading.indentLines width lines).map leadingSpaces =
        (reading.depths (reading.indentLines width lines)).map (width * ·) := by
  induction lines generalizing reading with
  | nil => exact ⟨rfl, rfl⟩
  | cons line rest ih =>
    obtain ⟨flushLine, flushRest⟩ := List.forall_mem_cons.1 flush
    obtain ⟨noSpaces, none⟩ := trimmed_of_flush flushLine
    obtain ⟨sameLines, spaces⟩ := ih (reading.after line).next_lineBreak_unescaped flushRest
    constructor
    · rw [indentLines, List.map_cons, trimmed_indentation, noSpaces, sameLines]
    · rw [indentLines, depths, depthOf_indentation, after_indentation unescaped, List.map_cons,
        leadingSpaces_indentation, none, spaces, List.map_cons, Nat.add_zero]

end Reading

/-! ## Indented texts -/

/-- Whether a text is another one with an indentation behind each line break, as deep as
the line is. In the other one no line starts with a space. -/
inductive Indented (width : Nat) : Reading → List Char → List Char → Prop
  | nil (reading : Reading) : Indented width reading [] []
  | char {reading : Reading} {c : Char} {plain text : List Char} (noBreak : c ≠ '\n')
      (rest : Indented width (reading.next c) plain text) :
      Indented width reading (c :: plain) (c :: text)
  | line {reading : Reading} {plain text : List Char} (flush : plain.head? ≠ some ' ')
      (rest : Indented width (reading.next '\n') plain text) :
      Indented width reading ('\n' :: plain)
        ('\n' :: (indentation width ((reading.next '\n').depthOf plain) ++ text))

variable {width : Nat} {plain text : List Char}

/-- Of a text and the indented one, the lines behind the first one are indented. -/
theorem Indented.exists_lines {reading : Reading} (indented : Indented width reading plain text) :
    ∃ first later, linesOf plain = first :: later ∧ (∀ line ∈ later, line.head? ≠ some ' ') ∧
      linesOf text = first :: ((reading.after first).next '\n').indentLines width later := by
  induction indented with
  | nil reading => exact ⟨[], [], rfl, List.forall_mem_nil _, rfl⟩
  | char noBreak _ ih =>
    obtain ⟨first, later, split, flush, splitText⟩ := ih
    exact ⟨_ :: first, later, linesOf_cons noBreak split, flush, linesOf_cons noBreak splitText⟩
  | @line reading plain text flushPlain _ ih =>
    obtain ⟨first, later, split, flush, splitText⟩ := ih
    obtain ⟨flushFirst, sameDepth⟩ := (reading.next '\n').depthOf_of_linesOf flushPlain split
    have noBreak : '\n' ∉ indentation width ((reading.next '\n').depthOf plain) := by
      simp [indentation, List.mem_replicate]
    refine ⟨[], first :: later, ?_, List.forall_mem_cons.2 ⟨flushFirst, flush⟩, ?_⟩
    · rw [linesOf_lineBreak, split]
    · rw [linesOf_lineBreak, linesOf_append noBreak splitText, sameDepth]
      rfl

/-- The lines of an indented text are those of the text that it comes from, up to the
spaces in front of them. These are the width as many times as the line is deep. -/
theorem Indented.layout (indented : Indented width .start plain text)
    (flush : plain.head? ≠ some ' ') :
    (linesOf text).map trimmed = linesOf plain ∧
      (linesOf text).map leadingSpaces =
        (Reading.start.depths (linesOf text)).map (width * ·) := by
  obtain ⟨first, later, split, flushLater, splitText⟩ := indented.exists_lines
  have flushFirst := (Reading.start.depthOf_of_linesOf flush split).1
  have isIndented : linesOf text = Reading.start.indentLines width (linesOf plain) := by
    have shallow : indentation width (Reading.start.depthOf first) = [] := by
      rw [Reading.depthOf, Reading.start, Nat.zero_sub, indentation, Nat.mul_zero,
        List.replicate_zero]
    rw [splitText, split, Reading.indentLines, shallow, List.nil_append]
  rw [isIndented]
  refine Reading.start.layout_indentLines width (by decide) ?_
  rw [split]
  exact List.forall_mem_cons.2 ⟨flushFirst, flushLater⟩

end RouteAtlas.JavaScript
