/-!
# Texts and bytes

A text is written in UTF-8, with one to four bytes for each character (`Text.bytes`). The
first byte of a character tells how many follow, and sometimes the second one has to lie
in a smaller range than the others.

The names that an operating system gives out are bytes that need not be UTF-8. They are
read all the same (`Text.lossy`): a character that breaks off before its last byte, or a
byte that no character starts with, is read as the replacement character. So different
names can be read as the same text, and a text that was read need not be the name of
anything.
-/

set_option autoImplicit false

namespace RouteAtlas.Text

/-- The bytes of a text. -/
def bytes (text : String) : List UInt8 := text.toUTF8.data.toList

/-- The character that stands for what cannot be read. -/
def replacement : Char := '\uFFFD'

/-- A character that is read in part. -/
structure Pending where
  /-- The digits that are read, as a number. -/
  digits : Nat
  /-- The least byte that can come next. -/
  lowest : Nat
  /-- The greatest byte that can come next. -/
  highest : Nat
  /-- How many bytes come after that one. -/
  later : Nat
  deriving DecidableEq, Repr

/-- Reads a byte where a character starts. Gives what is read by now, and the character
that the byte leaves pending. -/
def first (byte : Nat) : List Char × Option Pending :=
  if byte < 0x80 then ([Char.ofNat byte], none)
  else if byte < 0xC2 then ([replacement], none)
  else if byte < 0xE0 then ([], some ⟨byte - 0xC0, 0x80, 0xBF, 0⟩)
  else if byte < 0xF0 then
    ([], some ⟨byte - 0xE0, if byte = 0xE0 then 0xA0 else 0x80,
      if byte = 0xED then 0x9F else 0xBF, 1⟩)
  else if byte < 0xF5 then
    ([], some ⟨byte - 0xF0, if byte = 0xF0 then 0x90 else 0x80,
      if byte = 0xF4 then 0x8F else 0xBF, 2⟩)
  else ([replacement], none)

/-- Reads one more byte of a pending character. A byte that cannot come next breaks the
character off and starts another one. -/
def Pending.next (pending : Pending) (byte : Nat) : List Char × Option Pending :=
  if pending.lowest ≤ byte ∧ byte ≤ pending.highest then
    let digits := 64 * pending.digits + (byte - 0x80)
    match pending.later with
    | 0 => ([Char.ofNat digits], none)
    | later + 1 => ([], some ⟨digits, 0x80, 0xBF, later⟩)
  else (replacement :: (first byte).1, (first byte).2)

/-- Reads bytes behind a character that may be pending. -/
def decode : Option Pending → List UInt8 → List Char
  | none, [] => []
  | some _, [] => [replacement]
  | none, byte :: rest => (first byte.toNat).1 ++ decode (first byte.toNat).2 rest
  | some pending, byte :: rest =>
    (pending.next byte.toNat).1 ++ decode (pending.next byte.toNat).2 rest

/-- The text as which bytes are read. -/
def lossy (bytes : List UInt8) : String := String.ofList (decode none bytes)

end RouteAtlas.Text
