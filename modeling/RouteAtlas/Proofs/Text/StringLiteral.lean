import Mathlib.Tactic.SplitIfs
import RouteAtlas.Text.StringLiteral

/-!
# String literals can be read back

What stands for a character inside a literal tells the character and where it ends:
`Text.readChar` reads it back in front of anything (`Text.readChar_escapeChar`). No
character is written with a quote in front, so the quote at the end of a literal is the
first one that is not escaped, and a literal tells its text whatever comes behind it
(`Text.quote_append_inj`).

No character is written with a line break either, so a literal takes one line
(`Text.lineBreak_not_mem_quote`).
-/

set_option autoImplicit false

namespace RouteAtlas.Text

/-- The number that a hexadecimal digit stands for. -/
def digitValue (digit : Char) : Nat :=
  if digit.toNat < 58 then digit.toNat - 48 else digit.toNat - 87

/-- The value of a hexadecimal digit is read back. -/
theorem digitValue_hexDigit : ∀ n < 16, digitValue (hexDigit n) = n := by
  decide

/-- Reads one character as it is written inside a literal, and gives what is left. -/
def readChar : List Char → Option (Char × List Char)
  | [] => none
  | '\\' :: 'b' :: rest => some ('\x08', rest)
  | '\\' :: 't' :: rest => some ('\t', rest)
  | '\\' :: 'n' :: rest => some ('\n', rest)
  | '\\' :: 'f' :: rest => some ('\x0c', rest)
  | '\\' :: 'r' :: rest => some ('\r', rest)
  | '\\' :: 'u' :: '0' :: '0' :: high :: low :: rest =>
    some (Char.ofNat (16 * digitValue high + digitValue low), rest)
  | '\\' :: c :: rest => some (c, rest)
  | c :: rest => some (c, rest)

/-- A character that is not escaped is read as itself. -/
theorem readChar_of_ne {c : Char} (plain : c ≠ '\\') (rest : List Char) :
    readChar (c :: rest) = some (c, rest) := by
  unfold readChar
  split <;> simp_all

/-- A character that is written by its code is read back. -/
theorem readChar_code {n : Nat} (small : n < 256) (rest : List Char) :
    readChar ('\\' :: 'u' :: '0' :: '0' :: hexDigit (n / 16) :: hexDigit (n % 16) :: rest) =
      some (Char.ofNat n, rest) := by
  have high := digitValue_hexDigit (n / 16) (by omega)
  have low := digitValue_hexDigit (n % 16) (by omega)
  simp only [readChar, high, low, Nat.div_add_mod]

/-- A character is read back from the way it is written, in front of anything. -/
theorem readChar_escapeChar (c : Char) (rest : List Char) :
    readChar (escapeChar c ++ rest) = some (c, rest) := by
  unfold escapeChar
  split_ifs with isQuote isBackslash isBackspace isTab isNewline isFormFeed isReturn control
  · rw [isQuote]
    rfl
  · rw [isBackslash]
    rfl
  · rw [isBackspace]
    rfl
  · rw [isTab]
    rfl
  · rw [isNewline]
    rfl
  · rw [isFormFeed]
    rfl
  · rw [isReturn]
    rfl
  · have code := readChar_code (by omega : c.toNat < 256) rest
    rwa [Char.ofNat_toNat] at code
  · exact readChar_of_ne isBackslash rest

/-- A character is told by its escape, whatever follows. -/
theorem escapeChar_append_inj {c d : Char} {left right : List Char}
    (same : escapeChar c ++ left = escapeChar d ++ right) : c = d ∧ left = right := by
  have reads := congrArg readChar same
  rw [readChar_escapeChar, readChar_escapeChar] at reads
  simpa using reads

/-- No character is written with a quote in front. -/
theorem quote_cons_ne_escapeChar (c : Char) (left right : List Char) :
    '"' :: left ≠ escapeChar c ++ right := by
  intro same
  have reads := congrArg readChar same
  rw [readChar_escapeChar, readChar_of_ne (by decide)] at reads
  obtain ⟨rfl, -⟩ : '"' = c ∧ left = right := by simpa using reads
  cases same

/-- A literal tells its text and where it ends. -/
theorem quote_append_inj {text other : String} {left right : List Char}
    (same : quote text ++ left = quote other ++ right) : text = other ∧ left = right := by
  suffices ∀ chars others : List Char,
      chars.flatMap escapeChar ++ '"' :: left = others.flatMap escapeChar ++ '"' :: right →
        chars = others ∧ left = right by
    obtain ⟨sameChars, sameRest⟩ := this text.toList other.toList (by simpa [quote] using same)
    exact ⟨String.toList_inj.1 sameChars, sameRest⟩
  intro chars
  induction chars with
  | nil =>
    intro others same
    cases others with
    | nil => exact ⟨rfl, (List.cons.inj same).2⟩
    | cons d others =>
      rw [List.flatMap_cons, List.append_assoc] at same
      exact absurd same (quote_cons_ne_escapeChar d _ _)
  | cons c chars ih =>
    intro others same
    rw [List.flatMap_cons, List.append_assoc] at same
    cases others with
    | nil => exact absurd same.symm (quote_cons_ne_escapeChar c _ _)
    | cons d others =>
      rw [List.flatMap_cons, List.append_assoc] at same
      obtain ⟨rfl, sameRest⟩ := escapeChar_append_inj same
      obtain ⟨rfl, sameEnd⟩ := ih others sameRest
      exact ⟨rfl, sameEnd⟩

/-- A hexadecimal digit stands for itself. -/
theorem hexDigit_stands : ∀ n < 16, hexDigit n ∉ ['\n', '"', '\\'] := by
  decide

/-- A character stands for itself, and is no line break then, or it is written as a
backslash with an escape behind it that has no line break either. -/
theorem escapeChar_cases (c : Char) :
    (c ∉ ['\n', '"', '\\'] ∧ escapeChar c = [c]) ∨
      ∃ letter rest, escapeChar c = '\\' :: letter :: rest ∧ letter ≠ '\n' ∧
        ∀ d ∈ rest, d ∉ ['\n', '"', '\\'] := by
  generalize written : escapeChar c = text
  unfold escapeChar at written
  split_ifs at written with isQuote isBackslash isBackspace isTab isNewline isFormFeed isReturn
    control <;> subst written
  · exact .inr ⟨'"', [], rfl, by decide, List.forall_mem_nil _⟩
  · exact .inr ⟨'\\', [], rfl, by decide, List.forall_mem_nil _⟩
  · exact .inr ⟨'b', [], rfl, by decide, List.forall_mem_nil _⟩
  · exact .inr ⟨'t', [], rfl, by decide, List.forall_mem_nil _⟩
  · exact .inr ⟨'n', [], rfl, by decide, List.forall_mem_nil _⟩
  · exact .inr ⟨'f', [], rfl, by decide, List.forall_mem_nil _⟩
  · exact .inr ⟨'r', [], rfl, by decide, List.forall_mem_nil _⟩
  · have high := hexDigit_stands (c.toNat / 16) (by omega)
    have low := hexDigit_stands (c.toNat % 16) (by omega)
    refine .inr ⟨'u', _, rfl, by decide, ?_⟩
    simp only [List.forall_mem_cons]
    exact ⟨by decide, by decide, high, low, List.forall_mem_nil _⟩
  · exact .inl ⟨by simp [isQuote, isBackslash, isNewline], rfl⟩

/-- No escape has a line break. -/
theorem lineBreak_not_mem_escapeChar (c : Char) : '\n' ∉ escapeChar c := by
  obtain ⟨stands, itself⟩ | ⟨letter, rest, escape, noBreak, stands⟩ := escapeChar_cases c
  · rw [itself, List.mem_singleton]
    rintro rfl
    exact stands List.mem_cons_self
  · rw [escape, List.mem_cons, List.mem_cons]
    rintro (isBackslash | isLetter | member)
    · cases isBackslash
    · exact noBreak isLetter.symm
    · exact stands _ member List.mem_cons_self

/-- A literal is written in one line. -/
theorem lineBreak_not_mem_quote (text : String) : '\n' ∉ quote text := by
  simp [quote, lineBreak_not_mem_escapeChar]

end RouteAtlas.Text
