import RouteAtlas.Proofs.Text.ByteOrder

/-!
# Reading texts back

The bytes of a text are read as the text (`Text.lossy_bytes`): nothing is lost where a
name is a text. The reader meets the characters one by one, so the lemma for a single one
(`Text.decode_utf8EncodeChar`) has any bytes behind it. It goes by the number of bytes. The
first byte keeps the leading digits of the character, each byte behind it appends six
binary digits, and the smaller range of a second byte excludes only what no character is
written with.
-/

set_option autoImplicit false

namespace RouteAtlas.Text

/-! ## Single bytes -/

/-- A byte where a character starts. -/
theorem decode_first {byte : Nat} (small : byte < 256) (rest : List UInt8) :
    decode none (UInt8.ofNat byte :: rest) = (first byte).1 ++ decode (first byte).2 rest := by
  rw [decode, UInt8.toNat_ofNat', Nat.mod_eq_of_lt small]

/-- The last byte of a character. -/
theorem decode_last {digits lowest highest byte : Nat} (small : byte < 256)
    (inRange : lowest ≤ byte ∧ byte ≤ highest) (rest : List UInt8) :
    decode (some ⟨digits, lowest, highest, 0⟩) (UInt8.ofNat byte :: rest) =
      Char.ofNat (64 * digits + (byte - 0x80)) :: decode none rest := by
  rw [decode, UInt8.toNat_ofNat', Nat.mod_eq_of_lt small, Pending.next, if_pos inRange]
  rfl

/-- A byte of a character that goes on. -/
theorem decode_inner {digits lowest highest later byte : Nat} (small : byte < 256)
    (inRange : lowest ≤ byte ∧ byte ≤ highest) (rest : List UInt8) :
    decode (some ⟨digits, lowest, highest, later + 1⟩) (UInt8.ofNat byte :: rest) =
      decode (some ⟨64 * digits + (byte - 0x80), 0x80, 0xBF, later⟩) rest := by
  rw [decode, UInt8.toNat_ofNat', Nat.mod_eq_of_lt small, Pending.next, if_pos inRange]
  rfl

/-! ## Characters -/

/-- A character of two bytes. -/
theorem decode_two {v : Nat} (atLeast : 0x7F < v) (atMost : v ≤ 0x7FF) (rest : List UInt8) :
    decode none (UInt8.ofNat (v / 64 % 32 + 192) :: UInt8.ofNat (v % 64 + 128) :: rest) =
      Char.ofNat v :: decode none rest := by
  have leads : first (v / 64 % 32 + 192) = ([], some ⟨v / 64, 0x80, 0xBF, 0⟩) := by
    have lead : v / 64 % 32 + 192 - 0xC0 = v / 64 := by omega
    rw [first, if_neg (by omega), if_neg (by omega), if_pos (by omega), lead]
  have digits : 64 * (v / 64) + (v % 64 + 128 - 0x80) = v := by omega
  rw [decode_first (by omega), leads, List.nil_append, decode_last (by omega) (by omega), digits]

/-- A character of three bytes. -/
theorem decode_three {v : Nat} (atLeast : 0x7FF < v) (atMost : v ≤ 0xFFFF)
    (isChar : v < 0xD800 ∨ 0xDFFF < v) (rest : List UInt8) :
    decode none (UInt8.ofNat (v / 4096 % 16 + 224) :: UInt8.ofNat (v / 64 % 64 + 128) ::
      UInt8.ofNat (v % 64 + 128) :: rest) = Char.ofNat v :: decode none rest := by
  obtain ⟨lowest, highest, leads, inRange⟩ : ∃ lowest highest,
      first (v / 4096 % 16 + 224) = ([], some ⟨v / 4096, lowest, highest, 1⟩) ∧
        lowest ≤ v / 64 % 64 + 128 ∧ v / 64 % 64 + 128 ≤ highest := by
    rw [first, if_neg (by omega), if_neg (by omega), if_neg (by omega), if_pos (by omega)]
    -- Behind 0xE0 the second byte is 0xA0 at least, and behind 0xED, without the
    -- surrogates, 0x9F at most.
    have lead : v / 4096 % 16 + 224 - 0xE0 = v / 4096 := by omega
    refine ⟨_, _, by rw [lead], ?_, ?_⟩ <;> split <;> omega
  have inner : 64 * (v / 4096) + (v / 64 % 64 + 128 - 0x80) = v / 64 := by omega
  have digits : 64 * (v / 64) + (v % 64 + 128 - 0x80) = v := by omega
  rw [decode_first (by omega), leads, List.nil_append, decode_inner (by omega) inRange, inner,
    decode_last (by omega) (by omega), digits]

/-- A character of four bytes. -/
theorem decode_four {v : Nat} (atLeast : 0xFFFF < v) (isChar : v < 0x110000)
    (rest : List UInt8) :
    decode none (UInt8.ofNat (v / 262144 % 8 + 240) :: UInt8.ofNat (v / 4096 % 64 + 128) ::
      UInt8.ofNat (v / 64 % 64 + 128) :: UInt8.ofNat (v % 64 + 128) :: rest) =
      Char.ofNat v :: decode none rest := by
  obtain ⟨lowest, highest, leads, inRange⟩ : ∃ lowest highest,
      first (v / 262144 % 8 + 240) = ([], some ⟨v / 262144, lowest, highest, 2⟩) ∧
        lowest ≤ v / 4096 % 64 + 128 ∧ v / 4096 % 64 + 128 ≤ highest := by
    rw [first, if_neg (by omega), if_neg (by omega), if_neg (by omega), if_neg (by omega),
      if_pos (by omega)]
    have lead : v / 262144 % 8 + 240 - 0xF0 = v / 262144 := by omega
    refine ⟨_, _, by rw [lead], ?_, ?_⟩ <;> split <;> omega
  have second : 64 * (v / 262144) + (v / 4096 % 64 + 128 - 0x80) = v / 4096 := by omega
  have third : 64 * (v / 4096) + (v / 64 % 64 + 128 - 0x80) = v / 64 := by omega
  have digits : 64 * (v / 64) + (v % 64 + 128 - 0x80) = v := by omega
  rw [decode_first (by omega), leads, List.nil_append, decode_inner (by omega) inRange, second,
    decode_inner (by omega) (by omega), third, decode_last (by omega) (by omega), digits]

/-- The bytes of a character are read as the character, whatever follows. -/
theorem decode_utf8EncodeChar (c : Char) (rest : List UInt8) :
    decode none (String.utf8EncodeChar c ++ rest) = c :: decode none rest := by
  have itself : Char.ofNat c.val.toNat = c := Char.ofNat_toNat c
  have isChar : c.val.toNat < 0xD800 ∨ 0xDFFF < c.val.toNat ∧ c.val.toNat < 0x110000 := c.valid
  unfold String.utf8EncodeChar
  generalize c.val.toNat = v at itself isChar
  dsimp only
  rw [← itself]
  split
  next atMost =>
    have leads : first v = ([Char.ofNat v], none) := if_pos (by omega)
    rw [List.singleton_append, decode_first (by omega), leads, List.singleton_append]
  next =>
    split
    next => exact decode_two (by omega) (by omega) rest
    next =>
      split
      next => exact decode_three (by omega) (by omega) (by omega) rest
      next => exact decode_four (by omega) (by omega) rest

/-! ## Texts -/

/-- The bytes of a text are read as the text. -/
@[simp] theorem lossy_bytes (text : String) : lossy (bytes text) = text := by
  have whole (chars : List Char) :
      decode none (chars.flatMap String.utf8EncodeChar) = chars := by
    induction chars with
    | nil => rfl
    | cons c chars ih => rw [List.flatMap_cons, decode_utf8EncodeChar, ih]
  rw [lossy, bytes_eq, whole, String.ofList_toList]

/-- Bytes that break off inside a character, and a byte that starts none. -/
example : lossy [0x61, 0xE2, 0x82] = "a\uFFFD" ∧ lossy [0xFF] = lossy [0xFE] := by decide

end RouteAtlas.Text
