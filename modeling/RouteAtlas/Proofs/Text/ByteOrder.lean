import Mathlib.Data.List.Basic
import RouteAtlas.Text.Utf8

/-!
# The order of texts by their bytes

Texts are compared character by character. Operating systems compare names byte by
byte, in UTF-8. Both orders are the same: a character that needs more bytes starts with
a greater byte, and among characters with the same number of bytes the bytes are digits
of the code point (`Text.Rises`).
-/

set_option autoImplicit false

namespace RouteAtlas.Text

/-- The bytes of a text are those of its characters. -/
theorem bytes_eq (text : String) : bytes text = text.toList.flatMap String.utf8EncodeChar := by
  unfold bytes
  conv => lhs; rw [← String.ofList_toList (s := text)]
  rw [String.toUTF8_eq_toByteArray, String.toByteArray_ofList, List.utf8Encode,
    List.data_toByteArray]

/-- Bytes in front of lesser bytes keep them lesser. -/
theorem append_lt_append {first left right : List UInt8} (less : left < right) :
    first ++ left < first ++ right := by
  induction first with
  | nil => exact less
  | cons byte rest ih => exact List.cons_lt_cons_iff.2 (.inr ⟨rfl, ih⟩)

/-- A lesser first byte makes lesser bytes, whatever follows. -/
theorem ofNat_cons_lt {a b : Nat} (less : a < b) (small : b < 256) (left right : List UInt8) :
    UInt8.ofNat a :: left < UInt8.ofNat b :: right := by
  rw [List.cons_lt_cons_iff, UInt8.lt_iff_toNat_lt, UInt8.toNat_ofNat', UInt8.toNat_ofNat']
  left
  omega

/-- Up to a bound, greater numbers are written with greater bytes, whatever follows. -/
def Rises (bound : Nat) (write : Nat → List UInt8) : Prop :=
  ∀ v w, v < w → w < bound → ∀ left right, write v ++ left < write w ++ right

/-- Greater numbers have greater lead bytes. -/
theorem Rises.lead {size base : Nat} (fits : size + base ≤ 256) :
    Rises size fun v => [UInt8.ofNat (v % size + base)] := by
  intro v w less small left right
  have isV := Nat.mod_eq_of_lt (Nat.lt_trans less small)
  have isW := Nat.mod_eq_of_lt small
  dsimp only
  rw [isV, isW]
  exact ofNat_cons_lt (by omega) (by omega) left right

/-- One more byte takes the last six binary digits. -/
theorem Rises.continue {bound : Nat} {write : Nat → List UInt8} (rises : Rises bound write) :
    Rises (64 * bound) fun v => write (v / 64) ++ [UInt8.ofNat (v % 64 + 128)] := by
  intro v w less small left right
  simp only [List.append_assoc]
  by_cases same : v / 64 = w / 64
  · rw [same]
    exact append_lt_append (ofNat_cons_lt (by omega) (by omega) left right)
  · exact rises (v / 64) (w / 64) (by omega) (by omega) _ _

/-- Numbers in two bytes rise. -/
theorem rises_two :
    Rises 2048 fun v => [UInt8.ofNat (v / 64 % 32 + 192), UInt8.ofNat (v % 64 + 128)] :=
  (Rises.lead (by decide : 32 + 192 ≤ 256)).continue

/-- Numbers in three bytes rise. -/
theorem rises_three : Rises 65536 fun v =>
    [UInt8.ofNat (v / 4096 % 16 + 224), UInt8.ofNat (v / 64 % 64 + 128),
      UInt8.ofNat (v % 64 + 128)] := by
  have rises := (Rises.lead (by decide : 16 + 224 ≤ 256)).continue.continue
  simpa [Nat.div_div_eq_div_mul] using rises

/-- Numbers in four bytes rise. -/
theorem rises_four : Rises 2097152 fun v =>
    [UInt8.ofNat (v / 262144 % 8 + 240), UInt8.ofNat (v / 4096 % 64 + 128),
      UInt8.ofNat (v / 64 % 64 + 128), UInt8.ofNat (v % 64 + 128)] := by
  have rises := (Rises.lead (by decide : 8 + 240 ≤ 256)).continue.continue.continue
  simpa [Nat.div_div_eq_div_mul] using rises

/-- A lesser character has lesser bytes, whatever follows. -/
theorem utf8EncodeChar_lt {c d : Char} (less : c < d) (left right : List UInt8) :
    String.utf8EncodeChar c ++ left < String.utf8EncodeChar d ++ right := by
  have lessVal : c.val.toNat < d.val.toNat := less
  have isChar : d.val.toNat < 1114112 := by
    have valid := d.valid
    unfold UInt32.isValidChar Nat.isValidChar at valid
    omega
  unfold String.utf8EncodeChar
  generalize c.val.toNat = v at *
  generalize d.val.toNat = w at *
  dsimp only
  split
  next =>
    -- A single byte is below every lead byte.
    split
    next => exact ofNat_cons_lt lessVal (by omega) left right
    next =>
      split
      next => exact ofNat_cons_lt (by omega) (by omega) _ _
      next => split <;> exact ofNat_cons_lt (by omega) (by omega) _ _
  next =>
    rw [if_neg (by omega : ¬ w ≤ 127)]
    split
    next =>
      split
      next => exact rises_two v w lessVal (by omega) left right
      next => split <;> exact ofNat_cons_lt (by omega) (by omega) _ _
    next =>
      rw [if_neg (by omega : ¬ w ≤ 2047)]
      split
      next =>
        split
        next => exact rises_three v w lessVal (by omega) left right
        next => exact ofNat_cons_lt (by omega) (by omega) _ _
      next =>
        rw [if_neg (by omega : ¬ w ≤ 65535)]
        exact rises_four v w lessVal (by omega) left right

/-- The lesser text has the lesser bytes. -/
theorem bytes_lt_of_lt {text other : String} (less : text < other) : bytes text < bytes other := by
  rw [bytes_eq, bytes_eq]
  have lessChars : text.toList < other.toList := less
  generalize text.toList = chars at lessChars
  generalize other.toList = others at lessChars
  induction chars generalizing others with
  | nil =>
    cases others with
    | nil => exact absurd lessChars (List.lt_irrefl [])
    | cons d others =>
      rw [List.flatMap_nil, List.flatMap_cons]
      obtain ⟨byte, rest, isBytes⟩ :=
        List.exists_cons_of_ne_nil (String.utf8EncodeChar_ne_nil (c := d))
      rw [isBytes]
      exact List.nil_lt_cons _ _
  | cons c chars ih =>
    cases others with
    | nil => exact absurd lessChars (List.not_lt_nil _)
    | cons d others =>
      rw [List.flatMap_cons, List.flatMap_cons]
      rcases List.cons_lt_cons_iff.1 lessChars with first | ⟨rfl, later⟩
      · exact utf8EncodeChar_lt first _ _
      · exact append_lt_append (ih others later)

end RouteAtlas.Text
