/-!
# Bytes of text

Text is stored as UTF-8. Reading it back is strict, or replaces what is broken: the longest
beginning of a character that is cut short gives one replacement character.
-/

namespace LabelPress.Text

def utf8 (s : List Char) : List UInt8 :=
  s.flatMap String.utf8EncodeChar

def ofUtf8? (bytes : List UInt8) : Option (List Char) :=
  (String.fromUTF8? bytes.toByteArray).map String.toList

/-- Stands for bytes that are no text. -/
def replacement : Char := '\uFFFD'

/-- How many bytes continue the character that `lead` begins, and the range of the first of them. -/
def continuation (lead : UInt8) : Nat × UInt8 × UInt8 :=
  if lead < 0xC2 then (0, 0, 0)
  else if lead < 0xE0 then (1, 0x80, 0xBF)
  else if lead = 0xE0 then (2, 0xA0, 0xBF)
  else if lead = 0xED then (2, 0x80, 0x9F)
  else if lead < 0xF0 then (2, 0x80, 0xBF)
  else if lead = 0xF0 then (3, 0x90, 0xBF)
  else if lead < 0xF4 then (3, 0x80, 0xBF)
  else if lead = 0xF4 then (3, 0x80, 0x8F)
  else (0, 0, 0)

/-- How many of the bytes continue a character, when `count` are due and the first lies between
`low` and `high`. -/
def continuing : Nat → UInt8 → UInt8 → List UInt8 → Nat
  | 0, _, _, _ => 0
  | _, _, _, [] => 0
  | count + 1, low, high, b :: bytes =>
    if low ≤ b ∧ b ≤ high then continuing count 0x80 0xBF bytes + 1 else 0

/-- The text of the bytes, with a replacement for each part that is no text. -/
def ofUtf8Lossy : List UInt8 → List Char
  | [] => []
  | b :: bytes =>
    if b < 0x80 then Char.ofNat b.toNat :: ofUtf8Lossy bytes
    else
      let (count, low, high) := continuation b
      let n := continuing count low high bytes
      let c := if n = count then ofUtf8? (b :: bytes.take n) else none
      (c.getD [replacement]) ++ ofUtf8Lossy (bytes.drop n)
termination_by bytes => bytes.length
decreasing_by
  · simp
  · simp only [List.length_cons, List.length_drop]
    omega

theorem ofUtf8?_utf8 (s : List Char) : ofUtf8? (utf8 s) = some s := by
  have h : (utf8 s).toByteArray.IsValidUTF8 := .intro s rfl
  simp only [ofUtf8?, String.fromUTF8?, h, ↓reduceDIte, Option.map_some]
  have : String.fromUTF8 (utf8 s).toByteArray h = String.ofList s := rfl
  rw [this, String.toList_ofList]

end LabelPress.Text
