/-
# Text as bytes

Files and input lines are sequences of bytes, and the texts in them are written in UTF-8.
Besides writing and reading this file describes what is said about bytes that are no text:
where the first fault stands, and how many bytes belong to it.
-/

namespace FlatQuery

/-- A sequence of bytes, as a file holds it. -/
abbrev Bytes := List UInt8

/-- The bytes of a text. -/
def encodeText (text : String) : Bytes :=
  text.toByteArray.data.toList

/-- The text of which these are the bytes, if there is one. -/
def decodeText? (bytes : Bytes) : Option String :=
  String.fromUTF8? bytes.toByteArray

/-- Reading and writing are inverse: the text that bytes hold is the one that is written as
these bytes. -/
theorem decodeText?_eq_some_iff {bytes : Bytes} {text : String} :
    decodeText? bytes = some text ↔ encodeText text = bytes := by
  have back : (encodeText text).toByteArray = text.toByteArray :=
    ByteArray.ext (by simp [encodeText, List.data_toByteArray])
  unfold decodeText? String.fromUTF8?
  constructor
  · intro h
    split at h
    · cases h
      simp [encodeText, String.fromUTF8, List.data_toByteArray]
    · cases h
  · rintro rfl
    rw [back, dif_pos text.isValidUTF8]
    rfl

@[simp] theorem decodeText?_encodeText (text : String) :
    decodeText? (encodeText text) = some text :=
  decodeText?_eq_some_iff.2 rfl

/-- The first fault in a sequence of bytes that is no text. -/
structure Utf8Fault where
  /-- The number of bytes before the fault, all of them text. -/
  index : Nat
  /-- The number of bytes that together begin no character, or nothing where the bytes end
  inside a character. -/
  length? : Option Nat
deriving DecidableEq, Repr

namespace Utf8Fault

/-- The ranges in which the bytes after the first byte of a character must lie, or nothing
when no character starts with that byte.  The narrower ranges keep out the characters with a
shorter form, the surrogates and what lies beyond the last code point. -/
def tailRanges? (first : UInt8) : Option (List (UInt8 × UInt8)) :=
  if first ≤ 0x7F then some []
  else if first < 0xC2 then none
  else if first ≤ 0xDF then some [(0x80, 0xBF)]
  else if first = 0xE0 then some [(0xA0, 0xBF), (0x80, 0xBF)]
  else if first = 0xED then some [(0x80, 0x9F), (0x80, 0xBF)]
  else if first ≤ 0xEF then some [(0x80, 0xBF), (0x80, 0xBF)]
  else if first = 0xF0 then some [(0x90, 0xBF), (0x80, 0xBF), (0x80, 0xBF)]
  else if first ≤ 0xF3 then some [(0x80, 0xBF), (0x80, 0xBF), (0x80, 0xBF)]
  else if first = 0xF4 then some [(0x80, 0x8F), (0x80, 0xBF), (0x80, 0xBF)]
  else none

/-- The number of bytes at the start of a sequence that lie in the given ranges, one after
the other. -/
def tailLength : List (UInt8 × UInt8) → Bytes → Nat
  | (low, high) :: ranges, b :: bytes =>
    if low ≤ b ∧ b ≤ high then tailLength ranges bytes + 1 else 0
  | _, _ => 0

/-- The first fault in the bytes that follow `index` bytes of text.  Bytes without a fault
end as if inside a character. -/
def first (index : Nat) : Bytes → Utf8Fault
  | [] => ⟨index, none⟩
  | b :: bytes =>
    match tailRanges? b with
    | none => ⟨index, some 1⟩
    | some ranges =>
      let found := tailLength ranges bytes
      if found = ranges.length then first (index + 1 + found) (bytes.drop found)
      else if found = bytes.length then ⟨index, none⟩
      else ⟨index, some (found + 1)⟩
termination_by bytes => bytes.length
decreasing_by
  simp only [List.length_drop, List.length_cons]
  omega

/-- The wording of a fault. -/
def message (fault : Utf8Fault) : String :=
  match fault.length? with
  | some n => s!"invalid utf-8 sequence of {n} bytes from index {fault.index}"
  | none => s!"incomplete utf-8 byte sequence from index {fault.index}"

end Utf8Fault

end FlatQuery
