/-
# Texts in written records

Texts stand in a file as bytes.  What this has to do with the special bytes of a file is said
here: a character that has to be quoted is one of them also as a byte, and the byte order mark
is the first character U+FEFF of a text and nothing else.
-/
import FlatQuery.Proofs.Csv.Record

namespace FlatQuery

lemma encodeText_eq_flatMap (text : String) :
    encodeText text = text.toList.flatMap String.utf8EncodeChar := by
  rw [encodeText, ← String.utf8Encode_toList, List.utf8Encode, List.data_toByteArray]

namespace Csv

/-- The byte order mark as a character. -/
def markChar : Char := '\uFEFF'

lemma utf8EncodeChar_markChar : String.utf8EncodeChar markChar = mark := by decide

/-- Bytes that start with the byte order mark are those of a text that starts with it. -/
lemma head?_eq_markChar_of_prefix {text : String} (h : mark <+: encodeText text) :
    text.toList.head? = some markChar := by
  obtain ⟨bytes, hbytes⟩ := h
  rw [encodeText_eq_flatMap] at hbytes
  cases hchars : text.toList with
  | nil =>
    rw [hchars] at hbytes
    cases hbytes
  | cons c cs =>
    rw [hchars, List.flatMap_cons, ← utf8EncodeChar_markChar] at hbytes
    -- the first character of a sequence of bytes is determined by the bytes
    have hdecode : ∀ (d : Char) (rest : Bytes),
        (String.utf8EncodeChar d ++ rest).toByteArray.utf8DecodeChar? 0 = some d := by
      intro d rest
      rw [List.toByteArray_append]
      exact ByteArray.utf8DecodeChar?_utf8EncodeChar_append
    have hsame := hdecode markChar bytes
    rw [hbytes, hdecode, Option.some.injEq] at hsame
    rw [hsame]
    rfl

/-- A character for which a field has to be quoted. -/
def isSpecial (c : Char) : Bool :=
  c == ',' || c == '"' || c == '\n' || c == '\r'

/-- A text with such a character is quoted. -/
lemma needsQuotes_encodeText {text : String} (h : text.toList.any isSpecial) :
    needsQuotes (encodeText text) := by
  obtain ⟨c, hc, hspecial⟩ := List.any_eq_true.1 h
  have hbyte : ∀ b ∈ String.utf8EncodeChar c, b ∈ encodeText text := by
    intro b hb
    rw [encodeText_eq_flatMap]
    exact List.mem_flatMap.2 ⟨c, hc, hb⟩
  have hcases : c = ',' ∨ c = '"' ∨ c = '\n' ∨ c = '\r' := by
    simpa [isSpecial, or_assoc] using hspecial
  rw [needsQuotes, List.any_eq_true]
  rcases hcases with rfl | rfl | rfl | rfl
  · exact ⟨comma, hbyte _ (by decide), by decide⟩
  · exact ⟨quote, hbyte _ (by decide), by decide⟩
  · exact ⟨lineFeed, hbyte _ (by decide), by decide⟩
  · exact ⟨carriageReturn, hbyte _ (by decide), by decide⟩

/-- The first column's name starts with the byte order mark and is not quoted, so that the mark
is lost when the file is read. -/
def LosesMark (columns : List String) : Prop :=
  ∃ name ∈ columns.head?, name.toList.head? = some markChar ∧ ¬name.toList.any isSpecial

instance : DecidablePred LosesMark :=
  fun _ => inferInstanceAs (Decidable (∃ _ ∈ _, _))

end Csv

end FlatQuery
