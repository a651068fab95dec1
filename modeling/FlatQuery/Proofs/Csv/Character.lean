/-
# Characters in records

A file is cut at single bytes, and yet no character is ever cut in two: all bytes of a character
that has more than one are at least `0x80`, and no such byte means anything to the reading
(`utf8EncodeChar_cases`).  So a character is read as a whole at every place
(`Csv.readFields_char`), and the fields in the bytes of a text are texts again
(`Csv.exists_texts`).
-/
import FlatQuery.Proofs.Csv.Header
import Mathlib.Data.Set.List

namespace FlatQuery

/-- The bytes of a text: those of its characters, one after the other. -/
inductive IsText : Bytes → Prop
  | nil : IsText []
  | char {bytes : Bytes} (c : Char) (hrest : IsText bytes) :
      IsText (String.utf8EncodeChar c ++ bytes)

variable {bytes file : Bytes}

lemma isText_encodeText (text : String) : IsText (encodeText text) := by
  rw [encodeText_eq_flatMap]
  induction text.toList with
  | nil => exact .nil
  | cons c cs ih => exact .char c ih

lemma IsText.exists_encodeText (h : IsText bytes) : ∃ text, encodeText text = bytes := by
  induction h with
  | nil => exact ⟨"", rfl⟩
  | char c _ ih =>
    obtain ⟨text, rfl⟩ := ih
    refine ⟨String.ofList (c :: text.toList), ?_⟩
    rw [encodeText_eq_flatMap, encodeText_eq_flatMap, String.toList_ofList, List.flatMap_cons]

/-- Bytes can be read as a text exactly when they are those of one. -/
lemma isText_iff : IsText bytes ↔ (decodeText? bytes).isSome := by
  rw [Option.isSome_iff_exists]
  simp only [decodeText?_eq_some_iff]
  constructor
  · exact IsText.exists_encodeText
  · rintro ⟨text, rfl⟩
    exact isText_encodeText text

/-- A character has a single byte, or only bytes from `0x80` on. -/
lemma utf8EncodeChar_cases (c : Char) :
    (∃ b, String.utf8EncodeChar c = [b]) ∨ ∀ b ∈ String.utf8EncodeChar c, 0x80 ≤ b := by
  have hhigh : ∀ n, 128 ≤ n → n < 256 → (0x80 : UInt8) ≤ UInt8.ofNat n := by
    intro n hle hlt
    rw [UInt8.le_iff_toNat_le, UInt8.toNat_ofNat', Nat.mod_eq_of_lt hlt]
    exact hle
  rw [String.utf8EncodeChar]
  split_ifs
  · exact Or.inl ⟨_, rfl⟩
  all_goals
    right
    simp only [List.forall_mem_cons, List.not_mem_nil, false_implies, implies_true, and_true]
  · exact ⟨hhigh _ (by omega) (by omega), hhigh _ (by omega) (by omega)⟩
  · exact ⟨hhigh _ (by omega) (by omega), hhigh _ (by omega) (by omega),
      hhigh _ (by omega) (by omega)⟩
  · exact ⟨hhigh _ (by omega) (by omega), hhigh _ (by omega) (by omega),
      hhigh _ (by omega) (by omega), hhigh _ (by omega) (by omega)⟩

namespace Csv

/-! ## Reading a character -/

/-- Where in a field the reading goes on behind a byte that stands for itself. -/
def Place.behind : Place → Place
  | quoted => quoted
  | _ => plain

lemma ne_of_high {b special : UInt8} (h : 0x80 ≤ b) (hspecial : special < 0x80) : b ≠ special := by
  rintro rfl
  exact UInt8.not_le.2 hspecial h

lemma not_isLineEnd_of_high {b : UInt8} (h : 0x80 ≤ b) : ¬isLineEnd b := by
  have hlineFeed : b ≠ lineFeed := ne_of_high h (by decide)
  have hreturn : b ≠ carriageReturn := ne_of_high h (by decide)
  simp [isLineEnd, hlineFeed, hreturn]

lemma meaning_of_high {b : UInt8} (h : 0x80 ≤ b) (place : Place) :
    place.meaning b = .text place.behind := by
  have hquote : b ≠ quote := ne_of_high h (by decide)
  have hcomma : b ≠ comma := ne_of_high h (by decide)
  have hend : ¬isLineEnd b := not_isLineEnd_of_high h
  cases place <;> simp [Place.meaning, Place.behind, hquote, hcomma, hend]

lemma readFields_high (hne : bytes ≠ []) (h : ∀ b ∈ bytes, 0x80 ≤ b) (place : Place)
    (rest : Bytes) :
    readFields place (bytes ++ rest) = prepend bytes (readFields place.behind rest) := by
  induction bytes generalizing place with
  | nil => exact absurd rfl hne
  | cons b bytes ih =>
    obtain ⟨hb, hbytes⟩ := List.forall_mem_cons.1 h
    rw [List.cons_append, readFields, meaning_of_high hb]
    cases bytes with
    | nil => rfl
    | cons next bytes =>
      have hbehind : place.behind.behind = place.behind := by cases place <;> rfl
      simp only [ih (List.cons_ne_nil _ _) hbytes, hbehind, prepend_cons]

/-- A character belongs to a field as a whole, or is a quote around text, or ends a field or a
record. -/
lemma readFields_char (place : Place) (c : Char) (rest : Bytes) :
    (∃ next, readFields place (String.utf8EncodeChar c ++ rest) =
      prepend (String.utf8EncodeChar c) (readFields next rest)) ∨
    (∃ next, readFields place (String.utf8EncodeChar c ++ rest) = readFields next rest) ∨
    readFields place (String.utf8EncodeChar c ++ rest) =
      (readFields .start rest).map ([] :: ·) id ∨
    readFields place (String.utf8EncodeChar c ++ rest) = ([[]], rest) := by
  rcases utf8EncodeChar_cases c with ⟨b, hsingle⟩ | hhigh
  · rw [hsingle, List.singleton_append, readFields]
    cases place.meaning b with
    | text next => exact .inl ⟨next, rfl⟩
    | mark next => exact .inr (.inl ⟨next, rfl⟩)
    | fieldEnd => exact .inr (.inr (.inl rfl))
    | recordEnd => exact .inr (.inr (.inr rfl))
  · exact .inl ⟨_, readFields_high String.utf8EncodeChar_ne_nil hhigh place rest⟩

/-! ## Records of a text -/

/-- The fields of a record in a text are texts, and so is what stands behind the record. -/
lemma isText_readFields (h : IsText bytes) (place : Place) :
    (∀ field ∈ (readFields place bytes).1, IsText field) ∧ IsText (readFields place bytes).2 := by
  induction h generalizing place with
  | nil => exact ⟨by simp [readFields, IsText.nil], .nil⟩
  | @char bytes c hrest ih =>
    rcases readFields_char place c bytes with ⟨next, hread⟩ | ⟨next, hread⟩ | hread | hread
    · obtain ⟨hfields, hbehind⟩ := ih next
      rw [hread]
      refine ⟨?_, hbehind⟩
      obtain ⟨field, fields, hcons⟩ := List.exists_cons_of_ne_nil (readFields_ne_nil next bytes)
      rw [hcons] at hfields
      obtain ⟨hfield, hfields⟩ := List.forall_mem_cons.1 hfields
      simp only [prepend, Prod.map_fst, hcons, List.modifyHead_cons]
      exact List.forall_mem_cons.2 ⟨.char c hfield, hfields⟩
    · rw [hread]
      exact ih next
    · obtain ⟨hfields, hbehind⟩ := ih .start
      rw [hread]
      exact ⟨List.forall_mem_cons.2 ⟨.nil, hfields⟩, hbehind⟩
    · rw [hread]
      exact ⟨List.forall_mem_cons.2 ⟨.nil, by simp⟩, hrest⟩

lemma isText_dropWhile_isLineEnd (h : IsText bytes) : IsText (bytes.dropWhile isLineEnd) := by
  induction h with
  | nil => exact .nil
  | @char bytes c hrest ih =>
    have hwhole : IsText (String.utf8EncodeChar c ++ bytes) := .char c hrest
    rcases utf8EncodeChar_cases c with ⟨b, hsingle⟩ | hhigh
    · rw [hsingle, List.singleton_append] at hwhole ⊢
      by_cases hend : isLineEnd b
      · rw [List.dropWhile_cons_of_pos hend]
        exact ih
      · rwa [List.dropWhile_cons_of_neg hend]
    · -- the first byte is no line end, so nothing is passed over
      obtain ⟨b, tail, hcons⟩ := List.exists_cons_of_ne_nil (String.utf8EncodeChar_ne_nil (c := c))
      have hb : 0x80 ≤ b := hhigh b (by simp [hcons])
      rw [hcons, List.cons_append] at hwhole ⊢
      rwa [List.dropWhile_cons_of_neg (not_isLineEnd_of_high hb)]

lemma isText_of_mem_recordsFrom (source : Bytes) (h : IsText bytes) :
    ∀ record ∈ recordsFrom source bytes, ∀ field ∈ record.fields, IsText field := by
  fun_induction recordsFrom source bytes with
  | case1 => simp
  | case2 source bytes body hbody rest ih =>
    obtain ⟨hfields, hrest⟩ := isText_readFields (isText_dropWhile_isLineEnd h) .start
    exact List.forall_mem_cons.2 ⟨hfields, ih hrest⟩

/-- A text without the byte order mark at its start is a text. -/
lemma isText_dropMark (h : IsText file) : IsText (dropMark file) := by
  by_cases hmark : mark <+: file
  · obtain ⟨text, rfl⟩ := h.exists_encodeText
    obtain ⟨rest, -, hrest⟩ := exists_encodeText_eq_mark_append hmark
    rw [hrest]
    exact isText_encodeText rest
  · have hfile : dropMark file = file := dropMark_of_not_prefix hmark
    rwa [hfile]

/-- The records of a file that is a text have texts for their fields. -/
lemma exists_texts (h : IsText file) :
    ∃ textss, textss.map (·.map encodeText) = (records file).map Record.fields ∧
      texts file = .ok textss := by
  have hfields : ∀ fields ∈ (records file).map Record.fields,
      fields ∈ Set.range (List.map encodeText) := by
    intro fields hmem
    obtain ⟨record, hrecord, rfl⟩ := List.mem_map.1 hmem
    rw [Set.range_list_map]
    intro field hfield
    exact (isText_of_mem_recordsFrom file (isText_dropMark h) record hrecord field
      hfield).exists_encodeText
  obtain ⟨textss, htextss⟩ :
      (records file).map Record.fields ∈ Set.range (List.map (List.map encodeText)) := by
    rw [Set.range_list_map]
    exact hfields
  exact ⟨textss, htextss, recordsTexts_of_map_fields htextss.symm file 0⟩

end Csv

end FlatQuery
