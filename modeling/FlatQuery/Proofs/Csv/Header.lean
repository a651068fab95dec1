/-
# Headers and records

A file is a list of records, of which the first is its header.  No record is without fields,
and so a table without columns comes from a file without records.  The file that is written of
a table has one record for each row behind the header (`Csv.texts_encode`).  This is so even
where the header loses a byte order mark, unless nothing but the mark is in it.
-/
import FlatQuery.Proofs.Csv.Table

namespace FlatQuery.Csv

variable {file : Bytes} {textss : List (List String)} {table : Table}

/-- The texts of the records of a file, of which the first is its header. -/
def texts (file : Bytes) : Except RecordError (List (List String)) :=
  recordsTexts file 0 (records file)

lemma decode_eq_ok_iff :
    decode file = .ok table ↔ ∃ textss, texts file = .ok textss ∧ tableOf textss = table :=
  map_eq_ok_iff

/-! ## Records have fields -/

lemma readFields_ne_nil (place : Place) (bytes : Bytes) : (readFields place bytes).1 ≠ [] := by
  fun_induction readFields place bytes with
  | case1 => simp
  | case2 place b bytes next _ ih => simpa using ih
  | case3 place b bytes next _ ih => exact ih
  | case4 => simp
  | case5 => simp

lemma fields_ne_nil_of_mem_recordsFrom (source bytes : Bytes) :
    ∀ record ∈ recordsFrom source bytes, record.fields ≠ [] := by
  fun_induction recordsFrom source bytes with
  | case1 => simp
  | case2 source bytes body h rest ih =>
    exact List.forall_mem_cons.2 ⟨readFields_ne_nil .start body, ih⟩

lemma length_of_fieldTexts {number : Nat} {fields : List Bytes} {found : List String}
    (h : fieldTexts number fields = .ok found) : found.length = fields.length := by
  induction fields generalizing number found with
  | nil =>
    obtain ⟨⟩ := h
    rfl
  | cons field fields ih =>
    rw [fieldTexts] at h
    split at h
    · cases h
    · obtain ⟨more, hmore, rfl⟩ := map_eq_ok_iff.1 h
      rw [List.length_cons, List.length_cons, ih hmore]

lemma ne_nil_of_mem_recordsTexts {number : Nat} {records : List Record}
    (hfields : ∀ record ∈ records, record.fields ≠ [])
    (h : recordsTexts file number records = .ok textss) : ∀ found ∈ textss, found ≠ [] := by
  induction records generalizing number textss with
  | nil =>
    obtain ⟨⟩ := h
    simp
  | cons record records ih =>
    obtain ⟨hrecord, hrecords⟩ := List.forall_mem_cons.1 hfields
    obtain ⟨found, hfound, h⟩ := bind_eq_ok_iff.1 h
    obtain ⟨more, hmore, ⟨⟩⟩ := bind_eq_ok_iff.1 h
    refine List.forall_mem_cons.2 ⟨?_, ih hrecords hmore⟩
    have hlength := length_of_fieldTexts (mapError_eq_ok_iff.1 hfound)
    rintro rfl
    exact hrecord (List.length_eq_zero_iff.1 hlength.symm)

lemma ne_nil_of_mem_texts (h : texts file = .ok textss) : ∀ found ∈ textss, found ≠ [] :=
  ne_nil_of_mem_recordsTexts (fields_ne_nil_of_mem_recordsFrom _ _) h

/-- A table that is loaded without columns has no rows. -/
lemma rows_eq_nil_of_decode (h : decode file = .ok table) (hcolumns : table.columns = []) :
    table.rows = [] := by
  obtain ⟨textss, htexts, rfl⟩ := decode_eq_ok_iff.1 h
  cases textss with
  | nil => rfl
  | cons header rows => exact absurd hcolumns (ne_nil_of_mem_texts htexts header List.mem_cons_self)

/-! ## Headers with a byte order mark -/

/-- A byte order mark in front of a field that is not quoted stands in front of the record.
Only a record with nothing else in it would be written in another way without the mark. -/
lemma writeRecord_mark_append {field : Bytes} {fields : List Bytes}
    (hplain : needsQuotes (mark ++ field) = false) (hne : field :: fields ≠ [[]]) :
    writeRecord ((mark ++ field) :: fields) = mark ++ writeRecord (field :: fields) := by
  have hmarked : (mark ++ field) :: fields ≠ [[]] := by simp [mark]
  have hfield : needsQuotes field = false := by
    simp only [needsQuotes, List.any_append, Bool.or_eq_false_iff] at hplain
    exact hplain.2
  rw [writeRecord, if_neg hmarked, writeRecord, if_neg hne, writeFields, writeFields,
    List.map_cons, List.map_cons, writeField, hplain, writeField, hfield]
  cases fields <;> simp

lemma encodeText_inj {a b : String} (h : encodeText a = encodeText b) : a = b := by
  have hdecode := congrArg decodeText? h
  rwa [decodeText?_encodeText, decodeText?_encodeText, Option.some.injEq] at hdecode

/-- A text that starts with the byte order mark is another text behind the mark. -/
lemma exists_encodeText_eq_mark_append {name : String} (h : mark <+: encodeText name) :
    ∃ rest, name = "\uFEFF" ++ rest ∧ encodeText name = mark ++ encodeText rest := by
  have hhead := head?_eq_markChar_of_prefix h
  obtain ⟨cs, hcs⟩ := List.head?_eq_some_iff.1 hhead
  refine ⟨String.ofList cs, ?_, ?_⟩
  · rw [← String.toList_inj, hcs]
    simp [markChar]
  · rw [encodeText_eq_flatMap, hcs, List.flatMap_cons, utf8EncodeChar_markChar,
      encodeText_eq_flatMap, String.toList_ofList]

/-- The file with the given texts in its header and in the records behind it. -/
def fileOf (header : List String) (rows : List (List String)) : Bytes :=
  ((header :: rows).map (·.map encodeText)).flatMap writeRecord

lemma encode_eq_fileOf (hcolumns : table.columns ≠ []) :
    encode table = fileOf table.columns (table.rows.map table.values) := by
  rw [encode, tableRecords, if_neg (by simpa using hcolumns)]
  rfl

/-- A file that starts with a byte order mark has a header, though not quite its columns. -/
lemma exists_encode_eq_mark_append (hcolumns : table.columns ≠ [])
    (hheader : table.columns ≠ ["\uFEFF"]) (hmark : mark <+: encode table) :
    ∃ header, header ≠ [] ∧
      encode table = mark ++ fileOf header (table.rows.map table.values) := by
  obtain ⟨name, names, hnames⟩ := List.exists_cons_of_ne_nil hcolumns
  rw [encode_eq_fileOf hcolumns, hnames] at hmark ⊢
  obtain ⟨hname, hplain⟩ := mark_prefix_of_prefix_writeRecord hmark
  obtain ⟨rest, hrest, hbytes⟩ := exists_encodeText_eq_mark_append hname
  have hne : encodeText rest :: names.map encodeText ≠ [[]] := by
    intro hempty
    obtain ⟨hnone, hnil⟩ := List.cons.inj hempty
    obtain rfl : rest = "" := encodeText_inj (hnone.trans rfl)
    rw [List.map_eq_nil_iff.1 hnil, hrest, String.append_empty] at hnames
    exact hheader hnames
  refine ⟨rest :: names, List.cons_ne_nil _ _, ?_⟩
  simp only [fileOf, List.map_cons, List.flatMap_cons, hbytes]
  rw [writeRecord_mark_append (hbytes ▸ hplain) hne, List.append_assoc]

/-- The file of a table holds its rows, with a text for every column, behind a header.  The
header is that of the table unless a byte order mark gets lost. -/
theorem texts_encode (hcolumns : table.columns ≠ [])
    (hheader : table.columns ≠ ["\uFEFF"]) :
    ∃ header, texts (encode table) = .ok (header :: table.rows.map table.values) ∧
      (¬LosesMark table.columns → header = table.columns) := by
  have hread : ∀ header, header ≠ [] →
      dropMark (encode table) = fileOf header (table.rows.map table.values) →
      texts (encode table) = .ok (header :: table.rows.map table.values) := by
    intro header hne hdrop
    have hfields : ∀ fields ∈ (header :: table.rows.map table.values).map (·.map encodeText),
        fields ≠ [] := by
      simp [Table.values, hne, hcolumns]
    rw [texts, records, hdrop]
    exact recordsTexts_of_map_fields (fields_recordsFrom_flatMap hfields _) _ _
  by_cases hprefix : mark <+: encode table
  · obtain ⟨header, hne, hmarked⟩ := exists_encode_eq_mark_append hcolumns hheader hprefix
    have hdrop : dropMark (encode table) = fileOf header (table.rows.map table.values) := by
      rw [hmarked]
      rfl
    exact ⟨header, hread header hne hdrop,
      fun hmark => absurd hprefix (not_mark_prefix_encode hmark)⟩
  · have hdrop := dropMark_of_not_prefix hprefix
    exact ⟨table.columns, hread _ hcolumns (hdrop.trans (encode_eq_fileOf hcolumns)),
      fun _ => rfl⟩

end FlatQuery.Csv
