/-
# Tables that are written and read back

What is written of a table depends on its sheet only, and reading it back gives the settled
sheet (`Csv.decode_encode`), which is then written as the same bytes (`Csv.encode_settled`).
The one thing that can get lost is a byte order mark at the start of the first column's name.
-/
import FlatQuery.Csv.Reading
import FlatQuery.Proofs.Csv.Text
import FlatQuery.Proofs.Table.Sheet

namespace FlatQuery.Csv

/-! ## Texts in records -/

lemma fieldTexts_map_encodeText (number : Nat) (texts : List String) :
    fieldTexts number (texts.map encodeText) = .ok texts := by
  induction texts generalizing number with
  | nil => rfl
  | cons text texts ih =>
    rw [List.map_cons, fieldTexts, decodeText?_encodeText, ih]
    rfl

/-- Records whose fields are written texts are read as these texts. -/
lemma recordsTexts_of_map_fields {records : List Record} {textss : List (List String)}
    (h : records.map Record.fields = textss.map (·.map encodeText)) (file : Bytes)
    (number : Nat) : recordsTexts file number records = .ok textss := by
  induction records generalizing textss number with
  | nil =>
    have hnil : textss = [] := by simpa using h.symm
    rw [hnil]
    rfl
  | cons record records ih =>
    cases textss with
    | nil => simp at h
    | cons texts textss =>
      obtain ⟨hfields, hrecords⟩ := List.cons.inj h
      have htexts : recordTexts file number record = .ok texts := by
        rw [recordTexts, hfields, fieldTexts_map_encodeText]
        rfl
      rw [recordsTexts, htexts, ih hrecords]
      rfl

/-! ## The records of a sheet -/

/-- The texts of the records in the file of a sheet that has columns. -/
def sheetTexts (sheet : Sheet) : List (List String) :=
  sheet.columns :: sheet.rows.map (fieldValues sheet.columns)

lemma tableRecords_of_columns {table : Table} (hcolumns : table.columns ≠ []) :
    tableRecords table = (sheetTexts table.sheet).map (·.map encodeText) := by
  rw [tableRecords, if_neg (by simpa using hcolumns), Table.map_values]
  rfl

lemma encode_of_no_columns {table : Table} (hcolumns : table.columns = []) :
    encode table = [] := by
  simp [encode, tableRecords, hcolumns]

lemma sheetTexts_settled {sheet : Sheet} (hcolumns : sheet.columns ≠ []) :
    sheetTexts sheet.settled = sheetTexts sheet := by
  rw [Sheet.settled_of_columns hcolumns]
  simp [sheetTexts, fieldValues_settle]

/-- A settled sheet is written as it was before. -/
theorem encode_settled (table : Table) : encode table.sheet.settled.table = encode table := by
  by_cases hcolumns : table.columns = []
  · rw [encode_of_no_columns hcolumns]
    exact encode_of_no_columns hcolumns
  · have hsettled : table.sheet.settled.table.columns ≠ [] := hcolumns
    rw [encode, encode, tableRecords_of_columns hcolumns, tableRecords_of_columns hsettled,
      Sheet.sheet_table, sheetTexts_settled hcolumns]

/-! ## Reading back -/

lemma not_mark_prefix_encode {table : Table} (hmark : ¬LosesMark table.columns) :
    ¬mark <+: encode table := by
  intro hprefix
  by_cases hcolumns : table.columns = []
  · rw [encode_of_no_columns hcolumns] at hprefix
    exact absurd (List.prefix_nil.1 hprefix) (by decide)
  · obtain ⟨name, names, hnames⟩ := List.exists_cons_of_ne_nil hcolumns
    -- the file starts with the first column's name, and the mark is part of it
    have hrecords := tableRecords_of_columns hcolumns
    rw [sheetTexts, show table.sheet.columns = name :: names from hnames] at hrecords
    rw [encode, hrecords] at hprefix
    obtain ⟨hname, hplain⟩ := mark_prefix_of_prefix_writeRecord hprefix
    refine hmark ⟨name, by simp [hnames], head?_eq_markChar_of_prefix hname, fun hspecial => ?_⟩
    rw [needsQuotes_encodeText hspecial] at hplain
    cases hplain

/-- Records of texts are read as these texts, also when they are not equally long. -/
lemma decode_flatMap_writeRecord {textss : List (List String)}
    (hne : ∀ texts ∈ textss, texts ≠ [])
    (hmark : ¬mark <+: (textss.map (·.map encodeText)).flatMap writeRecord) :
    decode ((textss.map (·.map encodeText)).flatMap writeRecord) = .ok (tableOf textss) := by
  have hfields : ∀ fields ∈ textss.map (·.map encodeText), fields ≠ [] := by simpa using hne
  rw [decode, records, dropMark_of_not_prefix hmark,
    recordsTexts_of_map_fields (fields_recordsFrom_flatMap hfields _)]
  rfl

/-- The file of a table holds its settled sheet. -/
theorem decode_encode {table : Table} (hmark : ¬LosesMark table.columns) :
    decode (encode table) = .ok table.sheet.settled.table := by
  by_cases hcolumns : table.columns = []
  · rw [encode_of_no_columns hcolumns, Sheet.settled_of_no_columns hcolumns, decode, records,
      recordsFrom]
    rfl
  · have hne : ∀ texts ∈ sheetTexts table.sheet, texts ≠ [] := by
      simp [sheetTexts, Table.sheet, fieldValues, hcolumns]
    have hsettled : table.sheet.settled.table = tableOf (sheetTexts table.sheet) := by
      rw [Sheet.settled_of_columns hcolumns]
      simp only [sheetTexts, tableOf, Sheet.table, List.map_map]
      rfl
    have hprefix := not_mark_prefix_encode hmark
    rw [encode, tableRecords_of_columns hcolumns] at hprefix ⊢
    rw [decode_flatMap_writeRecord hne hprefix, hsettled]

end FlatQuery.Csv
