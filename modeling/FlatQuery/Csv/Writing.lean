/-
# CSV files from tables

A table is written as one record for its columns and one for each row, in which a missing
value is empty.  Every record ends with a line feed.  A field is quoted where its bytes would
otherwise mean something else, and so is an empty field that is alone in its record, because
an empty line is no record.  All records of a file must have the same number of fields, and
those of a table do (`writeRecords_tableRecords`).
-/
import FlatQuery.Csv.Record
import FlatQuery.Error
import FlatQuery.Table.Basic

namespace FlatQuery.Csv

/-- A field has to be quoted when it contains a comma, a quote or the end of a line. -/
def needsQuotes (field : Bytes) : Bool :=
  field.any fun b => b == comma || b == quote || isLineEnd b

/-- A field between quotes, with each quote inside it written twice. -/
def quoteField (field : Bytes) : Bytes :=
  quote :: field.flatMap (fun b => if b = quote then [quote, quote] else [b]) ++ [quote]

/-- A field as it is written. -/
def writeField (field : Bytes) : Bytes :=
  if needsQuotes field then quoteField field else field

/-- The fields of a record as they are written, with commas between them. -/
def writeFields (fields : List Bytes) : Bytes :=
  [comma].intercalate (fields.map writeField)

/-- A record as it is written. -/
def writeRecord (fields : List Bytes) : Bytes :=
  if fields = [[]] then [quote, quote, lineFeed] else writeFields fields ++ [lineFeed]

/-- The reason why a record cannot follow records of a given width. -/
def widthError? (width? : Option Nat) (fields : List Bytes) : Option WidthError :=
  match width? with
  | some width => if fields.length = width then none else some ⟨width, fields.length⟩
  | none => none

/-- What is written when one record after the other is written to a file, and the reason why a
record is refused, if one is.  Every record must have as many fields as the ones before; of a
refused record the fields are written, but not its end. -/
def writeRecords (width? : Option Nat) : List (List Bytes) → Bytes × Option WidthError
  | [] => ([], none)
  | fields :: records =>
    match widthError? width? fields with
    | some e => (writeFields fields, some e)
    | none => (writeRecords (some fields.length) records).map (writeRecord fields ++ ·) id

/-- The records of a table: one for its columns and one for each row.  A table without columns
has none. -/
def tableRecords (table : Table) : List (List Bytes) :=
  if table.columns.isEmpty then []
  else (table.columns :: table.rows.map table.values).map (·.map encodeText)

/-- The file of a table.  It is empty when the table has no columns. -/
def encode (table : Table) : Bytes :=
  (tableRecords table).flatMap writeRecord

/-- Records of one width are all written. -/
theorem writeRecords_of_length {width : Nat} {records : List (List Bytes)}
    (h : ∀ fields ∈ records, fields.length = width) {width? : Option Nat}
    (hwidth : ∀ w ∈ width?, w = width) :
    writeRecords width? records = (records.flatMap writeRecord, none) := by
  induction records generalizing width? with
  | nil => rfl
  | cons fields records ih =>
    obtain ⟨hfields, hrecords⟩ := List.forall_mem_cons.1 h
    have hnone : widthError? width? fields = none := by
      cases width? with
      | none => rfl
      | some w => simp [widthError?, hfields, hwidth w rfl]
    have hnext : ∀ w ∈ some fields.length, w = width := by simpa using hfields
    simp [writeRecords, hnone, ih hrecords hnext]

/-- Every record of a table has one field for each column. -/
theorem length_of_mem_tableRecords {table : Table} {fields : List Bytes}
    (h : fields ∈ tableRecords table) : fields.length = table.columns.length := by
  unfold tableRecords at h
  split at h
  · cases h
  · obtain ⟨texts, htexts, rfl⟩ := List.mem_map.1 h
    rcases List.mem_cons.1 htexts with rfl | hrow
    · exact List.length_map ..
    · obtain ⟨row, -, rfl⟩ := List.mem_map.1 hrow
      simp [Table.values]

/-- No record of a table is refused. -/
theorem writeRecords_tableRecords (table : Table) :
    writeRecords none (tableRecords table) = (encode table, none) :=
  writeRecords_of_length (fun _ => length_of_mem_tableRecords) (by simp)

end FlatQuery.Csv
