/-
# Tables from CSV files

The first record of a file names the columns of a table, and every other record is a row.  A
record may be shorter than the first one, and its row then lacks the columns at the end; what
a longer one has beyond the columns is dropped.  Fields have to be text in UTF-8.
-/
import FlatQuery.Csv.Record
import FlatQuery.Table.Basic

namespace FlatQuery.Csv

/-- The texts of a list of fields, or the first field that is no text: its number, and how
many of its bytes are text. -/
def fieldTexts (number : Nat) : List Bytes → Except (Nat × Nat) (List String)
  | [] => .ok []
  | field :: fields =>
    match decodeText? field with
    | none => .error (number, (Utf8Fault.first 0 field).index)
    | some text => (fieldTexts (number + 1) fields).map (text :: ·)

/-- The texts of the `number`-th record of a file. -/
def recordTexts (file : Bytes) (number : Nat) (record : Record) :
    Except RecordError (List String) :=
  (fieldTexts 0 record.fields).mapError fun (field, index) =>
    let offset := file.length - record.source.length
    { record := number
      line := (file.take offset).count lineFeed + 1
      offset, field, index }

/-- The texts of the records of a file, in which the given list begins with the `number`-th
one. -/
def recordsTexts (file : Bytes) (number : Nat) : List Record →
    Except RecordError (List (List String))
  | [] => .ok []
  | record :: records => do
    let texts ← recordTexts file number record
    let more ← recordsTexts file (number + 1) records
    return texts :: more

/-- The table of a list of records.  Without a record it has neither columns nor rows. -/
def tableOf : List (List String) → Table
  | [] => { columns := [], rows := [] }
  | columns :: rows => .numbered columns (rows.map (fieldsOf columns))

/-- The table that a file holds. -/
def decode (file : Bytes) : Except RecordError Table :=
  (recordsTexts file 0 (records file)).map tableOf

end FlatQuery.Csv
