/-
# Records of a CSV file

A CSV file is a sequence of records, and a record is a sequence of fields.  A comma ends a
field; a line feed or a carriage return ends a record, and so does the end of the file.  A
field that starts with a double quote is quoted: up to the next quote every byte stands for
itself, except that two quotes in a row stand for one.  Empty lines hold no record, and a byte
order mark at the start of the file is passed over.

Every sequence of bytes can be read in this way.  A quote that is never closed reaches to the
end of the file, text after a closing quote belongs to the field as it is, and a quote inside
a field that did not start with one stands for itself.
-/
import FlatQuery.Text.Utf8

namespace FlatQuery.Csv

/-- The byte that ends a field. -/
def comma : UInt8 := 0x2C

/-- The byte around a quoted field. -/
def quote : UInt8 := 0x22

/-- The byte of a line feed. -/
def lineFeed : UInt8 := 0x0A

/-- The byte of a carriage return. -/
def carriageReturn : UInt8 := 0x0D

/-- The bytes that end a record. -/
def isLineEnd (b : UInt8) : Bool :=
  b == lineFeed || b == carriageReturn

/-- Where in a field the reading stands. -/
inductive Place where
  /-- At the start of the field. -/
  | start
  /-- In text that stands for itself up to the end of the field. -/
  | plain
  /-- Between quotes. -/
  | quoted
  /-- Right behind a quote that was met between quotes. -/
  | closing
deriving DecidableEq, Repr

/-- What a byte means. -/
inductive Meaning where
  /-- It belongs to the field, and the reading goes on at the given place. -/
  | text (next : Place)
  /-- It is a quote around text, and the reading goes on at the given place. -/
  | mark (next : Place)
  /-- It ends the field. -/
  | fieldEnd
  /-- It ends the record. -/
  | recordEnd
deriving DecidableEq, Repr

/-- What a byte means at a place of a field. -/
def Place.meaning : Place → UInt8 → Meaning
  | quoted, b => if b = quote then .mark closing else .text quoted
  | place, b =>
    if b = quote ∧ place = start then .mark quoted
    else if b = quote ∧ place = closing then .text quoted
    else if b = comma then .fieldEnd
    else if isLineEnd b then .recordEnd
    else .text plain

/-- The fields of one record, of which the first is read on from the given place, and the
bytes after the record. -/
def readFields : Place → Bytes → List Bytes × Bytes
  | _, [] => ([[]], [])
  | place, b :: bytes =>
    match place.meaning b with
    | .text next => (readFields next bytes).map (·.modifyHead (b :: ·)) id
    | .mark next => readFields next bytes
    | .fieldEnd => (readFields .start bytes).map ([] :: ·) id
    | .recordEnd => ([[]], bytes)

/-- Reading a record uses up at least one byte, if there is one. -/
theorem length_rest_readFields_le (place : Place) (bytes : Bytes) :
    (readFields place bytes).2.length ≤ bytes.length - 1 := by
  fun_induction readFields place bytes <;> simp_all <;> omega

/-- A record of a file. -/
structure Record where
  /-- The bytes of the file from where the reading of the record began. -/
  source : Bytes
  fields : List Bytes
deriving DecidableEq, Repr

/-- The records in some bytes, where the reading of the first began at `source`.  Line ends
before a record are passed over. -/
def recordsFrom (source bytes : Bytes) : List Record :=
  let body := bytes.dropWhile isLineEnd
  if body = [] then []
  else
    let rest := (readFields .start body).2
    ⟨source, (readFields .start body).1⟩ :: recordsFrom rest rest
termination_by bytes.length
decreasing_by
  next h =>
    have hpos : 0 < body.length := List.length_pos_iff.2 h
    have hrest := length_rest_readFields_le .start body
    have hbody : body.length ≤ bytes.length := (List.dropWhile_suffix _).length_le
    change (readFields .start body).2.length < bytes.length
    omega

/-- A file without the byte order mark at its start. -/
def dropMark : Bytes → Bytes
  | 0xEF :: 0xBB :: 0xBF :: bytes => bytes
  | bytes => bytes

/-- The records of a file. -/
def records (file : Bytes) : List Record :=
  recordsFrom file (dropMark file)

end FlatQuery.Csv
