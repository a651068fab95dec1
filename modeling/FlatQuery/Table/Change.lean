/-
# Changing rows

A table is changed by inserting one row, by assigning to columns of the rows that match, or by
deleting the rows that match.  A change that does not fit the columns of the table is refused.
-/
import FlatQuery.Table.Select

namespace FlatQuery.Table

/-- The table with one more row, which has one value for each column. -/
def insert (table : Table) (values : List String) : Except ValidationError Table :=
  if values.length = table.columns.length then .ok (table.push (fieldsOf table.columns values))
  else .error (.valueCount table.columns.length values.length)

/-- The fields of a row after assignments, which are made one after the other. -/
def assign (assignments : List Assignment) (fields : Fields) : Fields :=
  assignments.foldl (fun fields a => fields.insert a.column a.value) fields

/-- The table with assignments made in every row that matches.  Only columns of the table can
be assigned to, also when no row matches. -/
def update (table : Table) (conditions : List Condition) (assignments : List Assignment) :
    Except ValidationError Table :=
  match assignments.find? fun a => !table.columns.contains a.column with
  | some a => .error (.unknownColumn a.column)
  | none => .ok (table.mapRows fun row =>
      if row.matches conditions then assign assignments row.fields else row.fields)

/-- The table without the rows that match. -/
def delete (table : Table) (conditions : List Condition) : Table :=
  table.filter fun row => !row.matches conditions

end FlatQuery.Table
