/-
# Joins

Joining a table with another one attaches the rows of the right table to those of the left
table that have the same text in a column.
-/
import FlatQuery.Table.Basic

namespace FlatQuery.Table

/-- The columns of a join: those of the left table, followed by those of the right table whose
names are new. -/
def joinColumns (left right : List String) : List String :=
  right.foldl (fun columns column =>
    if columns.contains column then columns else columns ++ [column]) left

/-- The fields of the pairs that a row of the left table makes with rows of the right table:
both have the column in question, and the texts there are equal.  Where both rows of a pair
have a name, the text of the right one counts. -/
def joinRow (right : List Row) (join : Join) (row : Row) : List Fields :=
  match row.value? join.leftColumn with
  | none => []
  | some key =>
    (right.filter (·.value? join.rightColumn == some key)).map fun other =>
      row.fields ∪ other.fields

/-- The join of two tables.  Its rows are the matching pairs, ordered by the left row first and
then by the right row, and they are numbered anew. -/
def join (left right : Table) (join : Join) : Table :=
  numbered (joinColumns left.columns right.columns)
    (left.rows.flatMap (joinRow right.rows join))

end FlatQuery.Table
