/-
# Selecting rows

The rows of a table that meet a list of conditions are put into the order of a list of sort
keys, and of each the values in the selected columns are shown.
-/
import FlatQuery.Table.Basic

namespace FlatQuery

/-- A row meets a condition when the criterion accepts what it has in the column. -/
def Condition.accepts (condition : Condition) (row : Row) : Bool :=
  condition.criterion.accepts (row.value? condition.column)

/-- A row matches when it meets every condition. -/
def Row.matches (row : Row) (conditions : List Condition) : Bool :=
  conditions.all (·.accepts row)

/-- The order of two rows under one key.  Texts are ordered by code points, and a missing
value comes before every text. -/
def SortKey.compare (key : SortKey) (a b : Row) : Ordering :=
  let ordering := Ord.compare (a.value? key.column) (b.value? key.column)
  match key.direction with
  | .ascending => ordering
  | .descending => ordering.swap

/-- The order of two rows under a list of keys, of which the first that tells them apart
decides. -/
def SortKey.compareAll (keys : List SortKey) (a b : Row) : Ordering :=
  keys.foldr (fun key rest => (key.compare a b).then rest) .eq

/-- The rows in the order of a list of keys.  Rows that the keys do not tell apart keep the
order in which they came. -/
def sortRows (keys : List SortKey) (rows : List Row) : List Row :=
  rows.mergeSort fun a b => (SortKey.compareAll keys a b).isLE

namespace Table

/-- The rows of a table that match. -/
def matching (table : Table) (conditions : List Condition) : List Row :=
  table.rows.filter (·.matches conditions)

/-- The values of a row in the selected columns, in the order of the table's columns.  A
column in which the row has no value is left out. -/
def project (table : Table) (selection : Selection) (row : Row) : List String :=
  (table.columns.filter selection.includes).filterMap row.value?

/-- What a query shows of a table: one list of values for each row. -/
def select (table : Table) (selection : Selection) (conditions : List Condition)
    (order : List SortKey) : List (List String) :=
  (sortRows order (table.matching conditions)).map (table.project selection)

end Table

/-- The line in which the values of a row are shown. -/
def rowLine (values : List String) : String :=
  "|".intercalate values

end FlatQuery
