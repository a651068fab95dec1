/-
# Tables

A table has named columns and a sequence of rows.  A row gives texts to some column names; it
may lack a column of its table, and it may have a name that is no column.  Inside a table each
row has a number, its id, and the rows stand in the order of their ids.  Ids are not part of
the data: they are handed out when a table is loaded or joined, and a new row always gets one
that is greater than those of all rows present.  Ids are natural numbers, which do not run out.
-/
import FlatQuery.Query.Basic
import Std.Data.ExtTreeMap

namespace FlatQuery

/-- The texts of a row by column name. -/
abbrev Fields := Std.ExtTreeMap String String

/-- A row of a table. -/
structure Row where
  id : Nat
  fields : Fields
deriving DecidableEq, Repr

/-- The fields that columns get from a list of values, one after the other.  Columns at the end
may get none, and of two columns with the same name the later one counts. -/
def fieldsOf (columns values : List String) : Fields :=
  .ofList (columns.zip values)

/-- The text of a row in a column, if it has one there. -/
def Row.value? (row : Row) (column : String) : Option String :=
  row.fields[column]?

/-- A table: its columns, which may repeat a name, and its rows. -/
structure Table where
  columns : List String
  rows : List Row
  /-- Rows stand in the order of their ids, and no id is given twice. -/
  ascending : rows.Pairwise (·.id < ·.id) := by simp
deriving DecidableEq, Repr

namespace Table

/-- The rows of the given fields, numbered from `first` on. -/
def numberRows (first : Nat) : List Fields → List Row
  | [] => []
  | fields :: rest => ⟨first, fields⟩ :: numberRows (first + 1) rest

theorem le_id_of_mem_numberRows {first : Nat} {fieldss : List Fields} {row : Row}
    (h : row ∈ numberRows first fieldss) : first ≤ row.id := by
  induction fieldss generalizing first with
  | nil => cases h
  | cons fields rest ih =>
    rcases List.mem_cons.1 h with rfl | h
    · exact Nat.le_refl _
    · exact Nat.le_of_succ_le (ih h)

theorem numberRows_ascending (first : Nat) (fieldss : List Fields) :
    (numberRows first fieldss).Pairwise (·.id < ·.id) := by
  induction fieldss generalizing first with
  | nil => exact .nil
  | cons fields rest ih => exact .cons (fun _ h => le_id_of_mem_numberRows h) (ih _)

/-- The table with the given rows, whose ids are counted from 1. -/
def numbered (columns : List String) (fieldss : List Fields) : Table where
  columns
  rows := numberRows 1 fieldss
  ascending := numberRows_ascending 1 fieldss

/-- The table of the given rows, in whatever order they come.  Of two rows with the same id
the later one counts. -/
def ofRows (columns : List String) (rows : List Row) : Table :=
  let byId : Std.ExtTreeMap Nat Fields := .ofList (rows.map fun row => (row.id, row.fields))
  { columns
    rows := byId.toList.map fun entry => ⟨entry.1, entry.2⟩
    ascending := by
      rw [List.pairwise_map]
      exact Std.ExtTreeMap.ordered_keys_toList.imp Nat.compare_eq_lt.1 }

/-- The least id that is greater than the ids of all rows. -/
def nextId (table : Table) : Nat :=
  match table.rows.getLast? with
  | some row => row.id + 1
  | none => 1

/-- The id of a row is less than the next one. -/
theorem id_lt_nextId {table : Table} {row : Row} (h : row ∈ table.rows) :
    row.id < table.nextId := by
  unfold nextId
  split
  · next last hlast =>
    obtain ⟨before, hrows⟩ := List.getLast?_eq_some_iff.1 hlast
    rw [hrows, List.mem_append, List.mem_singleton] at h
    rcases h with h | rfl
    · have := (List.pairwise_append.1 (hrows ▸ table.ascending)).2.2 row h last (by simp)
      omega
    · exact Nat.lt_succ_self _
  · next hnone =>
    rw [List.getLast?_eq_none_iff.1 hnone] at h
    cases h

/-- The table with one more row at its end, which has the next id. -/
def push (table : Table) (fields : Fields) : Table where
  columns := table.columns
  rows := table.rows ++ [⟨table.nextId, fields⟩]
  ascending := List.pairwise_append.2
    ⟨table.ascending, List.pairwise_singleton .., fun _ h _ hr => by
      rw [List.mem_singleton.1 hr]
      exact id_lt_nextId h⟩

/-- The table with only the rows that meet a test. -/
def filter (table : Table) (test : Row → Bool) : Table where
  columns := table.columns
  rows := table.rows.filter test
  ascending := table.ascending.filter _

/-- The table without the row of the given id. -/
def remove (table : Table) (id : Nat) : Table :=
  table.filter (·.id != id)

/-- The table with the fields of every row changed. -/
def mapRows (table : Table) (change : Row → Fields) : Table where
  columns := table.columns
  rows := table.rows.map fun row => ⟨row.id, change row⟩
  ascending := List.pairwise_map.2 table.ascending

/-- The row of the given id. -/
def row? (table : Table) (id : Nat) : Option Row :=
  table.rows.find? (·.id == id)

/-- The texts of a row in the order of the columns.  Where the row has none, the text is
empty. -/
def values (table : Table) (row : Row) : List String :=
  table.columns.map fun column => (row.value? column).getD ""

end Table

end FlatQuery
