/-
# What a table holds

Ids are not part of the data of a table.  What is left without them is a sheet: the columns,
and the fields of the rows in their order.  A sheet is settled when each row has a text for
every column and for nothing else, which is how the file of a table holds it.
-/
import FlatQuery.Table.Basic
import Mathlib.Data.List.Induction
import Mathlib.Tactic.Lemma

namespace FlatQuery

/-! ## Fields from columns -/

/-- A value that is added at the end counts for its column, whatever came before. -/
lemma fieldsOf_append_singleton {columns values : List String}
    (hlength : columns.length = values.length) (column value : String) :
    fieldsOf (columns ++ [column]) (values ++ [value]) =
      (fieldsOf columns values).insert column value := by
  rw [fieldsOf, List.zip_append hlength, Std.ExtTreeMap.ofList_eq_insertMany_empty,
    Std.ExtTreeMap.insertMany_append, ← Std.ExtTreeMap.ofList_eq_insertMany_empty]
  exact Std.ExtTreeMap.insertMany_list_singleton

/-- The fields with one text for each column are found under the names of the columns, and
under no other name. -/
lemma getElem?_fieldsOf_map (columns : List String) (text : String → String) (name : String) :
    (fieldsOf columns (columns.map text))[name]? =
      if name ∈ columns then some (text name) else none := by
  -- of two columns with one name the last one counts, so the columns are taken from the end
  induction columns using List.reverseRecOn with
  | nil => exact Std.ExtTreeMap.getElem?_empty
  | append_singleton columns column ih =>
    rw [List.map_append, List.map_singleton, fieldsOf_append_singleton (by simp),
      Std.ExtTreeMap.getElem?_insert, ih]
    by_cases hname : name = column
    · subst hname
      simp
    · have hcompare : compare column name ≠ .eq := by
        rw [ne_eq, Std.LawfulEqCmp.compare_eq_iff_eq]
        exact Ne.symm hname
      simp [hname, hcompare]

/-! ## Numbered rows -/

namespace Table

variable {first : Nat} {fieldss : List Fields}

@[simp] lemma length_numberRows : (numberRows first fieldss).length = fieldss.length := by
  induction fieldss generalizing first with
  | nil => rfl
  | cons fields rest ih => simp [numberRows, ih]

/-- The rows have the given fields, and ids that are counted from the first one. -/
lemma getElem?_numberRows (i : Nat) :
    (numberRows first fieldss)[i]? = fieldss[i]?.map fun fields => ⟨first + i, fields⟩ := by
  induction fieldss generalizing first i with
  | nil => rfl
  | cons fields rest ih =>
    cases i with
    | zero => rfl
    | succ i =>
      simp only [numberRows, List.getElem?_cons_succ, ih]
      congr 1
      funext fields
      congr 1
      omega

@[simp] lemma map_fields_numberRows : (numberRows first fieldss).map Row.fields = fieldss := by
  apply List.ext_getElem?
  intro i
  rw [List.getElem?_map, getElem?_numberRows, Option.map_map]
  exact Option.map_id'

end Table

/-! ## Sheets -/

/-- The content of a table: its columns, and the fields of its rows in their order. -/
structure Sheet where
  columns : List String
  rows : List Fields
deriving DecidableEq, Repr

/-- What a table holds besides the ids. -/
def Table.sheet (table : Table) : Sheet where
  columns := table.columns
  rows := table.rows.map Row.fields

/-- The texts of a row, of which the given ones are its fields, in the order of the columns. -/
def fieldValues (columns : List String) (fields : Fields) : List String :=
  columns.map fun column => fields[column]?.getD ""

/-- The values of the rows of a table can be told from its sheet. -/
lemma Table.map_values (table : Table) :
    table.rows.map table.values = table.sheet.rows.map (fieldValues table.columns) := by
  rw [sheet, List.map_map]
  rfl

/-- The fields with a text for every column and for nothing else. -/
def settle (columns : List String) (fields : Fields) : Fields :=
  fieldsOf columns (fieldValues columns fields)

lemma getElem?_settle (columns : List String) (fields : Fields) (name : String) :
    (settle columns fields)[name]? =
      if name ∈ columns then some (fields[name]?.getD "") else none :=
  getElem?_fieldsOf_map columns _ name

/-- Settled fields have the same values as before. -/
lemma fieldValues_settle (columns : List String) (fields : Fields) :
    fieldValues columns (settle columns fields) = fieldValues columns fields := by
  apply List.map_congr_left
  intro column hcolumn
  rw [getElem?_settle, if_pos hcolumn]
  rfl

namespace Sheet

/-- The table of a sheet, with ids counted from 1. -/
def table (sheet : Sheet) : Table :=
  .numbered sheet.columns sheet.rows

/-- The sheet in which every row is settled.  Without columns there is no row. -/
def settled (sheet : Sheet) : Sheet where
  columns := sheet.columns
  rows := if sheet.columns = [] then [] else sheet.rows.map (settle sheet.columns)

lemma settled_of_columns {sheet : Sheet} (h : sheet.columns ≠ []) :
    sheet.settled = ⟨sheet.columns, sheet.rows.map (settle sheet.columns)⟩ := by
  rw [settled, if_neg h]

lemma settled_of_no_columns {sheet : Sheet} (h : sheet.columns = []) :
    sheet.settled = ⟨[], []⟩ := by
  rw [settled, if_pos h, h]

@[simp] lemma sheet_table (sheet : Sheet) : sheet.table.sheet = sheet := by
  simp [table, Table.sheet, Table.numbered]

/-- Settling a table with columns leaves the values of its rows as they are. -/
lemma map_values_settled {table : Table} (hcolumns : table.columns ≠ []) :
    table.sheet.settled.table.rows.map table.sheet.settled.table.values =
      table.rows.map table.values := by
  have hsettled : table.sheet.settled.rows = table.sheet.rows.map (settle table.columns) := by
    rw [settled_of_columns hcolumns]
    rfl
  have hvalues : fieldValues table.columns ∘ settle table.columns = fieldValues table.columns :=
    funext (fieldValues_settle table.columns)
  rw [Table.map_values, Table.map_values, sheet_table, hsettled, List.map_map]
  exact congrArg (fun values => table.sheet.rows.map values) hvalues

end Sheet

end FlatQuery
