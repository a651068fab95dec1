/-
# Files that can be loaded

Every file that is a text holds a table (`Table.load_text`), whatever stands in it: quotes that are
left open, empty lines, records that are shorter or longer than the header.  Each record behind the
header has its row, whose id is the number of the record, and a row has what its record has in the
columns of the header, from left to right as far as both reach.
-/
import FlatQuery.Proofs.Csv.Character
import FlatQuery.Proofs.Execution
import FlatQuery.Proofs.Table.Join
import FlatQuery.Proofs.Table.Position

namespace FlatQuery

variable {table : Table} {row : Row} {columns record : List String} {name : String}

/-! ## Rows from records -/

/-- A row is filled from a record when it has those columns that have a position in the record, and
in each of them the text at the last position of that name. -/
structure Row.FilledFrom (row : Row) (columns record : List String) : Prop where
  isSome_iff : ∀ name, (row.value? name).isSome ↔
    name ∈ columns.take (min columns.length record.length)
  value?_eq : ∀ (j : ℕ) (name : String), j < min columns.length record.length →
    columns[j]? = some name →
    (∀ k, j < k → k < min columns.length record.length → columns[k]? ≠ some name) →
    row.value? name = record[j]?

lemma isSome_getElem?_fieldsOf :
    (fieldsOf columns record)[name]?.isSome ↔
      name ∈ columns.take (min columns.length record.length) := by
  have hnames : (columns.zip record).map Prod.fst =
      columns.take (min columns.length record.length) := by
    rw [List.zip_eq_zip_take_min, List.map_fst_zip]
    simp
  rw [← Std.ExtTreeMap.mem_iff_isSome_getElem?, fieldsOf, Std.ExtTreeMap.mem_ofList, hnames,
    List.contains_iff_mem]

lemma filledFrom_fieldsOf (id : ℕ) (columns record : List String) :
    (Row.mk id (fieldsOf columns record)).FilledFrom columns record where
  isSome_iff _ := isSome_getElem?_fieldsOf
  value?_eq j name hj hname hlast := by
    have htext : record[j]? = some record[j] := List.getElem?_eq_getElem (by omega)
    rw [htext]
    refine getElem?_fieldsOf_of_last hname htext fun k hjk hk => ?_
    by_cases hcolumns : k < columns.length
    · exact hlast k hjk (by omega)
    · rw [List.getElem?_eq_none (by omega)]
      simp

namespace Table

/-- A row is found under its own id. -/
lemma row?_of_mem (h : row ∈ table.rows) : table.row? row.id = some row := by
  obtain ⟨before, after, hrows⟩ := List.append_of_mem h
  have hbefore : before.find? (·.id == row.id) = none := by
    rw [List.find?_eq_none]
    intro other hother
    have hlt := (List.pairwise_append.1 (hrows ▸ table.ascending)).2.2 other hother row (by simp)
    simpa using Nat.ne_of_lt hlt
  rw [row?, hrows, List.find?_append, hbefore, Option.none_or, List.find?_cons_of_pos (by simp)]

/-- A table holds records, of which the first is its header, when it has the columns of the header
and one row for each other record.  The rows are found under the ids from 1 on, and each is filled
from its record. -/
structure HoldsRecords (table : Table) (textss : List (List String)) : Prop where
  columns : table.columns = textss.headD []
  ids : table.rows.map Row.id = List.range' 1 textss.tail.length
  row : ∀ (i : ℕ) (record : List String), textss.tail[i]? = some record →
    ∃ row, table.rows[i]? = some row ∧ row.id = i + 1 ∧ table.row? (i + 1) = some row ∧
      row.FilledFrom table.columns record

lemma holdsRecords_tableOf (textss : List (List String)) :
    (Csv.tableOf textss).HoldsRecords textss := by
  cases textss with
  | nil => exact ⟨rfl, rfl, by simp⟩
  | cons columns records =>
    refine ⟨rfl, ?_, fun i record hrecord => ?_⟩
    · rw [Csv.tableOf, numbered, map_id_numberRows, List.length_map, List.tail_cons]
    · have hrow : (Csv.tableOf (columns :: records)).rows[i]? =
          some ⟨1 + i, fieldsOf columns record⟩ := by
        rw [List.tail_cons] at hrecord
        rw [Csv.tableOf, numbered, getElem?_numberRows, List.getElem?_map, hrecord]
        rfl
      rw [Nat.add_comm 1 i] at hrow
      exact ⟨_, hrow, rfl, row?_of_mem (List.mem_of_getElem? hrow), filledFrom_fieldsOf _ _ _⟩

/-! ## Loading -/

/-- A file that is a text is loaded, and the table holds its records. -/
theorem load_text {read : Reader} {path : String} {file : Bytes} (hread : read path = .ok file)
    (htext : (decodeText? file).isSome) :
    ∃ table textss, Table.load read path = .ok table ∧
      textss.map (·.map encodeText) = (Csv.records file).map Csv.Record.fields ∧
      table.HoldsRecords textss := by
  obtain ⟨textss, hrecords, htexts⟩ := Csv.exists_texts (isText_iff.2 htext)
  have hdecode : Csv.decode file = .ok (Csv.tableOf textss) :=
    Csv.decode_eq_ok_iff.2 ⟨textss, htexts, rfl⟩
  exact ⟨_, textss, load_eq_ok_iff.2 ⟨file, hread, hdecode⟩, hrecords, holdsRecords_tableOf textss⟩

/-- A byte order mark, an empty line before the header, a repeated column, a record that is too
short, one that is too long, and a quote that is left open. -/
theorem load_text_of_open_quote :
    let file := encodeText "\uFEFF\n\"é,\",b,b\r\n1\n\n2,3,4,5\r\"x\"\"y\",\"é\n,"
    let read : Reader := fun _ => .ok file
    let columns := ["é,", "b", "b"]
    let table : Table :=
      { columns
        rows := [⟨1, fieldsOf columns ["1"]⟩, ⟨2, fieldsOf columns ["2", "3", "4"]⟩,
          ⟨3, fieldsOf columns ["x\"y", "é\n,"]⟩]
        ascending := by decide }
    (decodeText? file).isSome ∧ Table.load read "./t.csv" = .ok table ∧
      ∃ textss, textss.map (·.map encodeText) = (Csv.records file).map Csv.Record.fields ∧
        table.HoldsRecords textss := by
  intro file read columns table
  have htext : (decodeText? file).isSome := by
    rw [decodeText?_encodeText]
    rfl
  have hread : read "./t.csv" = .ok file := rfl
  have htable : Table.load read "./t.csv" = .ok table := by decide +kernel
  obtain ⟨loaded, textss, hload, hrecords, hholds⟩ := load_text hread htext
  obtain rfl : loaded = table := Except.ok.inj (hload.symm.trans htable)
  exact ⟨htext, htable, textss, hrecords, hholds⟩

end Table

end FlatQuery
