/-
# Tables on disk

A table that is written to a disk is read back from there by the same path
(`Table.load_persist`).  Every row then has a text for each column, which is empty where the
row had none before, and the ids are counted from 1.  A table without columns is written as
the empty file.
-/
import FlatQuery.Database
import FlatQuery.Proofs.Csv.Table
import FlatQuery.Proofs.Disk

namespace FlatQuery.Table

/-- Writing a table fails only where no file can be written, and this changes nothing. -/
theorem persist_eq (table : Table) (disk : Disk) (path : String) :
    table.persist disk path =
      match disk.target path with
      | .error e => (.error (.storage path (.file e)), disk)
      | .ok location => (.ok (), disk.putFile location (Csv.encode table)) := by
  rw [persist, Csv.writeRecords_tableRecords]
  simp only [Disk.write]
  cases disk.target path with
  | error e => rfl
  | ok location => rfl

lemma load_eq_of_read {read : Reader} {path : String} {bytes : Bytes}
    (h : read path = .ok bytes) :
    Table.load read path = (Csv.decode bytes).mapError fun e => .storage path (.record e) := by
  rw [load, h]

/-- A table is restored from another one when it has the same columns, and the same rows with
ids counted from 1, where each row has for every column the text that it had before, or the
empty one where it had none, and no other text. -/
structure RestoredFrom (restored table : Table) : Prop where
  columns : restored.columns = table.columns
  length : restored.rows.length = table.rows.length
  row : ∀ (i : Nat) (h : i < table.rows.length), ∃ row, restored.rows[i]? = some row ∧
    row.id = i + 1 ∧ ∀ name, row.value? name =
      if name ∈ table.columns then some ((table.rows[i].value? name).getD "") else none

lemma restoredFrom_settled {table : Table} (hcolumns : table.columns ≠ []) :
    table.sheet.settled.table.RestoredFrom table := by
  have hrows : table.sheet.settled.rows =
      table.rows.map fun row => settle table.columns row.fields := by
    rw [Sheet.settled_of_columns hcolumns, sheet, List.map_map]
    rfl
  refine ⟨rfl, by simp [Sheet.table, numbered, hrows], fun i hi => ?_⟩
  have hrow : table.sheet.settled.table.rows[i]? =
      some ⟨1 + i, settle table.columns table.rows[i].fields⟩ := by
    change (numberRows 1 table.sheet.settled.rows)[i]? = _
    rw [getElem?_numberRows, hrows, List.getElem?_map, List.getElem?_eq_getElem hi]
    rfl
  exact ⟨_, hrow, Nat.add_comm 1 i, getElem?_settle _ _⟩

/-- A table that is written to a disk is restored from there, and written again it changes
nothing. -/
theorem load_persist (table : Table) {disk : Disk} {path : String} {location : Location}
    (htarget : disk.target path = .ok location) :
    ∃ written, table.persist disk path = (.ok (), written) ∧
      (table.columns = [] → written.read path = .ok [] ∧
        Table.load written.read path = .ok { columns := [], rows := [] }) ∧
      (table.columns ≠ [] → ¬Csv.LosesMark table.columns →
        ∃ restored, Table.load written.read path = .ok restored ∧
          restored.RestoredFrom table ∧ Csv.encode restored = Csv.encode table ∧
          restored.persist written path = (.ok (), written)) := by
  have hread : (disk.putFile location (Csv.encode table)).read path = .ok (Csv.encode table) :=
    Disk.read_putFile htarget
  refine ⟨disk.putFile location (Csv.encode table), by rw [persist_eq, htarget], ?_, ?_⟩
  · intro hcolumns
    have hmark : ¬Csv.LosesMark table.columns := by simp [hcolumns, Csv.LosesMark]
    refine ⟨by rw [hread, Csv.encode_of_no_columns hcolumns], ?_⟩
    rw [load_eq_of_read hread, Csv.decode_encode hmark, Sheet.settled_of_no_columns hcolumns]
    rfl
  · intro hcolumns hmark
    refine ⟨table.sheet.settled.table, ?_, restoredFrom_settled hcolumns,
      Csv.encode_settled table, ?_⟩
    · rw [load_eq_of_read hread, Csv.decode_encode hmark]
      rfl
    · rw [persist_eq, Disk.target_putFile htarget, Csv.encode_settled]
      simp only [Disk.putFile_putFile]

/-- A column name is repeated, a row lacks a field, another has one outside the columns, and
the ids have a gap. -/
theorem load_persist_of_repeated_column :
    let table : Table :=
      { columns := ["\uFEFFa,", "b", "b"]
        rows := [⟨3, .ofList [("b", "\"\r\n")]⟩, ⟨7, .ofList [("\uFEFFa,", ""), ("c", "d")]⟩]
        ascending := by decide }
    ∃ written restored, table.persist (.empty [['h']]) "t.csv" = (.ok (), written) ∧
      Table.load written.read "t.csv" = .ok restored ∧ restored.RestoredFrom table ∧
      restored.persist written "t.csv" = (.ok (), written) := by
  intro table
  have htarget : (Disk.empty [['h']]).target "t.csv" = .ok [['h'], "t.csv".toList] := by decide
  obtain ⟨written, hpersist, -, hload⟩ := load_persist table htarget
  obtain ⟨restored, hload, hfrom, -, hagain⟩ := hload (by decide) (by decide)
  exact ⟨written, restored, hpersist, hload, hfrom, hagain⟩

end FlatQuery.Table
