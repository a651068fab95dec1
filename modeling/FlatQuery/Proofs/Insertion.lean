/-
# Rows that are inserted

An insertion needs one value for each column, and then it succeeds (`Database.execute_insertion`).
The table that is loaded afterwards has the rows from before and one more at the end.  Its values
are the given ones, unless columns share a name: then the value of the last of them counts for
all.  A table without columns stays without rows.
-/
import FlatQuery.Proofs.Csv.Header
import FlatQuery.Proofs.Rewrite
import FlatQuery.Proofs.Table.Position

namespace FlatQuery.Database

variable {db : Database} {query : Query} {table : Table}

/-- The values of a table after an insertion are those from before and the values of the new
row, in which a value may count for several columns. -/
lemma exists_stored (table : Table) {values : List String}
    (hlength : values.length = table.columns.length) :
    ∃ changed stored, table.insert values = .ok changed ∧
      changed.rows.map changed.values = table.rows.map table.values ++ [stored] ∧
      PassedOn table.columns [] values stored := by
  refine ⟨_, fieldValues table.columns (fieldsOf table.columns values),
    Table.insert_eq_ok_iff.2 ⟨hlength, rfl⟩, ?_, passedOn_fieldValues fun _ _ => rfl⟩
  rw [Table.push, List.map_append, List.map_singleton]
  rfl

namespace Rewrite

variable (r : db.Rewrite query)

/-- What is loaded again has the values of the changed table. -/
lemma exists_load_after (hcolumns : r.table.columns ≠ [])
    (hmark : ¬Csv.LosesMark r.table.columns) :
    ∃ restored, Table.load r.after.disk.read (db.config.path query.table) = .ok restored ∧
      restored.columns = r.table.columns ∧
      restored.rows.map restored.values = r.changed.rows.map r.changed.values :=
  ⟨_, r.load_after hmark r.locate, r.columns_changed,
    Sheet.map_values_settled (r.columns_changed.symm ▸ hcolumns)⟩

/-- Without columns there were no rows, and there are none. -/
lemma load_after_of_no_columns (hcolumns : r.table.columns = []) :
    r.table.rows = [] ∧ Table.load r.after.disk.read (db.config.path query.table) =
      .ok { columns := [], rows := [] } := by
  have hmark : ¬Csv.LosesMark r.table.columns := by simp [hcolumns, Csv.LosesMark]
  have hchanged : r.changed.sheet.columns = [] := r.columns_changed.trans hcolumns
  refine ⟨Csv.rows_eq_nil_of_decode r.decode hcolumns, ?_⟩
  rw [r.load_after hmark r.locate, Sheet.settled_of_no_columns hchanged]
  rfl

end Rewrite

/-- An insertion is refused when it has not one value for each column, and otherwise it stores
one more row. -/
theorem execute_insertion (hkind : query.kind = .insert) (hjoins : query.joins = [])
    (hload : Table.load db.disk.read (db.config.path query.table) = .ok table) :
    let values := query.values?.getD []
    (values.length ≠ table.columns.length →
      db.execute query =
        (.error (.invalid (.valueCount table.columns.length values.length)), db)) ∧
    (values.length = table.columns.length →
      ∃ after, db.execute query = (.ok [], after) ∧
        (table.columns = [] → table.rows = [] ∧
          Table.load after.disk.read (db.config.path query.table) =
            .ok { columns := [], rows := [] }) ∧
        (table.columns ≠ [] → ¬Csv.LosesMark table.columns →
          ∃ restored stored,
            Table.load after.disk.read (db.config.path query.table) = .ok restored ∧
            restored.columns = table.columns ∧
            restored.rows.map restored.values = table.rows.map table.values ++ [stored] ∧
            PassedOn table.columns [] values stored ∧
            (table.columns.Nodup → stored = values))) := by
  intro values
  have heffect : query.effect table = (table.insert values).map .change := by
    rw [Query.effect, hkind]
  refine ⟨fun hlength => ?_, fun hlength => ?_⟩
  · refine execute_of_effect_eq_error hjoins hload ?_
    rw [heffect, Table.insert, if_neg hlength]
    rfl
  · obtain ⟨changed, stored, hinsert, hvalues, hpassed⟩ := exists_stored table hlength
    rw [hinsert] at heffect
    obtain ⟨r, htable, hchanged⟩ := exists_rewrite hjoins hload heffect
    subst htable hchanged
    refine ⟨r.after, r.execute, r.load_after_of_no_columns, fun hcolumns hmark => ?_⟩
    obtain ⟨restored, hrestored, hsame, hrows⟩ := r.exists_load_after hcolumns hmark
    exact ⟨restored, stored, hrestored, hsame, hrows.trans hvalues, hpassed,
      fun hnodup => hpassed.eq_of_nodup hnodup hlength⟩

/-- Values with special characters are stored behind a record that is too short. -/
theorem execute_insertion_of_special_values :
    let db : Database := ⟨{}, (Disk.empty [['h']]).addFile "t.csv" (encodeText "a,b\n1\n")⟩
    let query : Query :=
      { kind := .insert, table := "t.csv", columns := .only [], values? := some ["x,\r\n", "\""] }
    ∃ after restored, db.execute query = (.ok [], after) ∧
      Table.load after.disk.read (db.config.path query.table) = .ok restored ∧
      restored.columns = ["a", "b"] ∧
      restored.rows.map restored.values = [["1", ""], ["x,\r\n", "\""]] := by
  intro db query
  have hload : Table.load db.disk.read (db.config.path query.table) =
      .ok (.numbered ["a", "b"] [fieldsOf ["a", "b"] ["1"]]) := by decide +kernel
  obtain ⟨after, hrun, -, hstored⟩ := (execute_insertion rfl rfl hload).2 rfl
  obtain ⟨restored, stored, hrestored, hcolumns, hvalues, -, hsame⟩ :=
    hstored (by decide) (by decide)
  refine ⟨after, restored, hrun, hrestored, hcolumns, ?_⟩
  have hold : (Table.numbered ["a", "b"] [fieldsOf ["a", "b"] ["1"]]).rows.map
      (Table.numbered ["a", "b"] [fieldsOf ["a", "b"] ["1"]]).values = [["1", ""]] := by
    decide +kernel
  rw [hvalues, hsame (by decide), hold]
  rfl

/-- Of two values for columns of one name the last one is stored twice, and a table without
columns gets no row.  With joins, which only selections should have, more than one row can come
along. -/
theorem insertion_stores_other_rows :
    let db (text : String) : Database :=
      ⟨{}, (Disk.empty [['h']]).addFile "t.csv" (encodeText text)⟩
    let query (values : List String) : Query :=
      { kind := .insert, table := "t.csv", columns := .only [], values? := some values }
    let joined : Query := { query ["2"] with joins := [⟨"a", "t.csv", "a"⟩] }
    let reloaded (after : Database) : Except QueryError (List (List String)) :=
      (Table.load after.disk.read "t.csv").map fun table => table.rows.map table.values
    (((db "a,a\n").execute (query ["x", "y"])).1 = .ok [] ∧
      reloaded ((db "a,a\n").execute (query ["x", "y"])).2 = .ok [["y", "y"]]) ∧
    (((db "").execute (query [])).1 = .ok [] ∧
      reloaded ((db "").execute (query [])).2 = .ok []) ∧
    ((db "a\n1\n1\n").execute joined).1 = .ok [] ∧
      reloaded ((db "a\n1\n1\n").execute joined).2 =
        .ok [["1"], ["1"], ["1"], ["1"], ["2"]] := by
  decide +kernel

end FlatQuery.Database
