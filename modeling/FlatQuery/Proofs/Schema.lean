/-
# Columns stay

Whatever queries a database is given, one after the other, the tables keep their columns
(`Database.runs_keep_columns`).  The header is written anew with every change, and for this it
has to be read back as it was.  So it is, unless its first name starts with a byte order mark
and is not quoted: then the mark is lost with the first change.
-/
import FlatQuery.Proofs.Memory
import FlatQuery.Proofs.Rewrite

namespace FlatQuery.Database

variable {db : Database} {query : Query} {table : Table} {path : String}

/-- After one query a table that was there is still there, with its columns. -/
lemma exists_load_execute (hload : Table.load db.disk.read path = .ok table)
    (hmark : ¬Csv.LosesMark table.columns)
    (hjoins : query.kind ≠ .select → query.joins = []) :
    ∃ now, Table.load (db.execute query).2.disk.read path = .ok now ∧
      now.columns = table.columns := by
  rcases db.execute_cases query with ⟨e, -, hrun⟩ | ⟨rows, -, -, hrun⟩ |
    ⟨_, _, _, -, hkind, -, -, hrun⟩
  · exact ⟨table, by rw [hrun, hload], rfl⟩
  · exact ⟨table, by rw [hrun, hload], rfl⟩
  · obtain ⟨r⟩ := nonempty_rewrite hkind (hjoins hkind) (congrArg Prod.fst hrun)
    rw [r.execute]
    by_cases hpath : db.disk.locate path = .ok r.location
    · -- the file of the table is the one that is rewritten
      obtain rfl := r.eq_table_of_load hpath hload
      exact ⟨_, r.load_after hmark hpath, r.columns_changed⟩
    · exact ⟨table, (r.load_after_of_ne hpath).trans hload, rfl⟩

/-- After each of a list of queries a table that was there at the start is still there, with its
columns. -/
theorem runs_keep_columns (hload : Table.load db.disk.read path = .ok table)
    (hmark : ¬Csv.LosesMark table.columns) {queries : List Query}
    (hjoins : ∀ query ∈ queries, query.kind ≠ .select → query.joins = []) :
    ∀ step ∈ runs execute db queries, ∃ now, Table.load step.2.disk.read path = .ok now ∧
      now.columns = table.columns := by
  -- the table may change from query to query, and its columns do not
  refine runs_invariant (fun now : Database => ∃ found,
    Table.load now.disk.read path = .ok found ∧ found.columns = table.columns) ?_
      ⟨table, hload, rfl⟩
  rintro query hquery now ⟨found, hfound, hcolumns⟩
  rw [← hcolumns] at hmark ⊢
  exact exists_load_execute hfound hmark (hjoins query hquery)

/-- A header with a name in quotes, a name with a comma and a name twice stays. -/
theorem runs_keep_columns_of_special_names :
    let db : Database :=
      ⟨{}, (Disk.empty [['h']]).addFile "t.csv" (encodeText "\"a\",\"b,c\",a\n1,2\n")⟩
    let change : Query := { kind := .delete, table := "t.csv", columns := .only [] }
    let queries : List Query :=
      [{ change with kind := .update, assignments? := some [⟨"b,c", "\"\n"⟩] }, change,
        { change with kind := .insert, values? := some ["1", "2", "3"] }]
    ∀ step ∈ runs execute db queries, ∃ now, Table.load step.2.disk.read "t.csv" = .ok now ∧
      now.columns = ["a", "b,c", "a"] := by
  intro db change queries
  have hload : Table.load db.disk.read "t.csv" =
      .ok (.numbered ["a", "b,c", "a"] [fieldsOf ["a", "b,c", "a"] ["1", "2"]]) := by
    decide +kernel
  exact runs_keep_columns hload (by decide) (by simp [queries, change])

/-- A deletion that selects no row still loses the byte order mark of the first name, which was
in quotes and is no longer. -/
theorem deletion_loses_byte_order_mark :
    let db : Database :=
      ⟨{}, (Disk.empty [['h']]).addFile "t.csv" (encodeText "\"\uFEFFa\",b\n1,2\n")⟩
    let query : Query :=
      { kind := .delete, table := "t.csv", conditions := [⟨"b", .equals "9"⟩], columns := .only [] }
    let columns (db : Database) : Except QueryError (List String) :=
      (Table.load db.disk.read "t.csv").map (·.columns)
    columns db = .ok ["\uFEFFa", "b"] ∧ (db.execute query).1 = .ok [] ∧
      columns (db.execute query).2 = .ok ["a", "b"] := by
  decide +kernel

end FlatQuery.Database
