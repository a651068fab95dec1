/-
# A disk is a memory

Whatever queries a database is given, one after the other, it answers as the memory of its
disk does, and afterwards its disk holds what is then in the memory.  The step from one query
to the next rests on the fact that a table that was written is read back as its settled sheet.
The only tables for which this fails are those that lose a byte order mark, and no table can
become one of these by a change.
-/
import FlatQuery.Proofs.Execution
import FlatQuery.Proofs.Memory

namespace FlatQuery

variable {disk : Disk} {config : Config} {query : Query} {table : Table}

/-! ## Changes and sheets -/

namespace Table

lemma sheet_insert (table : Table) (values : List String) :
    table.sheet.insert values = (table.insert values).map sheet := by
  have hcolumns : table.sheet.columns = table.columns := rfl
  rw [Sheet.insert, insert, hcolumns]
  split
  · simp [Except.map, sheet, push]
  · rfl

lemma sheet_update (table : Table) (conditions : List Condition)
    (assignments : List Assignment) :
    table.sheet.update conditions assignments =
      (table.update conditions assignments).map sheet := by
  have hcolumns : table.sheet.columns = table.columns := rfl
  rw [Sheet.update, update, hcolumns]
  cases assignments.find? fun a => !table.columns.contains a.column with
  | some a => rfl
  | none =>
    simp only [Except.map, sheet, mapRows, List.map_map]
    rfl

lemma sheet_delete (table : Table) (conditions : List Condition) :
    table.sheet.delete conditions = (table.delete conditions).sheet := by
  rw [Sheet.delete, delete, sheet, filter, sheet, List.filter_map]
  rfl

/-- The rows of a loaded table are numbered from 1, so that nothing is lost in its sheet. -/
lemma table_sheet_of_decode {bytes : Bytes} (h : Csv.decode bytes = .ok table) :
    table.sheet.table = table := by
  obtain ⟨texts, -, rfl⟩ := map_eq_ok_iff.1 h
  cases texts with
  | nil => rfl
  | cons columns rows => exact congrArg Sheet.table (Sheet.sheet_table ⟨columns, _⟩)

end Table

/-! ## Loading from memory -/

namespace Disk

lemma load_memory (disk : Disk) (path : String) :
    disk.memory.load path = Table.load disk.read path := by
  cases hload : Table.load disk.read path with
  | error e => simp [Memory.load, memory, hload, Except.map]
  | ok table =>
    obtain ⟨bytes, -, hdecode⟩ := Table.load_eq_ok_iff.1 hload
    simp [Memory.load, memory, hload, Except.map, Table.table_sheet_of_decode hdecode]

lemma memory_entry_of_load {path : String} (h : Table.load disk.read path = .ok table) :
    disk.memory.entry path = .ok table.sheet := by
  change (Table.load disk.read path).map Table.sheet = _
  rw [h]
  rfl

/-- Tables can be joined while they are loaded, or when all are loaded. -/
lemma foldlM_join (load : String → Except QueryError Table) (path : String → String)
    (joins : List Join) (table : Table) :
    (joins.foldlM (fun left join => do
      let right ← load (path join.table)
      return left.join right join) table) = do
    let others ← joins.mapM fun join => load (path join.table)
    return (joins.zip others).foldl (fun left (join, right) => left.join right join) table := by
  induction joins generalizing table with
  | nil => rfl
  | cons join joins ih =>
    -- a join cannot fail, so only the order of the loads counts
    rw [List.foldlM_cons, List.mapM_cons]
    cases load (path join.table) with
    | error e => rfl
    | ok right =>
      change joins.foldlM _ (table.join right join) = _
      rw [ih]
      cases joins.mapM fun join => load (path join.table) with
      | error e => rfl
      | ok others => rfl

lemma joined_memory (disk : Disk) (config : Config) (query : Query) :
    disk.memory.joined config query = query.joined config disk.read := by
  simp only [Memory.joined, Query.joined, load_memory, foldlM_join]

/-- A memory answers a query from the tables that can be read, as a database does. -/
lemma execute_memory (disk : Disk) (config : Config) (query : Query) :
    disk.memory.execute config query =
      match query.answer config disk.read with
      | .error e => (.error e, disk.memory)
      | .ok (.rows rows) => (.ok rows, disk.memory)
      | .ok (.change table) =>
        (.ok [], disk.memory.store (config.path query.table) table.sheet.settled) := by
  rw [Memory.execute, joined_memory, Query.answer]
  cases query.joined config disk.read with
  | error e => rfl
  | ok table =>
    rw [bind_ok, Query.effect]
    cases query.kind with
    | select => rfl
    | insert =>
      simp only [Table.sheet_insert]
      cases table.insert (query.values?.getD []) with
      | error e => rfl
      | ok changed => rfl
    | update =>
      simp only [Table.sheet_update]
      cases table.update query.conditions (query.assignments?.getD []) with
      | error e => rfl
      | ok changed => rfl
    | delete =>
      simp only [Table.sheet_delete]
      rfl

/-! ## Writing and memory -/

variable {location : Location} {old : Bytes} {path : String}

/-- A table that is written in place of a file is stored where its path leads, and settled. -/
lemma memory_putFile (hlocate : disk.locate path = .ok location)
    (hold : disk.node? location = some (.file old)) (hmark : ¬Csv.LosesMark table.columns) :
    (disk.putFile location (Csv.encode table)).memory =
      disk.memory.store path table.sheet.settled := by
  have hplace : (disk.putFile location (Csv.encode table)).locate = disk.locate :=
    funext (locate_putFile_of_file hold)
  have hentry : ∀ p, (disk.putFile location (Csv.encode table)).memory.entry p =
      (disk.memory.store path table.sheet.settled).entry p := by
    intro p
    have hread : (disk.putFile location (Csv.encode table)).read p = _ :=
      read_putFile_of_file hold p
    simp only [memory, Memory.store, hlocate]
    split
    · next hp =>
      rw [if_pos hp] at hread
      rw [Table.load_eq_of_read hread, Csv.decode_encode hmark, mapError_ok]
      simp [Except.map]
    · next hp =>
      rw [if_neg hp] at hread
      rw [Table.load, Table.load, hread]
  rw [memory, Memory.store, Memory.mk.injEq]
  exact ⟨hplace, funext hentry⟩

/-! ## Byte order marks -/

/-- The first column of a join is that of the left table, or of the right one where the left
one has no columns. -/
lemma head?_joinColumns (left right : List String) :
    (Table.joinColumns left right).head? = left.head?.or right.head? := by
  induction right generalizing left with
  | nil => simp [Table.joinColumns]
  | cons column right ih =>
    change (Table.joinColumns (if left.contains column then left else left ++ [column])
      right).head? = _
    rw [ih]
    cases left with
    | nil => rfl
    | cons first left => split <;> rfl

/-- None of the tables of a database loses a byte order mark when it is written. -/
def KeepsMarks (disk : Disk) (config : Config) : Prop :=
  ∀ name table, Table.load disk.read (config.path name) = .ok table →
    ¬Csv.LosesMark table.columns

lemma KeepsMarks.foldlM_join (h : disk.KeepsMarks config) {joins : List Join} {left : Table}
    (hleft : ¬Csv.LosesMark left.columns)
    (hjoins : joins.foldlM (fun left join => do
      let right ← Table.load disk.read (config.path join.table)
      return left.join right join) left = .ok table) : ¬Csv.LosesMark table.columns := by
  induction joins generalizing left with
  | nil =>
    obtain ⟨⟩ := hjoins
    exact hleft
  | cons join joins ih =>
    rw [List.foldlM_cons] at hjoins
    obtain ⟨_, hjoin, hjoins⟩ := bind_eq_ok_iff.1 hjoins
    obtain ⟨right, hright, ⟨⟩⟩ := bind_eq_ok_iff.1 hjoin
    refine ih ?_ hjoins
    -- the first column comes from one of the two tables
    rintro ⟨name, hname, hlost⟩
    change name ∈ (Table.joinColumns left.columns right.columns).head? at hname
    rw [head?_joinColumns, Option.mem_def, Option.or_eq_some_iff] at hname
    rcases hname with hname | ⟨-, hname⟩
    · exact hleft ⟨name, hname, hlost⟩
    · exact h _ _ hright ⟨name, hname, hlost⟩

lemma KeepsMarks.joined (h : disk.KeepsMarks config)
    (hjoined : query.joined config disk.read = .ok table) : ¬Csv.LosesMark table.columns := by
  obtain ⟨left, hleft, hjoins⟩ := bind_eq_ok_iff.1 hjoined
  exact h.foldlM_join (h _ _ hleft) hjoins

lemma KeepsMarks.putFile (h : disk.KeepsMarks config)
    (hold : disk.node? location = some (.file old)) (hmark : ¬Csv.LosesMark table.columns) :
    (disk.putFile location (Csv.encode table)).KeepsMarks config := by
  intro name other hload
  obtain ⟨bytes, hread, hdecode⟩ := Table.load_eq_ok_iff.1 hload
  rw [read_putFile_of_file hold] at hread
  split at hread
  · obtain rfl := Except.ok.inj hread
    rw [Csv.decode_encode hmark] at hdecode
    obtain rfl := Except.ok.inj hdecode
    exact hmark
  · exact h name other (Table.load_eq_ok_iff.2 ⟨bytes, hread, hdecode⟩)

/-- The only file on a disk to which one file was added is this one. -/
lemma eq_of_file_addFile_empty {home location : Location} {path : String} {bytes found : Bytes}
    (h : ((empty home).addFile path bytes).node? location = some (.file found)) :
    found = bytes := by
  rcases ite_eq_iff.1 h with ⟨-, hput⟩ | ⟨-, hfolder⟩
  · exact (Node.file.inj (Option.some.inj hput)).symm
  · rcases ite_eq_iff.1 hfolder with ⟨-, ⟨⟩⟩ | ⟨-, hempty⟩
    rcases ite_eq_iff.1 hempty with ⟨-, ⟨⟩⟩ | ⟨-, ⟨⟩⟩

lemma keepsMarks_addFile_empty {home : Location} {path : String} {bytes : Bytes} {table : Table}
    (hdecode : Csv.decode bytes = .ok table) (hmark : ¬Csv.LosesMark table.columns)
    (config : Config) : ((empty home).addFile path bytes).KeepsMarks config := by
  intro name other hload
  obtain ⟨found, hread, hother⟩ := Table.load_eq_ok_iff.1 hload
  obtain ⟨location, -, hfile⟩ := read_eq_ok_iff.1 hread
  rw [eq_of_file_addFile_empty hfile, hdecode] at hother
  obtain rfl := Except.ok.inj hother
  exact hmark

end Disk

lemma decode_short_record :
    Csv.decode (encodeText "a,b\n1\n") = .ok (Csv.tableOf [["a", "b"], ["1"]]) := by
  have hne : ∀ texts ∈ [["a", "b"], ["1"]], texts ≠ [] := by decide
  exact Csv.decode_flatMap_writeRecord hne (by decide)

/-! ## Runs -/

namespace Database

variable {db : Database}

/-- One query is answered as by the memory of the disk, and changes it in the same way. -/
lemma execute_simulates (h : db.disk.KeepsMarks db.config) (query : Query) :
    (db.execute query).map id (·.disk.memory) = db.disk.memory.execute db.config query ∧
      (db.execute query).2.config = db.config ∧
      (db.execute query).2.disk.KeepsMarks db.config := by
  rw [Disk.execute_memory]
  rcases db.execute_cases query with ⟨e, hanswer, hrun⟩ | ⟨rows, hanswer, -, hrun⟩ |
    ⟨changed, location, old, hanswer, -, hlocate, hold, hrun⟩
  · rw [hanswer, hrun]
    exact ⟨rfl, rfl, h⟩
  · rw [hanswer, hrun]
    exact ⟨rfl, rfl, h⟩
  · obtain ⟨table, hjoined, heffect⟩ := Query.answer_eq_ok_iff.1 hanswer
    have hmark : ¬Csv.LosesMark changed.columns := by
      rw [Query.columns_of_effect heffect]
      exact h.joined hjoined
    rw [hanswer, hrun]
    refine ⟨?_, rfl, h.putFile hold hmark⟩
    rw [Prod.map, Disk.memory_putFile hlocate hold hmark]
    rfl

/-- A database answers a list of queries as the memory of its disk does, and after each of them
its disk holds what is then in the memory. -/
theorem runs_execute (h : db.disk.KeepsMarks db.config) (queries : List Query) :
    (runs execute db queries).map (·.map id (·.disk.memory)) =
      runs (Memory.execute db.config) db.disk.memory queries := by
  -- the database changes from query to query, and keeps its byte order marks
  induction queries generalizing db with
  | nil => rfl
  | cons query queries ih =>
    obtain ⟨hstep, hconfig, hkeeps⟩ := execute_simulates h query
    have hmore := ih (hconfig.symm ▸ hkeeps)
    rw [hconfig] at hmore
    rw [runs, runs, List.map_cons, hmore, ← hstep]
    rfl

/-- A row is inserted into a file with a record that is too short, and then changed. -/
theorem runs_execute_of_short_record :
    let db : Database := ⟨{}, (Disk.empty [['h']]).addFile "t.csv" (encodeText "a,b\n1\n")⟩
    let queries : List Query :=
      [{ kind := .insert, table := "t.csv", columns := .only [], values? := some ["x", "y"] },
        { kind := .update, table := "t.csv", conditions := [⟨"b", .equals ""⟩]
          columns := .only [], assignments? := some [⟨"a", "z"⟩] },
        { kind := .select, table := "t.csv" }]
    (runs execute db queries).map (·.map id (·.disk.memory)) =
      runs (Memory.execute db.config) db.disk.memory queries := by
  intro db queries
  have hkeeps : db.disk.KeepsMarks db.config :=
    Disk.keepsMarks_addFile_empty decode_short_record (by decide) _
  exact runs_execute hkeeps queries

/-- The query that inserts values. -/
def insertion (table : String) (values : List String) : Query :=
  { kind := .insert, table, columns := .only [], values? := some values }

/-- The sheet with the new row is not stored as it is unless it is settled. -/
lemma memory_insertion_ne_store (h : db.disk.KeepsMarks db.config) {name : String}
    {values : List String} {sheet inserted : Sheet}
    (hentry : db.disk.memory.entry (db.config.path name) = .ok sheet)
    (hinsert : sheet.insert values = .ok inserted) (hne : inserted.settled ≠ inserted) :
    (db.execute (insertion name values)).2.disk.memory ≠
      db.disk.memory.store (db.config.path name) inserted := by
  obtain ⟨hstep, -⟩ := execute_simulates h (insertion name values)
  have hmemory : (db.execute (insertion name values)).2.disk.memory =
      db.disk.memory.store (db.config.path name) inserted.settled := by
    have hjoined : db.disk.memory.joined db.config (insertion name values) = .ok sheet.table := by
      rw [Memory.joined, Memory.load, insertion, hentry]
      rfl
    have hrun := congrArg Prod.snd hstep
    rw [Memory.execute, hjoined] at hrun
    simp only [insertion, Sheet.sheet_table] at hrun
    rw [Option.getD_some, hinsert] at hrun
    exact hrun
  intro hstored
  rw [hmemory] at hstored
  have hsame := congrArg (fun memory => memory.entry (db.config.path name)) hstored
  simp only [Memory.store, if_pos] at hsame
  exact hne (Except.ok.inj hsame)

/-- What is kept after an insertion is not the sheet with the new row as such: a short row gets
a text for each column, and without columns there is no row. -/
theorem insertion_is_settled :
    let short : Database := ⟨{}, (Disk.empty [['h']]).addFile "t.csv" (encodeText "a,b\n1\n")⟩
    let blank : Database := ⟨{}, (Disk.empty [['h']]).addFile "t.csv" []⟩
    let path := ({} : Config).path "t.csv"
    (short.disk.memory.entry path = .ok ⟨["a", "b"], [fieldsOf ["a", "b"] ["1"]]⟩ ∧
      (short.execute (insertion "t.csv" ["x", "y"])).2.disk.memory ≠ short.disk.memory.store path
        ⟨["a", "b"], [fieldsOf ["a", "b"] ["1"], fieldsOf ["a", "b"] ["x", "y"]]⟩) ∧
    (blank.disk.memory.entry path = .ok ⟨[], []⟩ ∧
      (blank.execute (insertion "t.csv" [])).2.disk.memory ≠
        blank.disk.memory.store path ⟨[], [fieldsOf [] []]⟩) := by
  intro short blank path
  have hblank : Csv.decode [] = .ok (Csv.tableOf []) := by
    rw [Csv.decode, Csv.records, Csv.recordsFrom]
    rfl
  have hshortEntry : short.disk.memory.entry path =
      .ok ⟨["a", "b"], [fieldsOf ["a", "b"] ["1"]]⟩ :=
    Disk.memory_entry_of_load (Table.load_eq_ok_iff.2 ⟨_, by decide, decode_short_record⟩)
  have hblankEntry : blank.disk.memory.entry path = .ok ⟨[], []⟩ :=
    Disk.memory_entry_of_load (Table.load_eq_ok_iff.2 ⟨_, by decide, hblank⟩)
  have hshortKeeps : short.disk.KeepsMarks short.config :=
    Disk.keepsMarks_addFile_empty decode_short_record (by decide) _
  have hblankKeeps : blank.disk.KeepsMarks blank.config :=
    Disk.keepsMarks_addFile_empty hblank (by decide) _
  refine ⟨⟨hshortEntry, ?_⟩, hblankEntry, ?_⟩
  · have hinsert : Sheet.insert ⟨["a", "b"], [fieldsOf ["a", "b"] ["1"]]⟩ ["x", "y"] =
        .ok ⟨["a", "b"], [fieldsOf ["a", "b"] ["1"], fieldsOf ["a", "b"] ["x", "y"]]⟩ :=
      if_pos rfl
    refine memory_insertion_ne_store hshortKeeps hshortEntry hinsert fun hsettled => ?_
    -- the short row has no text in the second column, and the settled one has
    have hrow : settle ["a", "b"] (fieldsOf ["a", "b"] ["1"]) = fieldsOf ["a", "b"] ["1"] :=
      (List.cons.inj (congrArg Sheet.rows hsettled)).1
    have htext := congrArg (fun fields : Fields => fields["b"]?) hrow
    rw [getElem?_settle] at htext
    exact absurd htext (by decide)
  · have hinsert : Sheet.insert ⟨[], []⟩ [] = .ok ⟨[], [fieldsOf [] []]⟩ := if_pos rfl
    refine memory_insertion_ne_store hblankKeeps hblankEntry hinsert fun hsettled => ?_
    cases congrArg Sheet.rows hsettled

end Database

end FlatQuery
