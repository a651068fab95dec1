/-
# Files that are rewritten

An insertion, an update or a deletion is about one table, and has no joins.  Where it succeeds,
the table was loaded from a file, and the file is rewritten: it now holds the changed table, and
all else on the disk is as before (`Database.Rewrite`).
-/
import FlatQuery.Proofs.Execution
import FlatQuery.Proofs.Csv.Table

namespace FlatQuery

variable {query : Query} {db : Database} {path : String}

/-- Without joins the table of a query is the one in its file. -/
lemma Query.joined_of_no_joins (h : query.joins = []) (config : Config) (read : Reader) :
    query.joined config read = Table.load read (config.path query.table) := by
  rw [joined, h]
  exact bind_pure _

namespace Database

/-- A query that does not fit its table is refused, and nothing happens. -/
lemma execute_of_effect_eq_error {table : Table} {e : ValidationError}
    (hjoins : query.joins = [])
    (hload : Table.load db.disk.read (db.config.path query.table) = .ok table)
    (heffect : query.effect table = .error e) : db.execute query = (.error (.invalid e), db) := by
  have hanswer : query.answer db.config db.disk.read = .error (.invalid e) := by
    rw [Query.answer, Query.joined_of_no_joins hjoins, hload, bind_ok, heffect]
    rfl
  exact execute_of_error hanswer

/-- A query that rewrites the file of its table: where the file is, the table that is loaded
from there, and what the query makes of it. -/
structure Rewrite (db : Database) (query : Query) where
  location : Location
  /-- The content of the file before. -/
  old : Bytes
  table : Table
  changed : Table
  no_joins : query.joins = []
  locate : db.disk.locate (db.config.path query.table) = .ok location
  file : db.disk.node? location = some (.file old)
  decode : Csv.decode old = .ok table
  effect : query.effect table = .ok (.change changed)

/-- A query without joins rewrites the file of a table that it changes. -/
lemma exists_rewrite {table changed : Table} (hjoins : query.joins = [])
    (hload : Table.load db.disk.read (db.config.path query.table) = .ok table)
    (heffect : query.effect table = .ok (.change changed)) :
    ∃ r : db.Rewrite query, r.table = table ∧ r.changed = changed := by
  obtain ⟨location, old, -, hlocate, hfile, hdecode⟩ := Table.exists_target_of_load hload
  exact ⟨⟨location, old, table, changed, hjoins, hlocate, hfile, hdecode, heffect⟩, rfl, rfl⟩

/-- A change without joins that succeeds rewrites a file. -/
theorem nonempty_rewrite {rows : List (List String)} (hkind : query.kind ≠ .select)
    (hjoins : query.joins = []) (h : (db.execute query).1 = .ok rows) :
    Nonempty (db.Rewrite query) := by
  rcases db.execute_cases query with ⟨e, -, hrun⟩ | ⟨_, -, hselect, -⟩ |
    ⟨changed, _, _, hanswer, -⟩
  · rw [hrun] at h
    cases h
  · exact absurd hselect hkind
  · obtain ⟨table, hload, heffect⟩ := Query.answer_eq_ok_iff.1 hanswer
    rw [Query.joined_of_no_joins hjoins] at hload
    obtain ⟨r, -⟩ := exists_rewrite hjoins hload heffect
    exact ⟨r⟩

namespace Rewrite

variable (r : db.Rewrite query)

/-- The database with the file rewritten. -/
def after : Database :=
  { db with disk := db.disk.putFile r.location (Csv.encode r.changed) }

lemma read : db.disk.read (db.config.path query.table) = .ok r.old :=
  Disk.read_eq_ok_iff.2 ⟨r.location, r.locate, r.file⟩

lemma load : Table.load db.disk.read (db.config.path query.table) = .ok r.table :=
  Table.load_eq_ok_iff.2 ⟨r.old, r.read, r.decode⟩

/-- By all paths that lead to the file the same table is loaded. -/
lemma eq_table_of_load {table : Table} (hpath : db.disk.locate path = .ok r.location)
    (hload : Table.load db.disk.read path = .ok table) : table = r.table := by
  have hread : db.disk.read path = .ok r.old :=
    Disk.read_eq_ok_iff.2 ⟨r.location, hpath, r.file⟩
  obtain ⟨bytes, hbytes, hdecode⟩ := Table.load_eq_ok_iff.1 hload
  obtain rfl : r.old = bytes := Except.ok.inj (hread.symm.trans hbytes)
  exact Except.ok.inj (hdecode.symm.trans r.decode)

lemma execute : db.execute query = (.ok [], r.after) := by
  have hanswer : query.answer db.config db.disk.read = .ok (.change r.changed) := by
    rw [Query.answer_eq_ok_iff, Query.joined_of_no_joins r.no_joins]
    exact ⟨r.table, r.load, r.effect⟩
  exact execute_of_change hanswer r.locate r.file

lemma columns_changed : r.changed.columns = r.table.columns :=
  Query.columns_of_effect r.effect

lemma node?_after : r.after.disk.node? r.location = some (.file (Csv.encode r.changed)) :=
  Disk.node?_putFile_self (by simp [r.file])

/-- A path that leads to the file reads what was written, and no other path does. -/
lemma read_after (path : String) :
    r.after.disk.read path =
      if db.disk.locate path = .ok r.location then .ok (Csv.encode r.changed)
      else db.disk.read path :=
  Disk.read_putFile_of_file r.file path

/-- The changed table is loaded from its file, with its rows settled. -/
lemma load_after (hmark : ¬Csv.LosesMark r.table.columns)
    (hpath : db.disk.locate path = .ok r.location) :
    Table.load r.after.disk.read path = .ok r.changed.sheet.settled.table := by
  refine Table.load_eq_ok_iff.2 ⟨Csv.encode r.changed, ?_, ?_⟩
  · rw [r.read_after, if_pos hpath]
  · exact Csv.decode_encode (r.columns_changed ▸ hmark)

lemma load_after_of_ne (hpath : db.disk.locate path ≠ .ok r.location) :
    Table.load r.after.disk.read path = Table.load db.disk.read path := by
  rw [Table.load, r.read_after, if_neg hpath]
  rfl

end Rewrite

end Database

end FlatQuery
