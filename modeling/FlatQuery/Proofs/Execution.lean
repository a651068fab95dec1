/-
# What a query can do

The answer to a query is computed from the tables that can be read, and then at most one file
is written.  This file says all that can come of it (`Database.execute_cases`): the query fails
and nothing is written, or it is a selection and nothing is written, or it is a change and the
file that was read for its table is replaced.  In the last case nothing can fail any more.
-/
import FlatQuery.Proofs.Persistence
import FlatQuery.Proofs.Table.Change

namespace FlatQuery

variable {query : Query} {config : Config} {read : Reader} {path : String} {table : Table}

/-! ## Loading -/

lemma Table.load_eq_ok_iff :
    Table.load read path = .ok table ↔
      ∃ bytes, read path = .ok bytes ∧ Csv.decode bytes = .ok table := by
  cases hread : read path with
  | error e => simp [Table.load, hread]
  | ok bytes => simp [Table.load_eq_of_read hread, mapError_eq_ok_iff]

/-- Where a table was loaded there is a file, and it can be written. -/
lemma Table.exists_target_of_load {disk : Disk} (h : Table.load disk.read path = .ok table) :
    ∃ location bytes, disk.target path = .ok location ∧ disk.locate path = .ok location ∧
      disk.node? location = some (.file bytes) ∧ Csv.decode bytes = .ok table := by
  obtain ⟨bytes, hread, hdecode⟩ := Table.load_eq_ok_iff.1 h
  obtain ⟨location, hlocate, hfile⟩ := Disk.read_eq_ok_iff.1 hread
  exact ⟨location, bytes, Disk.target_of_locate hlocate hfile, hlocate, hfile, hdecode⟩

namespace Query

lemma answer_eq_ok_iff {effect : Effect} :
    query.answer config read = .ok effect ↔
      ∃ table, query.joined config read = .ok table ∧ query.effect table = .ok effect := by
  rw [answer, bind_eq_ok_iff]
  exact exists_congr fun table => and_congr_right fun _ => mapError_eq_ok_iff

/-- The table of a query is loaded before its joins. -/
lemma exists_load_of_joined (h : query.joined config read = .ok table) :
    ∃ loaded, Table.load read (config.path query.table) = .ok loaded := by
  obtain ⟨loaded, hload, -⟩ := bind_eq_ok_iff.1 h
  exact ⟨loaded, hload⟩

end Query

namespace Database

variable {db : Database} {location : Location} {old : Bytes}

lemma execute_of_error {e : QueryError} (h : query.answer db.config db.disk.read = .error e) :
    db.execute query = (.error e, db) := by
  unfold execute
  rw [h]

lemma execute_of_rows {rows : List (List String)}
    (h : query.answer db.config db.disk.read = .ok (.rows rows)) :
    db.execute query = (.ok rows, db) := by
  unfold execute
  rw [h]

/-- A changed table is written in place of the file that is there. -/
lemma execute_of_change (h : query.answer db.config db.disk.read = .ok (.change table))
    (hlocate : db.disk.locate (db.config.path query.table) = .ok location)
    (hfile : db.disk.node? location = some (.file old)) :
    db.execute query =
      (.ok [], { db with disk := db.disk.putFile location (Csv.encode table) }) := by
  unfold execute
  rw [h]
  simp only [Table.persist_eq, Disk.target_of_locate hlocate hfile]
  rfl

/-- All that can come of a query. -/
theorem execute_cases (db : Database) (query : Query) :
    (∃ e, query.answer db.config db.disk.read = .error e ∧ db.execute query = (.error e, db)) ∨
    (∃ rows, query.answer db.config db.disk.read = .ok (.rows rows) ∧ query.kind = .select ∧
      db.execute query = (.ok rows, db)) ∨
    (∃ table location old, query.answer db.config db.disk.read = .ok (.change table) ∧
      query.kind ≠ .select ∧ db.disk.locate (db.config.path query.table) = .ok location ∧
      db.disk.node? location = some (.file old) ∧
      db.execute query =
        (.ok [], { db with disk := db.disk.putFile location (Csv.encode table) })) := by
  cases hanswer : query.answer db.config db.disk.read with
  | error e => exact Or.inl ⟨e, rfl, execute_of_error hanswer⟩
  | ok effect =>
    obtain ⟨joined, hjoined, heffect⟩ := Query.answer_eq_ok_iff.1 hanswer
    cases effect with
    | rows rows =>
      have hkind := Query.kind_of_effect_eq_rows heffect
      exact Or.inr (Or.inl ⟨rows, rfl, hkind, execute_of_rows hanswer⟩)
    | change table =>
      have hkind := Query.kind_of_effect_eq_change heffect
      -- the table was loaded, so there is a file in whose place the new one is written
      obtain ⟨loaded, hload⟩ := Query.exists_load_of_joined hjoined
      obtain ⟨location, old, -, hlocate, hold, -⟩ := Table.exists_target_of_load hload
      exact Or.inr (Or.inr ⟨table, location, old, rfl, hkind, hlocate, hold,
        execute_of_change hanswer hlocate hold⟩)

end Database

end FlatQuery
