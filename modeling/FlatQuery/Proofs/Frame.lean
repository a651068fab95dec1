/-
# What a query leaves alone

A query that fails leaves the database as it was, at whatever stage it fails, and so does a
selection.  A change touches the file of its own table and nothing else.  The file is emptied
before it is written, so this depends on two facts: where a table was loaded it can be
written, and no record of a table is refused.
-/
import FlatQuery.Proofs.Execution

namespace FlatQuery.Database

variable {α β : Type} {query : Query} {db : Database}

/-- A database is another one in which at most the file to which a path leads is changed. -/
structure ChangedOnlyAt (path : String) (db after : Database) : Prop where
  config : after.config = db.config
  home : after.disk.home = db.disk.home
  node : ∀ location, after.disk.node? location ≠ db.disk.node? location →
    db.disk.locate path = .ok location

/-- What a query leaves alone: everything when it fails or is a selection, and everything but
the file of its table in any case. -/
structure Leaves (query : Query) (db : Database) (outcome : Except QueryError α × Database) :
    Prop where
  failed : ∀ e, outcome.1 = .error e → outcome.2 = db
  selection : query.kind = .select → outcome.2 = db
  change : ChangedOnlyAt (db.config.path query.table) db outcome.2

lemma leaves_of_unchanged (answer : Except QueryError α) : Leaves query db (answer, db) where
  failed _ _ := rfl
  selection _ := rfl
  change := {
    config := rfl
    home := rfl
    node := fun _ h => (h rfl).elim }

/-- What is shown of an answer has nothing to do with the database. -/
lemma Leaves.map {outcome : Except QueryError α × Database} (h : Leaves query db outcome)
    (f : α → β) : Leaves query db (outcome.map (·.map f) id) where
  failed e he := by
    cases hanswer : outcome.1 with
    | error e' => exact h.failed e' hanswer
    | ok a =>
      rw [Prod.map_fst, hanswer] at he
      cases he
  selection := h.selection
  change := h.change

lemma leaves_execute (db : Database) (query : Query) : Leaves query db (db.execute query) := by
  rcases db.execute_cases query with ⟨e, -, h⟩ | ⟨rows, -, -, h⟩ |
    ⟨table, location, old, -, hkind, hlocate, -, h⟩
  · exact h ▸ leaves_of_unchanged _
  · exact h ▸ leaves_of_unchanged _
  · rw [h]
    exact {
      failed := fun e he => by cases he
      selection := fun hselect => absurd hselect hkind
      change := {
        config := rfl
        home := rfl
        node := fun l hl => by
          -- a file is put only at the location of the table
          have heq : l = location := by
            by_contra hne
            exact hl (Disk.node?_putFile_of_ne hne)
          rw [heq, hlocate] } }

/-- Queries and query lines leave everything alone that they have no right to change.  Where a
table was loaded, every table is written without failure, because its records have as many
fields as its columns. -/
theorem execute_leaves (db : Database) :
    (∀ query, Leaves query db (db.execute query)) ∧
    (∀ line, (∀ e, (db.executeLine line).1 = .error e → (db.executeLine line).2 = db) ∧
      ∀ query, Query.ofLine db.config line = .ok query → Leaves query db (db.executeLine line)) ∧
    (∀ path table, Table.load db.disk.read path = .ok table → ∀ changed : Table,
      (∀ fields ∈ Csv.tableRecords changed, fields.length = changed.columns.length) ∧
      ∃ written, changed.persist db.disk path = (.ok (), written)) := by
  have hline : ∀ line query, Query.ofLine db.config line = .ok query →
      Leaves query db (db.executeLine line) := by
    intro line query hquery
    rw [executeLine, hquery]
    exact (leaves_execute db query).map _
  refine ⟨leaves_execute db, fun line => ⟨fun e he => ?_, hline line⟩, ?_⟩
  · cases hquery : Query.ofLine db.config line with
    | error e => rw [executeLine, hquery]
    | ok query => exact (hline line query hquery).failed e he
  · intro path table hload changed
    obtain ⟨location, -, htarget, -⟩ := Table.exists_target_of_load hload
    refine ⟨fun _ => Csv.length_of_mem_tableRecords, ?_⟩
    rw [Table.persist_eq, htarget]
    exact ⟨_, rfl⟩

end FlatQuery.Database
