/-
# Databases

A database is a configuration together with the disk on which its files are.  A selection only
reads them, and a change writes the file of one table, in place of what was there.
-/
import FlatQuery.Csv.Writing
import FlatQuery.Disk
import FlatQuery.Query.Answer
import FlatQuery.Query.Reading

namespace FlatQuery

/-- A database: where its tables live, and the disk that holds them. -/
structure Database where
  config : Config
  disk : Disk

/-- Writes a table to the file at a path, in place of what was there, and answers with the disk
after it.  The file is emptied before the first record is written, so that a refused record
leaves it with what was written up to there. -/
def Table.persist (table : Table) (disk : Disk) (path : String) : Except QueryError Unit × Disk :=
  let (bytes, refused?) := Csv.writeRecords none (Csv.tableRecords table)
  match disk.write path bytes with
  | .error e => (.error (.storage path (.file e)), disk)
  | .ok written =>
    match refused? with
    | some e => (.error (.storage path (.width e)), written)
    | none => (.ok (), written)

namespace Database

/-- The answer to a query, which is a list of rows for a selection and empty for a change, and
the database after it. -/
def execute (db : Database) (query : Query) : Except QueryError (List (List String)) × Database :=
  match query.answer db.config db.disk.read with
  | .error e => (.error e, db)
  | .ok (.rows rows) => (.ok rows, db)
  | .ok (.change table) =>
    (table.persist db.disk (db.config.path query.table)).map (·.map fun () => [])
      fun disk => { db with disk }

/-- The answer to a query line, and the database after it. -/
def executeLine (db : Database) (line : String) : Except QueryError (List String) × Database :=
  match Query.ofLine db.config line with
  | .error e => (.error e, db)
  | .ok query => (db.execute query).map (·.map (·.map rowLine)) id

end Database

end FlatQuery
