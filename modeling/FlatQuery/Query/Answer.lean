/-
# Answering queries

A query is answered in two steps.  First its tables are loaded and joined, which needs nothing
but a way to read files.  Then the query takes effect on the table so obtained: a selection has
rows for its answer, and a change has a new table.
-/
import FlatQuery.Config
import FlatQuery.Csv.Reading
import FlatQuery.Table.Change
import FlatQuery.Table.Join

namespace FlatQuery

/-- What reading a path answers. -/
abbrev Reader := String → Except FileError Bytes

/-- The table in the file at a path. -/
def Table.load (read : Reader) (path : String) : Except QueryError Table :=
  match read path with
  | .error e => .error (.storage path (.file e))
  | .ok bytes => (Csv.decode bytes).mapError fun e => .storage path (.record e)

/-- What a query has for its answer. -/
inductive Effect where
  /-- The values to show, row by row. -/
  | rows (rows : List (List String))
  /-- The new content of the query's table. -/
  | change (table : Table)
deriving DecidableEq, Repr

namespace Query

/-- What a query does with its table, after the joins. -/
def effect (query : Query) (table : Table) : Except ValidationError Effect :=
  match query.kind with
  | .select => .ok (.rows (table.select query.columns query.conditions query.order))
  | .insert => (table.insert (query.values?.getD [])).map .change
  | .update => (table.update query.conditions (query.assignments?.getD [])).map .change
  | .delete => .ok (.change (table.delete query.conditions))

/-- The table of a query, joined with the tables of its joins one after the other. -/
def joined (query : Query) (config : Config) (read : Reader) : Except QueryError Table := do
  let table ← Table.load read (config.path query.table)
  query.joins.foldlM (fun left join => do
    let right ← Table.load read (config.path join.table)
    return left.join right join) table

/-- The answer to a query, as far as reading files can tell. -/
def answer (query : Query) (config : Config) (read : Reader) : Except QueryError Effect := do
  let table ← query.joined config read
  (query.effect table).mapError QueryError.invalid

/-- The paths of the files that a query reads. -/
def paths (query : Query) (config : Config) : List String :=
  (query.table :: query.joins.map (·.table)).map config.path

end Query

end FlatQuery
