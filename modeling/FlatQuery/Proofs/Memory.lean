/-
# Databases in memory

What a disk holds for the queries of a database is, for each path, the sheet of the table that
is loaded from there or the reason why none is loaded, and besides which paths lead to the
same place.  Such a memory can answer queries by itself.  A change is made to the sheet at a
path, with no file being written, and what the memory keeps is the settled sheet: persistence
writes absent fields as empty texts.
-/
import FlatQuery.Database
import FlatQuery.Proofs.Table.Sheet

namespace FlatQuery

/-! ## Sheets that are changed -/

/-- Fields match when they meet every condition. -/
def fieldsMatch (conditions : List Condition) (fields : Fields) : Bool :=
  conditions.all fun condition => condition.criterion.accepts fields[condition.column]?

namespace Sheet

/-- The sheet with one more row, which has one value for each column. -/
def insert (sheet : Sheet) (values : List String) : Except ValidationError Sheet :=
  if values.length = sheet.columns.length then
    .ok ⟨sheet.columns, sheet.rows ++ [fieldsOf sheet.columns values]⟩
  else .error (.valueCount sheet.columns.length values.length)

/-- The sheet with assignments made in every row that matches, or the first assigned column
that is none of the sheet. -/
def update (sheet : Sheet) (conditions : List Condition) (assignments : List Assignment) :
    Except ValidationError Sheet :=
  match assignments.find? fun a => !sheet.columns.contains a.column with
  | some a => .error (.unknownColumn a.column)
  | none =>
    .ok ⟨sheet.columns, sheet.rows.map fun fields =>
      if fieldsMatch conditions fields then Table.assign assignments fields else fields⟩

/-- The sheet without the rows that match. -/
def delete (sheet : Sheet) (conditions : List Condition) : Sheet :=
  ⟨sheet.columns, sheet.rows.filter fun fields => !fieldsMatch conditions fields⟩

end Sheet

/-! ## Memories -/

/-- Tables in memory. -/
structure Memory where
  /-- Where a path leads. -/
  place : String → Except FileError Location
  /-- The sheet of the table at a path, or the reason why there is none. -/
  entry : String → Except QueryError Sheet

/-- What a disk holds: the sheet of each table that can be loaded. -/
def Disk.memory (disk : Disk) : Memory where
  place := disk.locate
  entry path := (Table.load disk.read path).map Table.sheet

namespace Memory

/-- The memory with a sheet at a path, and at all others that lead to the same place. -/
def store (memory : Memory) (path : String) (sheet : Sheet) : Memory :=
  { memory with
    entry := fun p => if memory.place p = memory.place path then .ok sheet else memory.entry p }

/-- The table at a path. -/
def load (memory : Memory) (path : String) : Except QueryError Table :=
  (memory.entry path).map Sheet.table

/-- The join of the tables that a query names.  If one cannot be loaded, the first such one is
the reason of the failure. -/
def joined (memory : Memory) (config : Config) (query : Query) : Except QueryError Table := do
  let table ← memory.load (config.path query.table)
  let others ← query.joins.mapM fun join => memory.load (config.path join.table)
  return (query.joins.zip others).foldl (fun left (join, right) => left.join right join) table

/-- The answer to a change, which is empty unless the change is refused, and the memory with
the settled sheet. -/
def change (memory : Memory) (path : String) :
    Except ValidationError Sheet → Except QueryError (List (List String)) × Memory
  | .error e => (.error (.invalid e), memory)
  | .ok sheet => (.ok [], memory.store path sheet.settled)

/-- The answer to a query, and the memory after it. -/
def execute (config : Config) (memory : Memory) (query : Query) :
    Except QueryError (List (List String)) × Memory :=
  match memory.joined config query with
  | .error e => (.error e, memory)
  | .ok table =>
    let path := config.path query.table
    match query.kind with
    | .select => (.ok (table.select query.columns query.conditions query.order), memory)
    | .insert => memory.change path (table.sheet.insert (query.values?.getD []))
    | .update =>
      memory.change path (table.sheet.update query.conditions (query.assignments?.getD []))
    | .delete => memory.change path (.ok (table.sheet.delete query.conditions))

end Memory

/-- The answers to a list of queries, each with the state after it. -/
def runs {σ α : Type} (step : σ → Query → α × σ) (state : σ) : List Query → List (α × σ)
  | [] => []
  | query :: queries => step state query :: runs step (step state query).2 queries

/-- What is true at the start, and stays true with each of the queries, is true all the time. -/
lemma runs_invariant {σ α : Type} {step : σ → Query → α × σ} {state : σ} {queries : List Query}
    (invariant : σ → Prop)
    (hstep : ∀ query ∈ queries, ∀ state, invariant state → invariant (step state query).2)
    (hstart : invariant state) : ∀ reached ∈ runs step state queries, invariant reached.2 := by
  induction queries generalizing state with
  | nil => simp [runs]
  | cons query queries ih =>
    obtain ⟨hquery, hqueries⟩ := List.forall_mem_cons.1 hstep
    have hnext := hquery state hstart
    exact List.forall_mem_cons.2 ⟨hnext, ih hqueries hnext⟩

end FlatQuery
