/-
# Drafts of queries

A draft is a query in the making: the parts that the clauses given so far have settled.
Clauses may come in any order.  Some cannot stand beside others, and `Draft.add` refuses such a
clause; whether the parts make up a query is seen at the end, by `Draft.query`.
-/
import FlatQuery.Query.Clause

namespace FlatQuery

/-- The parts of a query that are settled so far. -/
structure Draft where
  kind? : Option Kind := none
  table? : Option String := none
  columns : List String := []
  joins : List Join := []
  conditions : List Condition := []
  order : List SortKey := []
  values? : Option (List String) := none
  assignments? : Option (List Assignment) := none
deriving DecidableEq, Repr

namespace Draft

/-- The draft of nothing. -/
def empty : Draft := {}

/-- Settles the kind of the query, which stays the same from then on. -/
def setKind (draft : Draft) (kind : Kind) : Except SemanticError Draft :=
  if draft.kind?.all (· = kind) then .ok { draft with kind? := some kind }
  else .error .mixedKinds

/-- Settles the table of the query, which is done once. -/
def setTable (draft : Draft) (table : String) : Except SemanticError Draft :=
  if draft.table?.isNone then .ok { draft with table? := some table }
  else .error .secondTable

/-- Settles the values of the inserted row, which is done once and not beside assignments. -/
def setValues (draft : Draft) (values : List String) : Except SemanticError Draft :=
  if draft.values?.isSome then .error .secondValues
  else if draft.assignments?.isSome then .error .valuesAndAssignments
  else .ok { draft with values? := some values }

/-- Settles the assignments of the update, which is done once and not beside values. -/
def setAssignments (draft : Draft) (assignments : List Assignment) :
    Except SemanticError Draft :=
  if draft.assignments?.isSome then .error .secondAssignments
  else if draft.values?.isSome then .error .valuesAndAssignments
  else .ok { draft with assignments? := some assignments }

/-- The draft after an attempt to change it: a refused change leaves it as it was. -/
def attempt (draft : Draft) : Except SemanticError Draft → Draft × Option SemanticError
  | .ok changed => (changed, none)
  | .error e => (draft, some e)

/-- The draft after one more clause, and the reason when the clause is refused.  A clause that
settles both the table and the kind may fail at the kind and leave the table settled. -/
def add (draft : Draft) : Clause → Draft × Option SemanticError
  | .select columns =>
    draft.attempt ((draft.setKind .select).map fun d => { d with columns := d.columns ++ columns })
  | .insert table =>
    match draft.setTable table with
    | .ok named => named.attempt (named.setKind .insert)
    | .error e => (draft, some e)
  | .update table =>
    match draft.setTable table with
    | .ok named => named.attempt (named.setKind .update)
    | .error e => (draft, some e)
  | .delete => draft.attempt (draft.setKind .delete)
  | .source table => draft.attempt (draft.setTable table)
  | .join join => ({ draft with joins := draft.joins ++ [join] }, none)
  | .condition condition =>
    ({ draft with conditions := draft.conditions ++ [condition] }, none)
  | .order key => ({ draft with order := draft.order ++ [key] }, none)
  | .values values => draft.attempt (draft.setValues values)
  | .assignments assignments => draft.attempt (draft.setAssignments assignments)

/-- The draft after a list of clauses, none of which may be refused. -/
def addAll (draft : Draft) : List Clause → Except SemanticError Draft
  | [] => .ok draft
  | clause :: clauses =>
    match draft.add clause with
    | (_, some e) => .error e
    | (changed, none) => changed.addAll clauses

/-- The first rule that the parts of a query of the given kind break. -/
def conflict? (draft : Draft) (kind : Kind) : Option SemanticError :=
  if kind ≠ .select ∧ (draft.order ≠ [] ∨ draft.joins ≠ []) then some .orderOrJoinOutsideSelect
  else
    match kind with
    | .select =>
      if draft.values?.isSome || draft.assignments?.isSome then some .selectWithChanges else none
    | .insert =>
      if draft.values?.isNone then some .insertWithoutValues
      else if draft.conditions ≠ [] then some .insertWithConditions
      else none
    | .update =>
      if draft.assignments?.isNone then some .updateWithoutAssignments
      else if draft.values?.isSome then some .updateWithValues
      else none
    | .delete =>
      if draft.values?.isSome || draft.assignments?.isSome then some .deleteWithChanges else none

/-- The columns selected: a star among them stands for every column. -/
def selection (draft : Draft) : Selection :=
  if draft.columns.contains "*" then .all else .only draft.columns

/-- The query that the parts make up. -/
def query (draft : Draft) : Except SemanticError Query :=
  match draft.table?, draft.kind? with
  | none, _ => .error .noTable
  | some _, none => .error .noKind
  | some table, some kind =>
    match draft.conflict? kind with
    | some e => .error e
    | none => .ok {
        kind, table
        columns := draft.selection
        joins := draft.joins
        conditions := draft.conditions
        order := draft.order
        values? := draft.values?
        assignments? := draft.assignments? }

end Draft

end FlatQuery
