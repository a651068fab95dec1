/-
# Queries

A query is what a query line asks for: to select rows of a table, perhaps joined with rows of
others, or to insert, update or delete rows of one table.  Every kind of query has the same
parts, and a part that its kind has no use for is ignored when the query is answered.
-/
import FlatQuery.Token
import Std.Data.ExtTreeSet

namespace FlatQuery

/-- What a query does with the rows of its table. -/
inductive Kind where
  | select
  | insert
  | update
  | delete
deriving DecidableEq, Repr

/-- The columns that a query selects. -/
inductive Selection where
  /-- Every column. -/
  | all
  /-- The columns with the given names. -/
  | only (columns : List String)
deriving DecidableEq, Repr

/-- A column is included when every column is, or when it is named. -/
def Selection.includes : Selection → String → Bool
  | all, _ => true
  | only columns, column => columns.contains column

/-- A set of texts, in which neither order nor repetition counts. -/
abbrev TextSet := Std.ExtTreeSet String

/-- What a condition asks of a value. -/
inductive Criterion where
  /-- The value is the given text. -/
  | equals (text : String)
  /-- The value is one of the given texts. -/
  | oneOf (texts : TextSet)
deriving DecidableEq, Repr

/-- A criterion accepts a value that is there and that it asks for. -/
def Criterion.accepts : Criterion → Option String → Bool
  | _, none => false
  | equals text, some value => value == text
  | oneOf texts, some value => texts.contains value

/-- A condition on rows: the value in a column meets a criterion. -/
structure Condition where
  column : String
  criterion : Criterion
deriving DecidableEq, Repr

/-- A join with another table: its rows are attached to the rows that have the same text in
the left column as they have in the right column. -/
structure Join where
  leftColumn : String
  table : String
  rightColumn : String
deriving DecidableEq, Repr

/-- The direction in which a sort key orders rows. -/
inductive Direction where
  | ascending
  | descending
deriving DecidableEq, Repr

/-- A direction is written as `ASC` or `DESC`, in any case. -/
def Direction.ofToken? (token : Token) : Option Direction :=
  match token.word with
  | "ASC" => some ascending
  | "DESC" => some descending
  | _ => none

/-- A sort key: rows are ordered by their values in a column. -/
structure SortKey where
  column : String
  direction : Direction
deriving DecidableEq, Repr

/-- An assignment: a column gets a new value. -/
structure Assignment where
  column : String
  value : String
deriving DecidableEq, Repr

/-- A query, with a part for each kind of clause. -/
structure Query where
  kind : Kind
  /-- The name of the table that is read or changed. -/
  table : String
  columns : Selection := .all
  joins : List Join := []
  /-- The conditions, all of which a row has to meet. -/
  conditions : List Condition := []
  /-- The sort keys, the most important first. -/
  order : List SortKey := []
  /-- The values of an inserted row. -/
  values? : Option (List String) := none
  /-- The assignments of an update. -/
  assignments? : Option (List Assignment) := none
deriving DecidableEq, Repr

end FlatQuery
