/-
# Explaining queries

A query is explained by showing its parts as JSON.
-/
import FlatQuery.Json
import FlatQuery.Query.Basic

namespace FlatQuery

/-- The name of a kind of query. -/
def Kind.name : Kind → String
  | select => "Select"
  | insert => "Insert"
  | update => "Update"
  | delete => "Delete"

/-- The name of a direction. -/
def Direction.name : Direction → String
  | ascending => "Ascending"
  | descending => "Descending"

/-- A list of texts as JSON. -/
def textsToJson (texts : List String) : Json :=
  .list (texts.map .text)

/-- A selection as JSON. -/
def Selection.toJson : Selection → Json
  | all => .text "All"
  | only columns => .object [("Columns", textsToJson columns)]

/-- A criterion as JSON.  The texts of a set are shown in the order of their code points. -/
def Criterion.toJson : Criterion → Json
  | equals text => .object [("Equals", .text text)]
  | oneOf texts => .object [("OneOf", textsToJson texts.toList)]

/-- A join as JSON. -/
def Join.toJson (join : Join) : Json :=
  .object [
    ("left_column", .text join.leftColumn),
    ("table", .text join.table),
    ("right_column", .text join.rightColumn)]

/-- A condition as JSON. -/
def Condition.toJson (condition : Condition) : Json :=
  .object [("column", .text condition.column), ("criterion", condition.criterion.toJson)]

/-- A sort key as JSON. -/
def SortKey.toJson (key : SortKey) : Json :=
  .object [("column", .text key.column), ("direction", .text key.direction.name)]

/-- An assignment as JSON. -/
def Assignment.toJson (assignment : Assignment) : Json :=
  textsToJson [assignment.column, assignment.value]

/-- A query as JSON. -/
def Query.toJson (query : Query) : Json :=
  .object [
    ("kind", .text query.kind.name),
    ("table", .text query.table),
    ("columns", query.columns.toJson),
    ("joins", .list (query.joins.map Join.toJson)),
    ("predicates", .list (query.conditions.map Condition.toJson)),
    ("order_by", .list (query.order.map SortKey.toJson)),
    ("values", (query.values?.map textsToJson).getD .null),
    ("assignments", (query.assignments?.map (.list <| ·.map Assignment.toJson)).getD .null)]

/-- The explanation of a query. -/
def Query.explanation (query : Query) : String :=
  query.toJson.pretty 0

end FlatQuery
