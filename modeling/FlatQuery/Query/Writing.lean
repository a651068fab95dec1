/-
# Writing queries

A query is written as the clauses that it would be read from, with every name and every value
between quotes.  The kind of quote depends on the text, and a text in which both kinds occur
has no written form that is read back.
-/
import FlatQuery.Query.Basic

namespace FlatQuery

/-- A text between quotes: single ones, unless it contains one. -/
def quote (text : String) : Token :=
  let mark := if text.toList.contains '\'' then '"' else '\''
  mark :: text.toList ++ [mark]

/-- A list over tokens, in which every item but the last has a comma at its end. -/
def listTokens : List Token → List Token
  | [] => []
  | [item] => [item]
  | item :: items => (item ++ [',']) :: listTokens items

/-- A list of values in parentheses. -/
def parenthesized (texts : List String) : List Token :=
  ['('] :: closeList (listTokens (texts.map quote))
where
  /-- The list with a closing parenthesis at the end of its last token. -/
  closeList : List Token → List Token
    | [] => [[')']]
    | [item] => [item ++ [')']]
    | item :: items => item :: closeList items

/-- The tokens of assignments, each of which has three. -/
def assignmentTokens : List Assignment → List Token
  | [] => []
  | [a] => [quote a.column, ['='], quote a.value]
  | a :: rest => quote a.column :: ['='] :: (quote a.value ++ [',']) :: assignmentTokens rest

/-- The tokens of a selection. -/
def Selection.tokens : Selection → List Token
  | all => [['*']]
  | only columns => listTokens (columns.map quote)

/-- The tokens of a join. -/
def Join.tokens (join : Join) : List Token :=
  ["JOIN".toList, quote join.table, "ON".toList, quote join.leftColumn, ['='],
    quote join.rightColumn]

/-- The tokens of a condition. -/
def Condition.tokens (condition : Condition) : List Token :=
  "WHERE".toList :: quote condition.column ::
    match condition.criterion with
    | .equals text => [['='], quote text]
    | .oneOf texts => "IN".toList :: parenthesized texts.toList

/-- The word for a direction. -/
def Direction.token : Direction → Token
  | ascending => "ASC".toList
  | descending => "DESC".toList

/-- The tokens of a sort key. -/
def SortKey.tokens (key : SortKey) : List Token :=
  ["ORDER".toList, "BY".toList, quote key.column, key.direction.token]

namespace Query

/-- The tokens that say what a query does, and with which table. -/
def headTokens (query : Query) : List Token :=
  match query.kind with
  | .select => "SELECT".toList :: query.columns.tokens ++ ["FROM".toList, quote query.table]
  | .insert =>
    ["INSERT".toList, "INTO".toList, quote query.table, "VALUES".toList] ++
      parenthesized (query.values?.getD [])
  | .update =>
    ["UPDATE".toList, quote query.table, "SET".toList] ++
      assignmentTokens (query.assignments?.getD [])
  | .delete => ["DELETE".toList, "FROM".toList, quote query.table]

/-- The tokens of a query. -/
def tokens (query : Query) : List Token :=
  query.headTokens ++ query.joins.flatMap Join.tokens ++
    query.conditions.flatMap Condition.tokens ++ query.order.flatMap SortKey.tokens

/-- The line on which a query is written. -/
def line (query : Query) : String :=
  lineOf query.tokens

end Query

end FlatQuery
