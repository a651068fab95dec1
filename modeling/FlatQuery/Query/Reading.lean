/-
# Reading queries

A query is read from a line in three steps: the line is cut into tokens, the tokens into
clauses, and the clauses are put together.  Where a clause cannot be read, the clauses before
it are put together nevertheless, because a conflict among them is reported first.
-/
import FlatQuery.Config
import FlatQuery.Query.Draft

namespace FlatQuery

/-- The query that a list of tokens makes up.  Tables are named in full. -/
def Query.ofTokens (config : Config) (tokens : List Token) : Except QueryError Query := do
  let (clauses, stopped?) := Clause.readAll tokens
  let draft ← (Draft.empty.addAll (clauses.map (·.mapTable config.fullName))).mapError
    QueryError.inconsistent
  match stopped? with
  | some e => .error (.malformed e)
  | none => draft.query.mapError QueryError.inconsistent

/-- The query that is written on a line. -/
def Query.ofLine (config : Config) (line : String) : Except QueryError Query := do
  let tokens ← (tokenize line).mapError QueryError.malformed
  Query.ofTokens config tokens

end FlatQuery
