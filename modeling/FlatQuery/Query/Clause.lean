/-
# Clauses

A query is written as a sequence of clauses, each of which begins with a keyword.  A clause is
read from the front of a list of tokens without regard to the clauses around it, and reading
answers with the clause and the tokens after it.  The main statement is that those tokens are
an end of the list (`Clause.read_suffix`), so that one clause after the other can be read until
no token is left.
-/
import FlatQuery.Query.Basic

namespace FlatQuery

/-- One clause of a query. -/
inductive Clause where
  /-- `SELECT a, b` -/
  | select (columns : List String)
  /-- `INSERT INTO t` -/
  | insert (table : String)
  /-- `UPDATE t` -/
  | update (table : String)
  /-- `DELETE` -/
  | delete
  /-- `FROM t` -/
  | source (table : String)
  /-- `JOIN t ON a = b` -/
  | join (join : Join)
  /-- `WHERE a = v` or `WHERE a IN ( v, w)`, where `AND` may stand for `WHERE` -/
  | condition (condition : Condition)
  /-- `ORDER BY a DESC` -/
  | order (key : SortKey)
  /-- `VALUES ( v, w)` -/
  | values (values : List String)
  /-- `SET a = v, b = w` -/
  | assignments (assignments : List Assignment)
deriving DecidableEq, Repr

/-- Something that was read from the front of a list of tokens, and the tokens after it. -/
abbrev WithRest (α : Type) := α × List Token

namespace Clause

/-- The clause with every table named by `f` of its name. -/
def mapTable (f : String → String) : Clause → Clause
  | insert table => insert (f table)
  | update table => update (f table)
  | source table => source (f table)
  | join j => join { j with table := f j.table }
  | clause => clause

/-! ## Lists

A list spreads over tokens: every token but the last ends with a comma, and each holds one or
more items. -/

/-- Reads the columns after `SELECT`: the list ends with the first token without a comma at
its end. -/
def readColumns : List Token → Except SyntaxError (WithRest (List String))
  | [] => .error (.endOfInput .selection)
  | token :: rest =>
    match stripLast? ',' token with
    | none => return (← token.itemTexts false, rest)
    | some head => do
      let texts ← Token.itemTexts false head
      let (more, rest) ← readColumns rest
      return (texts ++ more, rest)

/-- Reads the values after an opening parenthesis: the list ends with the token that ends with
a closing one.  Only a list that is closed by its first token may be empty. -/
def readValues (atStart : Bool) : List Token → Except SyntaxError (WithRest (List String))
  | [] => .error (.endOfInput .values)
  | token :: rest =>
    match stripLast? ')' token, stripLast? ',' token with
    | some head, _ => return (← Token.itemTexts atStart head, rest)
    | none, some head => do
      let texts ← Token.itemTexts false head
      let (more, rest) ← readValues false rest
      return (texts ++ more, rest)
    | none, none => .error (.malformed .values)

/-- Reads a list of values in parentheses, as part of the given construct. -/
def readParenthesized (construct : Construct) :
    List Token → Except SyntaxError (WithRest (List String))
  | ['('] :: rest => readValues true rest
  | _ => .error (.malformed construct)

/-! ## Assignments -/

/-- The assignment of which the column and the value stand in tokens of their own. -/
def spacedAssignment (column value : Token) : Except SyntaxError Assignment := do
  match ← value.items with
  | [item] => return ⟨column.unquote, item.unquote⟩
  | _ => .error (.malformed .assignmentShape)

/-- The assignment that is written in one item, with its first `=` between the two sides. -/
def packedAssignment (item : Token) : Except SyntaxError Assignment :=
  let column : Token := item.takeWhile (· != '=')
  let value : Token := (item.dropWhile (· != '=')).drop 1
  if column.isEmpty || value.isEmpty then .error (.malformed .assignmentShape)
  else .ok ⟨column.unquote, value.unquote⟩

/-- Reads the assignments after `SET`.  Each is written either in three tokens, the second of
them `=`, or packed into a token together with others; a comma at the end of a token that ends
an assignment announces another one. -/
def readAssignments : List Token → Except SyntaxError (WithRest (List Assignment))
  | [] => .error (.endOfInput .assignment)
  | [_, ['=']] => .error (.endOfInput .assignedValue)
  | column :: ['='] :: value :: rest => do
    let first ← spacedAssignment column value.dropComma.1
    if value.dropComma.2 then
      let (more, rest) ← readAssignments rest
      return (first :: more, rest)
    else return ([first], rest)
  | token :: rest => do
    let assignments ← (← token.dropComma.1.items).mapM packedAssignment
    if token.dropComma.2 then
      let (more, rest) ← readAssignments rest
      return (assignments ++ more, rest)
    else return (assignments, rest)

/-! ## The other clauses -/

/-- Reads the name of a table after the given words. -/
def readTable (words : String) : List Token → Except SyntaxError (WithRest String)
  | [] => .error (.endOfInput (.table words))
  | name :: rest => .ok (name.unquote, rest)

/-- Reads `INTO` and the name of a table. -/
def readInsert : List Token → Except SyntaxError (WithRest String)
  | [] => .error (.endOfInput .into)
  | into :: rest =>
    if into.word = "INTO" then readTable "INSERT INTO" rest else .error (.malformed .into)

/-- Reads what stands after `JOIN`. -/
def readJoin : List Token → Except SyntaxError (WithRest Join)
  | table :: on :: left :: ['='] :: right :: rest =>
    if on.word = "ON" then .ok (⟨left.unquote, table.unquote, right.unquote⟩, rest)
    else .error (.malformed .join)
  | _ => .error (.malformed .join)

/-- Reads what stands after `WHERE`. -/
def readCondition : List Token → Except SyntaxError (WithRest Condition)
  | column :: operator :: rest =>
    match operator.word with
    | "=" =>
      match rest with
      | [] => .error (.endOfInput .condition)
      | value :: rest => .ok (⟨column.unquote, .equals value.unquote⟩, rest)
    | "IN" => do
      let (texts, rest) ← readParenthesized .condition rest
      return (⟨column.unquote, .oneOf (.ofList texts)⟩, rest)
    | word => .error (.unknownOperator word)
  | _ => .error (.endOfInput .condition)

/-- Reads what stands after `ORDER`.  The token after the column is a direction or begins the
next clause. -/
def readOrder : List Token → Except SyntaxError (WithRest SortKey)
  | [] => .error (.malformed .order)
  | second :: rest =>
    if second.word = "BY" then
      match rest with
      | [] => .error (.endOfInput .order)
      | [column] => .ok (⟨column.unquote, .ascending⟩, [])
      | column :: next :: rest =>
        match Direction.ofToken? next.bare with
        | some direction => .ok (⟨column.unquote, direction⟩, rest)
        | none => .ok (⟨column.unquote, .ascending⟩, next :: rest)
    else .error (.malformed .order)

/-- Reads the clause that begins with the given keyword from the tokens after it. -/
def read (keyword : Token) (rest : List Token) : Except SyntaxError (WithRest Clause) :=
  match keyword.word with
  | "SELECT" => return (← readColumns rest).map select id
  | "INSERT" => return (← readInsert rest).map insert id
  | "UPDATE" => return (← readTable "UPDATE" rest).map update id
  | "DELETE" => return (delete, rest)
  | "FROM" => return (← readTable "FROM" rest).map source id
  | "JOIN" => return (← readJoin rest).map join id
  | "WHERE" | "AND" => return (← readCondition rest).map condition id
  | "ORDER" => return (← readOrder rest).map order id
  | "VALUES" => return (← readParenthesized .values rest).map values id
  | "SET" => return (← readAssignments rest).map assignments id
  | word => .error (.unknownKeyword word)

/-! ## What reading leaves over -/

theorem readColumns_suffix {tokens rest : List Token} {texts : List String}
    (h : readColumns tokens = .ok (texts, rest)) : rest <:+ tokens := by
  fun_induction readColumns tokens generalizing texts with
  | case1 => simp at h
  | case2 token tail hc =>
    obtain ⟨_, _, h⟩ := bind_eq_ok_iff.1 h
    cases h
    exact List.suffix_cons ..
  | case3 token tail head hc ih =>
    obtain ⟨_, _, h⟩ := bind_eq_ok_iff.1 h
    obtain ⟨⟨more, rest'⟩, hm, h⟩ := bind_eq_ok_iff.1 h
    cases h
    exact (ih hm).trans (List.suffix_cons ..)

theorem readValues_suffix {atStart : Bool} {tokens rest : List Token} {texts : List String}
    (h : readValues atStart tokens = .ok (texts, rest)) : rest <:+ tokens := by
  fun_induction readValues atStart tokens generalizing texts with
  | case1 => simp at h
  | case2 _ token tail head hc =>
    obtain ⟨_, _, h⟩ := bind_eq_ok_iff.1 h
    cases h
    exact List.suffix_cons ..
  | case3 _ token tail head _ hc ih =>
    obtain ⟨_, _, h⟩ := bind_eq_ok_iff.1 h
    obtain ⟨⟨more, rest'⟩, hm, h⟩ := bind_eq_ok_iff.1 h
    cases h
    exact (ih hm).trans (List.suffix_cons ..)
  | case4 => simp at h

theorem readParenthesized_suffix {construct : Construct} {tokens rest : List Token}
    {texts : List String} (h : readParenthesized construct tokens = .ok (texts, rest)) :
    rest <:+ tokens := by
  unfold readParenthesized at h
  split at h
  · exact (readValues_suffix h).trans (List.suffix_cons ..)
  · cases h

theorem readAssignments_suffix {tokens rest : List Token} {assignments : List Assignment}
    (h : readAssignments tokens = .ok (assignments, rest)) : rest <:+ tokens := by
  fun_induction readAssignments tokens generalizing assignments with
  | case1 => cases h
  | case2 => cases h
  | case3 column value tail ih =>
    obtain ⟨_, _, h⟩ := bind_eq_ok_iff.1 h
    have step : tail <:+ column :: ['='] :: value :: tail := ⟨[column, ['='], value], rfl⟩
    split at h
    · obtain ⟨⟨more, rest'⟩, hm, h⟩ := bind_eq_ok_iff.1 h
      cases h
      exact (ih hm).trans step
    · cases h
      exact step
  | case4 token tail _ _ ih =>
    obtain ⟨_, _, h⟩ := bind_eq_ok_iff.1 h
    obtain ⟨_, _, h⟩ := bind_eq_ok_iff.1 h
    split at h
    · obtain ⟨⟨more, rest'⟩, hm, h⟩ := bind_eq_ok_iff.1 h
      cases h
      exact (ih hm).trans (List.suffix_cons ..)
    · cases h
      exact List.suffix_cons ..

theorem readTable_suffix {words : String} {tokens rest : List Token} {table : String}
    (h : readTable words tokens = .ok (table, rest)) : rest <:+ tokens := by
  unfold readTable at h
  split at h <;> cases h
  exact List.suffix_cons ..

theorem readInsert_suffix {tokens rest : List Token} {table : String}
    (h : readInsert tokens = .ok (table, rest)) : rest <:+ tokens := by
  unfold readInsert at h
  split at h
  · cases h
  · split at h
    · exact (readTable_suffix h).trans (List.suffix_cons ..)
    · cases h

theorem readJoin_suffix {tokens rest : List Token} {join : Join}
    (h : readJoin tokens = .ok (join, rest)) : rest <:+ tokens := by
  unfold readJoin at h
  split at h
  · next table on left right tail =>
    split at h <;> cases h
    exact ⟨[table, on, left, ['='], right], rfl⟩
  · cases h

theorem readCondition_suffix {tokens rest : List Token} {condition : Condition}
    (h : readCondition tokens = .ok (condition, rest)) : rest <:+ tokens := by
  unfold readCondition at h
  split at h
  · next column operator tail =>
    have step : tail <:+ column :: operator :: tail := ⟨[column, operator], rfl⟩
    split at h
    · split at h <;> cases h
      exact (List.suffix_cons ..).trans step
    · obtain ⟨⟨texts, rest'⟩, hm, h⟩ := bind_eq_ok_iff.1 h
      cases h
      exact (readParenthesized_suffix hm).trans step
    · cases h
  · cases h

theorem readOrder_suffix {tokens rest : List Token} {key : SortKey}
    (h : readOrder tokens = .ok (key, rest)) : rest <:+ tokens := by
  unfold readOrder at h
  split at h
  · cases h
  · next second tail =>
    split at h
    · split at h
      · cases h
      · cases h
        exact List.nil_suffix
      · next column next tail =>
        split at h <;> cases h
        · exact ⟨[second, column, next], rfl⟩
        · exact ⟨[second, column], rfl⟩
    · cases h

/-- What a clause leaves over is an end of the list of tokens. -/
theorem read_suffix {keyword : Token} {tokens rest : List Token} {clause : Clause}
    (h : read keyword tokens = .ok (clause, rest)) : rest <:+ tokens := by
  have lift {α : Type} {x : Except SyntaxError (WithRest α)} {f : α → Clause}
      (hx : ∀ a, x = .ok (a, rest) → rest <:+ tokens)
      (h : (do return (← x).map f id) = Except.ok (clause, rest)) : rest <:+ tokens := by
    obtain ⟨⟨a, rest'⟩, ha, h⟩ := bind_eq_ok_iff.1 h
    cases h
    exact hx a ha
  unfold read at h
  split at h
  · exact lift (fun _ => readColumns_suffix) h
  · exact lift (fun _ => readInsert_suffix) h
  · exact lift (fun _ => readTable_suffix) h
  · cases h
    exact List.suffix_rfl
  · exact lift (fun _ => readTable_suffix) h
  · exact lift (fun _ => readJoin_suffix) h
  · exact lift (fun _ => readCondition_suffix) h
  · exact lift (fun _ => readCondition_suffix) h
  · exact lift (fun _ => readOrder_suffix) h
  · exact lift (fun _ => readParenthesized_suffix) h
  · exact lift (fun _ => readAssignments_suffix) h
  · cases h

/-! ## A list of clauses -/

/-- Reads clauses until the tokens are used up or no clause can be read, and answers with the
clauses read and the reason for stopping early. -/
def readAll : List Token → List Clause × Option SyntaxError
  | [] => ([], none)
  | keyword :: tokens =>
    match _h : read keyword tokens with
    | .error e => ([], some e)
    | .ok (clause, rest) => ((readAll rest).map (clause :: ·) id)
termination_by tokens => tokens.length
decreasing_by
  have := (read_suffix _h).length_le
  simp only [List.length_cons]
  omega

end Clause

end FlatQuery
