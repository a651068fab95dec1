/-
# What can go wrong with a query

A query fails for one of four reasons: its text is not a query, its clauses do not fit
together, it does not fit the table that it names, or a file cannot be read or written.  Each
reason is described by its cause.  The wording is chosen in the functions called `message`,
and nowhere else.
-/

namespace FlatQuery

/-- The parts of a query's text that a reader can find missing or out of shape. -/
inductive Construct where
  /-- The list of columns after `SELECT`. -/
  | selection
  /-- The word `INTO` after `INSERT`. -/
  | into
  /-- The name of the table after the given words. -/
  | table (words : String)
  /-- A join. -/
  | join
  /-- A condition on rows. -/
  | condition
  /-- A sort key. -/
  | order
  /-- A list of values in parentheses. -/
  | values
  /-- An assignment after `SET`. -/
  | assignment
  /-- The value after the `=` of an assignment. -/
  | assignedValue
  /-- The shape of an assignment. -/
  | assignmentShape
deriving DecidableEq, Repr

/-- What is said about a construct that is missing or out of shape. -/
def Construct.message : Construct → String
  | selection => "Expected column name after SELECT"
  | into => "Must be INSERT INTO"
  | table words => s!"Expected table name after {words}"
  | join => "Invalid join syntax"
  | condition => "Invalid where syntax"
  | order => "Invalid order syntax"
  | values => "Invalid values syntax"
  | assignment => "Expected assignment after SET"
  | assignedValue => "Expected value in SET clause"
  | assignmentShape => "Invalid set syntax"

/-- The reasons why a text is not a list of clauses. -/
inductive SyntaxError where
  /-- The text does not end in a semicolon. -/
  | noTerminator
  /-- A quoted run is left open; the stray text is what no word could take up. -/
  | openQuote (stray : List Char)
  /-- A list has nothing where an item should be. -/
  | missingItem
  /-- An item of the given list is blank. -/
  | blankItem (fragment : List Char)
  /-- No clause begins with this word. -/
  | unknownKeyword (word : String)
  /-- No condition compares with this word. -/
  | unknownOperator (word : String)
  /-- A construct is out of shape. -/
  | malformed (construct : Construct)
  /-- The text ends where a construct should be. -/
  | endOfInput (construct : Construct)
deriving DecidableEq, Repr

/-- The wording of a syntax error. -/
def SyntaxError.message : SyntaxError → String
  | noTerminator => "Query must end with a semicolon"
  | openQuote stray => s!"Unterminated quote near `{String.ofList stray}`"
  | missingItem => "Empty item in list"
  | blankItem fragment => s!"Empty item in list `{String.ofList fragment}`"
  | unknownKeyword word => s!"Unexpected keyword `{word}`"
  | unknownOperator word => s!"Unsupported where operator `{word}`"
  | malformed construct => construct.message
  | endOfInput construct => construct.message ++ ", but reached end of input"

/-- The reasons why clauses do not make up a query. -/
inductive SemanticError where
  | mixedKinds
  | secondTable
  | secondValues
  | secondAssignments
  | valuesAndAssignments
  | noTable
  | noKind
  | orderOrJoinOutsideSelect
  | selectWithChanges
  | insertWithoutValues
  | insertWithConditions
  | updateWithoutAssignments
  | updateWithValues
  | deleteWithChanges
deriving DecidableEq, Repr

/-- The wording of a semantic error. -/
def SemanticError.message : SemanticError → String
  | mixedKinds => "Can't have different query types"
  | secondTable => "Can't have two FROMs"
  | secondValues => "Can't have multiple values"
  | secondAssignments => "Can't have multiple sets"
  | valuesAndAssignments => "Can't have value and set"
  | noTable => "Must have a table"
  | noKind => "Must have a query type"
  | orderOrJoinOutsideSelect => "Order and join can only be used with select"
  | selectWithChanges => "Select can't have values or set"
  | insertWithoutValues => "Insert must have values"
  | insertWithConditions => "Insert can't have where"
  | updateWithoutAssignments => "Update must have set"
  | updateWithValues => "Update can't have values"
  | deleteWithChanges => "Delete can't have values or set"

/-- The reasons why a query does not fit the table that it changes. -/
inductive ValidationError where
  /-- An inserted row has another number of values than the table has columns. -/
  | valueCount (columns values : Nat)
  /-- An assigned column is not a column of the table. -/
  | unknownColumn (column : String)
deriving DecidableEq, Repr

/-- The wording of a validation error. -/
def ValidationError.message : ValidationError → String
  | valueCount columns values =>
    s!"Insert column value mismatch: table has {columns} columns, got {values} values"
  | unknownColumn column => s!"Unknown column '{column}' in SET"

/-- The reasons why a path does not lead to a file that can be read or written. -/
inductive FileError where
  /-- Something on the path does not exist. -/
  | missing
  /-- The path goes on behind a file. -/
  | notFolder
  /-- The path leads to a folder. -/
  | isFolder
  /-- The path contains the character with code 0. -/
  | nulInPath
  /-- The system gives another reason. -/
  | refused (reason : String)
deriving DecidableEq, Repr

/-- The wording of a file error. -/
def FileError.message : FileError → String
  | missing => "No such file or directory (os error 2)"
  | notFolder => "Not a directory (os error 20)"
  | isFolder => "Is a directory (os error 21)"
  | nulInPath => "file name contained an unexpected NUL byte"
  | refused reason => reason

/-- A field of a record whose bytes are no text. -/
structure RecordError where
  /-- The number of records before this one. -/
  record : Nat
  /-- The line, counted from 1, where the reading of the record began. -/
  line : Nat
  /-- The number of bytes of the file before that place. -/
  offset : Nat
  /-- The number of fields before the one at fault. -/
  field : Nat
  /-- The number of bytes at the start of the field that are text. -/
  index : Nat
deriving DecidableEq, Repr

/-- The wording of a record error. -/
def RecordError.message (e : RecordError) : String :=
  s!"CSV parse error: record {e.record} (line {e.line}, field: {e.field}, byte: {e.offset}): " ++
    s!"invalid utf-8: invalid UTF-8 in field {e.field} near byte index {e.index}"

/-- A record that has another number of fields than the records before it. -/
structure WidthError where
  /-- The number of fields of the records before. -/
  expected : Nat
  /-- The number of fields of this record. -/
  found : Nat
deriving DecidableEq, Repr

/-- The wording of a width error. -/
def WidthError.message (e : WidthError) : String :=
  s!"CSV error: found record with {e.found} fields, but the previous record has " ++
    s!"{e.expected} fields"

/-- The reasons why the file of a table cannot be used. -/
inductive StorageError where
  | file (cause : FileError)
  /-- A record cannot be read. -/
  | record (cause : RecordError)
  /-- A record cannot be written. -/
  | width (cause : WidthError)
deriving DecidableEq, Repr

/-- The wording of a storage error. -/
def StorageError.message : StorageError → String
  | file cause => cause.message
  | record cause => cause.message
  | width cause => cause.message

/-- The reasons why a query fails. -/
inductive QueryError where
  /-- The text is not a list of clauses. -/
  | malformed (cause : SyntaxError)
  /-- The clauses do not make up a query. -/
  | inconsistent (cause : SemanticError)
  /-- The query does not fit the table that it changes. -/
  | invalid (cause : ValidationError)
  /-- The file at the given path cannot be used. -/
  | storage (path : String) (cause : StorageError)
deriving DecidableEq, Repr

/-- The wording of a query's failure. -/
def QueryError.message : QueryError → String
  | malformed cause => "Syntax error: " ++ cause.message
  | inconsistent cause => "Semantic error: " ++ cause.message
  | invalid cause => "Validation error: " ++ cause.message
  | storage path cause => s!"I/O error on '{path}': " ++ cause.message

/-- A query failed because something on the path of a table does not exist. -/
def QueryError.isMissing : QueryError → Bool
  | storage _ (.file .missing) => true
  | _ => false

theorem bind_ok {ε α β : Type} (a : α) (f : α → Except ε β) : (Except.ok a >>= f) = f a :=
  rfl

/-- Two steps in a row succeed exactly when each does. -/
theorem bind_eq_ok_iff {ε α β : Type} {x : Except ε α} {f : α → Except ε β} {b : β} :
    (x >>= f) = .ok b ↔ ∃ a, x = .ok a ∧ f a = .ok b := by
  cases x <;> simp [bind, Except.bind]

/-- What is made of a result is there exactly when the result is. -/
theorem map_eq_ok_iff {ε α β : Type} {x : Except ε α} {f : α → β} {b : β} :
    x.map f = .ok b ↔ ∃ a, x = .ok a ∧ f a = b := by
  cases x <;> simp [Except.map]

theorem mapError_ok {ε δ α : Type} (a : α) (f : ε → δ) : (Except.ok a).mapError f = .ok a :=
  rfl

/-- Describing an error in another way changes nothing about success. -/
theorem mapError_eq_ok_iff {ε δ α : Type} {x : Except ε α} {f : ε → δ} {a : α} :
    x.mapError f = .ok a ↔ x = .ok a := by
  cases x with
  | error e =>
    constructor
    · rintro ⟨⟩
    · rintro ⟨⟩
  | ok b => rw [mapError_ok, Except.ok.injEq, Except.ok.injEq]

end FlatQuery
