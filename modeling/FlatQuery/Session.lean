/-
# Sessions

In a session one line after the other is read and answered, until a line says `quit` or `exit`
or the input ends.  Before each line is read a prompt is shown.  A line that fails is reported,
and the session goes on with the database as it was.
-/
import FlatQuery.Database
import FlatQuery.Query.Explain

namespace FlatQuery

/-- What is shown in answer to some input. -/
structure Reply where
  /-- The text for the output. -/
  out : String := ""
  /-- The text for the reports. -/
  err : String := ""
deriving DecidableEq, Repr

/-- Two replies, one after the other. -/
instance : Append Reply where
  append a b := ⟨a.out ++ b.out, a.err ++ b.err⟩

/-- The input cut after each line feed.  The last line may lack it. -/
def cutLines : Bytes → List Bytes
  | [] => []
  | b :: bytes =>
    if b = Csv.lineFeed then [b] :: cutLines bytes
    else
      match cutLines bytes with
      | [] => [[b]]
      | line :: lines => (b :: line) :: lines

/-- What a line of input asks for. -/
inductive Line where
  /-- Nothing that can be read: the line is no text. -/
  | unreadable (fault : Utf8Fault)
  /-- Nothing: the line is blank. -/
  | blank
  /-- To end the session. -/
  | stop
  /-- To answer a query. -/
  | query (text : String)
deriving DecidableEq, Repr

/-- What a line of input asks for.  Blanks around its text do not count. -/
def Line.ofBytes (bytes : Bytes) : Line :=
  match decodeText? bytes with
  | none => .unreadable (.first 0 bytes)
  | some text =>
    let words : Token := trim text.toList
    if words.isEmpty then .blank
    else if words.word = "QUIT" ∨ words.word = "EXIT" then .stop
    else .query (String.ofList words)

namespace Session

/-- The text shown before a line is read. -/
def prompt : Reply := { out := "csvql> " }

/-- The report of a failure. -/
def report (message : String) : Reply := { err := "Error: " ++ message ++ "\n" }

/-- The reply to a line that is no text. -/
def reportFault (fault : Utf8Fault) : Reply :=
  report ("input is not valid UTF-8: " ++ fault.message)

/-- The reply that shows the answer to a query, a line for each row, or reports why there is
none. -/
def display : Except QueryError (List String) → Reply
  | .ok lines => { out := String.join (lines.map (· ++ "\n")) }
  | .error e => report e.message

/-- The explanation of the query on a line, if it is a query and is to be explained. -/
def explain (explained : Bool) (config : Config) (text : String) : Reply :=
  match explained, Query.ofLine config text with
  | true, .ok query => { err := query.explanation ++ "\n" }
  | _, _ => {}

/-- The reply to a line that does not end the session, and the database after it. -/
def respond (explained : Bool) (db : Database) : Line → Reply × Database
  | .unreadable fault => (reportFault fault, db)
  | .blank => ({}, db)
  | .stop => ({}, db)
  | .query text =>
    (db.executeLine text).map (explain explained db.config text ++ display ·) id

/-- The reply to the lines of a session, and the database after it. -/
def runLines (explained : Bool) (db : Database) : List Bytes → Reply × Database
  | [] => (prompt, db)
  | bytes :: rest =>
    match Line.ofBytes bytes with
    | .stop => (prompt, db)
    | line =>
      let (reply, changed) := respond explained db line
      (runLines explained changed rest).map (prompt ++ reply ++ ·) id

/-- The reply to the input of a session, and the database after it. -/
def run (explained : Bool) (db : Database) (input : Bytes) : Reply × Database :=
  runLines explained db (cutLines input)

end Session

end FlatQuery
