/-
# The program

The program runs sessions over real files.  What is done here is to read and write them, to
read the input and to show the replies; what a reply is and what a file becomes is decided
elsewhere.
-/
import FlatQuery.CommandLine
import Std.Time

namespace FlatQuery.Program

/-- The reason for which the system refuses a path. -/
def fileError (e : IO.Error) : FileError :=
  match e with
  | .noFileOrDirectory .. => .missing
  | .inappropriateType _ code _ => if code = 21 then .isFolder else .notFolder
  | _ => .refused (toString e)

/-- The result of an action on the file at a path that the system accepts. -/
def attempt {α : Type} (path : String) (action : IO α) : IO (Except FileError α) :=
  match Disk.checkPath path with
  | .error e => return .error e
  | .ok () => do
    match ← action.toBaseIO with
    | .ok a => return .ok a
    | .error e => return .error (fileError e)

/-- The content of the file at a path. -/
def readFile (path : String) : IO (Except FileError Bytes) :=
  attempt path do return (← IO.FS.readBinFile path).data.toList

/-- Writes the content of the file at a path. -/
def writeFile (path : String) (bytes : Bytes) : IO (Except FileError Unit) :=
  attempt path (IO.FS.writeBinFile path bytes.toByteArray)

/-- Answers a query from the files that it reads, and writes the file that it changes. -/
def execute (config : Config) (query : Query) :
    IO (Except QueryError (List (List String))) := do
  let files ← (query.paths config).mapM fun path => return (path, ← readFile path)
  match query.answer config fun path => (files.lookup path).getD (.error .missing) with
  | .error e => return .error e
  | .ok (.rows rows) => return .ok rows
  | .ok (.change table) =>
    let path := config.path query.table
    let (bytes, refused?) := Csv.writeRecords none (Csv.tableRecords table)
    match ← writeFile path bytes, refused? with
    | .error e, _ => return .error (.storage path (.file e))
    | .ok (), some e => return .error (.storage path (.width e))
    | .ok (), none => return .ok []

/-- Shows a reply. -/
def say (reply : Reply) : IO Unit := do
  let output ← IO.getStdout
  output.putStr reply.out
  output.flush
  (← IO.getStderr).putStr reply.err

/-- Reads up to the end of a line, which belongs to it. -/
partial def readLine (input : IO.FS.Stream) (line : ByteArray) : IO ByteArray := do
  let byte ← input.read 1
  if byte.isEmpty then return line
  else if byte.data.contains Csv.lineFeed then return line ++ byte
  else readLine input (line ++ byte)

/-- Answers one line of input after the other. -/
partial def converse (explained : Bool) (config : Config) (input : IO.FS.Stream) : IO Unit := do
  say Session.prompt
  let bytes ← readLine input .empty
  if bytes.isEmpty then return
  match Line.ofBytes bytes.data.toList with
  | .stop => return
  | .blank => return ← converse explained config input
  | .unreadable fault => say (Session.reportFault fault)
  | .query text =>
    say (Session.explain explained config text)
    match Query.ofLine config text with
    | .error e => say (Session.display (.error e))
    | .ok query => say (Session.display ((← execute config query).map (·.map rowLine)))
  converse explained config input

end FlatQuery.Program

open FlatQuery in
/-- Runs the program. -/
def main (arguments : List String) : IO UInt32 := do
  let invocation := Invocation.ofCommandLine (← IO.getEnv "CSVQL_DATA_DIR") arguments
  match invocation with
  | .session folder? explained =>
    Program.say { out := CommandLine.banner (toString (← Std.Time.PlainDate.now)) }
    Program.converse explained (CommandLine.config folder?) (← IO.getStdin)
  | other => Program.say (CommandLine.run "" (.empty []) [] other).1
  return UInt32.ofNat invocation.status
