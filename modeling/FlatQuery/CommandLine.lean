/-
# The command line

The program takes the folder of the tables as its one argument, and takes it from the
environment when there is no argument.  A switch lets it explain every query.
-/
import FlatQuery.Session

namespace FlatQuery

/-- What the arguments of the program ask for. -/
inductive Invocation where
  /-- To show the version. -/
  | version
  /-- To show the usage. -/
  | help
  /-- Nothing that can be done: the arguments do not make sense. -/
  | misuse
  /-- To run a session over the tables of a folder, if one is given. -/
  | session (folder? : Option String) (explained : Bool)
deriving DecidableEq, Repr

namespace Invocation

/-- One more argument that is no option names the folder, which is not named twice and not
empty.  The rest of the arguments is read by `next`. -/
def nameFolder (folder? : Option String) (argument : String)
    (next : Option String → Invocation) : Invocation :=
  if folder?.isSome || argument.isEmpty then misuse else next (some argument)

/-- The session that is run when the arguments are used up: a folder from the environment
counts when none was named, and must not be empty. -/
def finish (environment? : Option String) (explained : Bool) : Option String → Invocation
  | some folder => session (some folder) explained
  | none => if environment? = some "" then misuse else session environment? explained

/-- What the arguments behind the end of the options ask for. -/
def ofNames (environment? : Option String) (explained : Bool) (folder? : Option String) :
    List String → Invocation
  | [] => finish environment? explained folder?
  | argument :: rest =>
    nameFolder folder? argument fun named => ofNames environment? explained named rest

/-- What the arguments ask for, when those before them named a folder or asked for
explanations.  The first option for help or the version wins over all that follows it. -/
def ofArguments (environment? : Option String) (explained : Bool) (folder? : Option String) :
    List String → Invocation
  | [] => finish environment? explained folder?
  | argument :: rest =>
    match argument.toList with
    | ['-', '-'] => ofNames environment? explained folder? rest
    | '-' :: '-' :: name =>
      match String.ofList name with
      | "help" => help
      | "version" => version
      | "explain" =>
        if explained then misuse else ofArguments environment? true folder? rest
      | _ => misuse
    | '-' :: 'h' :: _ => help
    | '-' :: 'V' :: _ => version
    | '-' :: _ :: _ => misuse
    | _ =>
      nameFolder folder? argument fun named => ofArguments environment? explained named rest

/-- What the arguments of the program ask for, given the folder that the environment names. -/
def ofCommandLine (environment? : Option String) (arguments : List String) : Invocation :=
  ofArguments environment? false none arguments

/-- The status with which the program ends. -/
def status : Invocation → Nat
  | misuse => 2
  | _ => 0

end Invocation

namespace CommandLine

/-- The name and the version of the program. -/
def versionLine : String := "csvql 0.1.0\n"

/-- The usage of the program. -/
def usage : String :=
  "Interactive SQL-like shell over a directory of CSV tables\n\n" ++
  "Usage: csvql [OPTIONS] [DATA_DIR]\n\n" ++
  "Arguments:\n" ++
  "  [DATA_DIR]  Directory holding the table files [env: CSVQL_DATA_DIR=]\n\n" ++
  "Options:\n" ++
  "      --explain  Print each parsed query as JSON before running it\n" ++
  "  -h, --help     Print help\n" ++
  "  -V, --version  Print version\n"

/-- The line with which a session on the given date begins. -/
def banner (date : String) : String :=
  "csvql version 0.1.0 " ++ date ++ "\n"

/-- The configuration for a folder, if one is given. -/
def config (folder? : Option String) : Config :=
  match folder? with
  | some folder => { folder }
  | none => {}

/-- What the program shows, and the disk after it. -/
def run (date : String) (disk : Disk) (input : Bytes) : Invocation → Reply × Disk
  | .version => ({ out := versionLine }, disk)
  | .help => ({ out := usage }, disk)
  | .misuse => ({ err := usage }, disk)
  | .session folder? explained =>
    (Session.run explained ⟨config folder?, disk⟩ input).map ({ out := banner date } ++ ·)
      Database.disk

end CommandLine

end FlatQuery
