import QueryTerms.Backtrace
import QueryTerms.Command.Arguments
import QueryTerms.Config.Reader
import QueryTerms.FileTree
import QueryTerms.Query

/-! Running a command. The files are given by a function that reads them, and the result is what goes to the
output streams together with the threshold of the log afterwards. -/

namespace QueryTerms

/-- Why a configuration cannot be used. -/
inductive ConfigError where
  | read (cause : FileError)
  | parse (fault : ReadFault)
  | invalid (fault : ConfigFault)

namespace ConfigError

def code : ConfigError → String
  | .read _ => "REQL_CONFIG_READ"
  | .parse _ => "REQL_CONFIG_PARSE"
  | .invalid _ => "REQL_CONFIG_INVALID"

def message : ConfigError → String
  | .read cause => "Failed to read config: " ++ cause.message
  | .parse fault => "Invalid config JSON: " ++ fault.message
  | .invalid fault => fault.message

end ConfigError

namespace Config

/-- Reads and checks a configuration text. -/
def ofText (text : String) : Except ConfigError Config := do
  let config ← (parse text).mapError .parse
  let _ ← config.validate.mapError .invalid
  return config

/-- What the log says about a configuration that was read from a file. -/
def loadedRecord (path : String) (config : Config) : LogRecord :=
  .ofEvent .configLoaded [("path", path), ("default_database", config.database)]

/-- Reads and checks a configuration file. -/
def load (read : String → Except FileError String) (path : String) : Except ConfigError Config := do
  let text ← (read path).mapError .read
  ofText text

end Config

/-- Why a command fails. -/
inductive CommandError where
  | config (e : ConfigError)
  | emptyTableName
  | json (fault : ReadFault)
  | wire (e : PayloadTooLarge)

namespace CommandError

def code : CommandError → String
  | .config _ => "REQL_CLI_CONFIG_ERROR"
  | .emptyTableName => "REQL_CLI_INVALID_INPUT"
  | .json _ => "REQL_CLI_INVALID_INPUT"
  | .wire _ => "REQL_CLI_WIRE_ERROR"

def message : CommandError → String
  | .config e => e.message ++ " (" ++ e.code ++ ")"
  | .emptyTableName => "table name must not be empty"
  | .json fault => "JSON error: " ++ fault.message
  | .wire e => e.message

def display (e : CommandError) : String :=
  e.code ++ ": " ++ e.message

end CommandError

/-- What a command leaves behind: its text or why it failed, the log lines written on the way and the
threshold of the log afterwards. -/
structure Outcome where
  result : Except CommandError String
  log : Output := {}
  threshold : Severity

namespace Command

/-- The path that a backtrace stands for. -/
def runBacktrace (threshold : Severity) (json : String) : Outcome :=
  match Datum.parse json with
  | .error fault => { result := .error (.json fault), threshold }
  | .ok d =>
    let (path, record) := Backtrace.decode d
    { result := .ok path.description, log := .ofRecords threshold record.toList, threshold }

/-- The configuration of a table query: a file if one is named, with the database replaced if one is given.
The log says that a file was loaded even if the database is then refused. -/
def tableConfig (read : String → Except FileError String) (path database : Option String) :
    List LogRecord × Except ConfigError Config :=
  let (records, loaded) : List LogRecord × Except ConfigError Config :=
    match path with
    | none => ([], .ok {})
    | some path =>
      match Config.load read path with
      | .ok config => ([Config.loadedRecord path config], .ok config)
      | .error e => ([], .error e)
  let config := do
    let config ← loaded
    match database with
    | none => return config
    | some name =>
      let config := { config with database := name }
      let _ ← config.validate.mapError ConfigError.invalid
      return config
  (records, config)

/-- The query for a table, as text or as a frame in hexadecimal digits. -/
def tableText (q : Query) (framed : Bool) : Except CommandError String :=
  if framed then (q.frame.map hexText).mapError .wire else .ok q.body.text

/-- Prints the query for a table. The threshold of the configuration holds from the query on. -/
def runTable (read : String → Except FileError String) (threshold : Severity) (name : String)
    (database : Option String) (token : UInt64) (path : Option String) (framed : Bool) : Outcome :=
  if name.isEmpty then { result := .error .emptyTableName, threshold } else
  let (records, config) := tableConfig read path database
  let log := Output.ofRecords threshold records
  match (do let config ← config; return (config, ← config.severity.mapError ConfigError.invalid)) with
  | .error e => { result := .error (.config e), log, threshold }
  | .ok (config, threshold) =>
    let built := (Query.start (Handle.table none name) config.options).run (config.context token)
    { result := tableText built.result framed
      log := log ++ Output.ofNotices threshold built.notices
      threshold }

def run (read : String → Except FileError String) (threshold : Severity) : Command → Outcome
  | .table name database token path framed => runTable read threshold name database token path framed
  | .backtrace json => runBacktrace threshold json

end Command

namespace Outcome

/-- The output streams after the command: its text follows its log lines. -/
def output (o : Outcome) : Output :=
  match o.result with
  | .ok text => o.log ++ { out := text ++ "\n" }
  | .error _ => o.log

end Outcome

/-- The end of a process. -/
structure Exit where
  code : UInt32
  output : Output

namespace Exit

def versionText : String := "reqlc 0.1.0\n"

def helpText : String :=
  "\n".intercalate
    ["Query-construction core for a ReQL database client", "", "Usage: reqlc <COMMAND>", "", "Commands:",
     "  table      Print the START query for a table reference",
     "  backtrace  Decode a backtrace given as JSON",
     "  help       Print this message or the help of the given subcommand(s)", "", "Options:",
     "  -h, --help     Print help", "  -V, --version  Print version", ""]

/-- The end of a process whose arguments name no command to run. -/
def ofUsage : Usage → Exit
  | .help => ⟨0, { out := helpText }⟩
  | .version => ⟨0, { out := versionText }⟩
  | .helpOnMissing => ⟨2, { err := helpText }⟩
  | usage => ⟨2, { err := "error: " ++ usage.kind ++ "\n" }⟩

/-- The end of a process that ran a command. -/
def ofOutcome (o : Outcome) : Exit :=
  match o.result with
  | .ok _ => ⟨0, o.output⟩
  | .error e => ⟨1, o.output ++ { err := e.display ++ "\n" }⟩

/-- Runs the program on its arguments. -/
def ofArguments (read : String → Except FileError String) (args : List String) : Exit :=
  match Command.parse args with
  | .error usage => ofUsage usage
  | .ok command => ofOutcome (command.run read .warn)

end Exit

end QueryTerms
