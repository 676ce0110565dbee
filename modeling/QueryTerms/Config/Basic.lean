import QueryTerms.Context
import QueryTerms.Datum.Mismatch
import QueryTerms.Log
import QueryTerms.OptionList
import QueryTerms.HostValue

/-! The configuration of a client: the database of its queries, the flag of its table references, the options
that every query carries and the threshold of its log. -/

namespace QueryTerms

structure Config where
  database : String := defaultDatabase
  useOutdated : Option Bool := none
  /-- Options of every query, in ascending order of their names. -/
  globalOptions : Fields Datum := []
  logLevel : String := Severity.warn.name

/-- A value that a field cannot have. -/
inductive ConfigFault where
  | emptyDatabase
  | databaseName (name : String)
  | logLevel (name : String)
deriving DecidableEq

namespace ConfigFault

def message : ConfigFault → String
  | .emptyDatabase => "Invalid config field 'default_database': must not be empty"
  | .databaseName name =>
    "Invalid config field 'default_database': '" ++ name ++ "' may only contain [A-Za-z0-9_]"
  | .logLevel name => "Invalid config field 'log_level': unknown level '" ++ name ++ "'"

end ConfigFault

namespace Config

/-- Letters of the Latin alphabet, digits and the low line. -/
def isNameChar (c : Char) : Bool :=
  c.isAlphanum || c == '_'

/-- The threshold that the level names. -/
def severity (config : Config) : Except ConfigFault Severity :=
  match Severity.ofName? config.logLevel with
  | some severity => .ok severity
  | none => .error (.logLevel config.logLevel)

/-- Checks the fields and returns the threshold. -/
def validate (config : Config) : Except ConfigFault Severity :=
  if config.database.toList.isEmpty then .error .emptyDatabase
  else if !config.database.toList.all isNameChar then .error (.databaseName config.database)
  else config.severity

/-- Whether nothing is set. -/
def isDefault (config : Config) : Bool :=
  config.database == defaultDatabase && config.useOutdated.isNone && config.globalOptions.isEmpty &&
    config.logLevel == Severity.warn.name

/-- The configuration as JSON. -/
def toDatum (config : Config) : Datum :=
  let flag := match config.useOutdated with
    | some b => .bool b
    | none => .null
  .object [("default_database", .string config.database), ("global_options", .object config.globalOptions),
    ("log_level", .string config.logLevel), ("use_outdated", flag)]

/-- The global options, in ascending order of their names. -/
def options (config : Config) : OptionList Handle :=
  .ofEntries (Fields.mapValues (fun d => Handle.constant d.lift) config.globalOptions)

/-- A fresh context with the settings of the configuration. -/
def context (config : Config) (token : UInt64) : Context :=
  { token, database := config.database, useOutdated := config.useOutdated }

end Config

end QueryTerms
