/-! The arguments of the command line. Options may stand anywhere after the command, with their value in the
next argument or after an equals sign; a double dash ends the options. An option's value is taken over
when the next argument claims its place or the arguments end, so a fault in an unknown argument comes first. -/

namespace QueryTerms

/-- What the program is asked to do. -/
inductive Command where
  /-- Print the query for a table. -/
  | table (name : String) (database : Option String) (token : UInt64) (config : Option String) (framed : Bool)
  /-- Print the path that a backtrace stands for. -/
  | backtrace (json : String)
deriving DecidableEq

/-- Why the arguments name no command to run, or what is to be shown instead. -/
inductive Usage where
  | missingArgument
  | helpOnMissing
  | unknownCommand
  | unknownArgument
  | missingValue
  | invalidValue
  | repeated
  | unexpectedValue
  | help
  | version
deriving DecidableEq, Repr

namespace Usage

def kind : Usage → String
  | .missingArgument => "MissingRequiredArgument"
  | .helpOnMissing => "DisplayHelpOnMissingArgumentOrSubcommand"
  | .unknownCommand => "InvalidSubcommand"
  | .unknownArgument => "UnknownArgument"
  | .missingValue => "InvalidValue"
  | .invalidValue => "ValueValidation"
  | .repeated => "ArgumentConflict"
  | .unexpectedValue => "TooManyValues"
  | .help => "DisplayHelp"
  | .version => "DisplayVersion"

end Usage

/-- An argument by its form. -/
inductive Argument where
  | doubleDash
  | long (name : String) (value : Option String)
  /-- One letter or more after a single dash. -/
  | short (first : Char)
  | word (text : String)

namespace Argument

def ofText (text : String) : Argument :=
  match text.toList with
  | ['-', '-'] => .doubleDash
  | '-' :: '-' :: rest =>
    let name := String.ofList (rest.takeWhile (· != '='))
    match rest.dropWhile (· != '=') with
    | _ :: value => .long name (some (String.ofList value))
    | [] => .long name none
  | '-' :: first :: _ => .short first
  | _ => .word text

end Argument

namespace Command

/-- An unsigned number in decimal digits, with an optional plus sign. -/
def number? (text : String) : Option UInt64 :=
  let digits := match text.toList with
    | '+' :: rest => rest
    | chars => chars
  let n := digits.foldl (fun n c => 10 * n + (c.toNat - '0'.toNat)) 0
  if !digits.isEmpty && digits.all Char.isDigit && n < UInt64.size then some (UInt64.ofNat n) else none

/-- A place that takes one value. -/
inductive Slot where
  | positional
  | database
  | token
  | config
deriving DecidableEq

/-- What the arguments have said so far. The last slot that was opened may still wait for its value. -/
structure Draft where
  positional : Option String := none
  database : Option String := none
  token : Option UInt64 := none
  config : Option String := none
  framed : Bool := false
  pending : Option (Slot × Option String) := none

namespace Draft

/-- Takes a value over into its slot. -/
def store (draft : Draft) (slot : Slot) (value : String) : Except Usage Draft :=
  match slot with
  | .positional => .ok { draft with positional := some value }
  | .database =>
    if draft.database.isSome then .error .repeated else .ok { draft with database := some value }
  | .token =>
    if draft.token.isSome then .error .repeated else
    match number? value with
    | some n => .ok { draft with token := some n }
    | none => .error .invalidValue
  | .config =>
    if draft.config.isSome then .error .repeated
    else if value.isEmpty then .error .missingValue
    else .ok { draft with config := some value }

/-- Takes over the value of the slot that was opened last. -/
def resolve (draft : Draft) : Except Usage Draft :=
  match draft.pending with
  | none => .ok draft
  | some (_, none) => .error .missingValue
  | some (slot, some value) => ({ draft with pending := none } : Draft).store slot value

/-- Opens a slot, with a value if it is already there. -/
def openSlot (draft : Draft) (slot : Slot) (value : Option String) : Except Usage Draft := do
  let draft ← draft.resolve
  match value with
  | some value => draft.store slot value
  | none => return { draft with pending := some (slot, none) }

/-- A value that belongs to no option. -/
def addPositional (draft : Draft) (text : String) : Except Usage Draft :=
  let taken := draft.positional.isSome || draft.pending.any fun (slot, _) => slot = .positional
  if taken then .error .unknownArgument
  else do return { ← draft.resolve with pending := some (.positional, some text) }

/-- A flag that takes no value. -/
def setFramed (draft : Draft) : Except Usage Draft := do
  let draft ← draft.resolve
  if draft.framed then throw .repeated
  return { draft with framed := true }

/-- A request for help, after the value before it has been taken over. -/
def askHelp (draft : Draft) : Except Usage Draft := do
  let _ ← draft.resolve
  throw .help

/-- An option of the table command. -/
def tableOption (draft : Draft) (name : String) (value : Option String) : Except Usage Draft :=
  match name, value with
  | "db", value => draft.openSlot .database value
  | "token", value => draft.openSlot .token value
  | "config", value => draft.openSlot .config value
  | "frame", none => draft.setFramed
  | "frame", some _ => .error .unexpectedValue
  | _, _ => .error .unknownArgument

/-- The arguments after a command, with the options that the command knows. -/
def read (option : Draft → String → Option String → Except Usage Draft) :
    (optionsEnded : Bool) → Draft → List String → Except Usage Draft
  | _, draft, [] => draft.resolve
  | true, draft, text :: rest => do read option true (← draft.addPositional text) rest
  | false, draft, text :: rest =>
    match Argument.ofText text with
    | .doubleDash => read option true draft rest
    | .long "help" none => draft.askHelp
    | .long "help" (some _) => .error .unexpectedValue
    | .long name value => do read option false (← option draft name value) rest
    | .short 'h' => draft.askHelp
    | .short _ => .error .unknownArgument
    | .word text =>
      match draft.pending with
      | some (slot, none) => read option false { draft with pending := some (slot, some text) } rest
      | _ => do read option false (← draft.addPositional text) rest

end Draft

/-- The token of a query that is given none. -/
def defaultToken : UInt64 := 1

def parseTable (args : List String) : Except Usage Command := do
  let draft ← Draft.read Draft.tableOption false {} args
  match draft.positional with
  | some name => return .table name draft.database (draft.token.getD defaultToken) draft.config draft.framed
  | none => throw .missingArgument

def parseBacktrace (args : List String) : Except Usage Command := do
  let draft ← Draft.read (fun _ _ _ => throw .unknownArgument) false {} args
  match draft.positional with
  | some json => return .backtrace json
  | none => throw .missingArgument

def isCommandName (name : String) : Bool :=
  name == "table" || name == "backtrace" || name == "help"

/-- The help command takes the name of a command, and no command has commands below it. -/
def parseHelp : List String → Usage
  | [] => .help
  | [name] => if isCommandName name then .help else .unknownCommand
  | _ => .unknownCommand

/-- The command that the arguments of the program name. -/
def parse : List String → Except Usage Command
  | [] => .error .helpOnMissing
  | text :: rest =>
    match Argument.ofText text with
    | .doubleDash =>
      match rest with
      | [] => .error .helpOnMissing
      | name :: _ => .error (if isCommandName name then .unknownArgument else .unknownCommand)
    | .long "help" none | .short 'h' => .error .help
    | .long "version" none | .short 'V' => .error .version
    | .long "help" (some _) | .long "version" (some _) => .error .unexpectedValue
    | .long _ _ | .short _ => .error .unknownArgument
    | .word "table" => parseTable rest
    | .word "backtrace" => parseBacktrace rest
    | .word "help" => .error (parseHelp rest)
    | .word _ => .error .unknownCommand

end Command

end QueryTerms
