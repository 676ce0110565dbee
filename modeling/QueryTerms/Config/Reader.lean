import QueryTerms.Config.Basic
import QueryTerms.Datum.Reader

/-! Reading a configuration from JSON text or from a value. It is an object, in which unknown fields are passed
over, or the list of its fields in their order. Every field may be left out. -/

namespace QueryTerms

namespace Config

/-- What the whole is called where something else stands in its place. -/
def title : String := "struct ClientConfig"

/-- The fields read so far. -/
structure Draft where
  database : Option String := none
  useOutdated : Option (Option Bool) := none
  globalOptions : Option (Fields Datum) := none
  logLevel : Option String := none

/-- Fields that were left out have their defaults. -/
def Draft.finish (draft : Draft) : Config :=
  let config : Config := {}
  { database := draft.database.getD config.database
    useOutdated := draft.useOutdated.getD config.useOutdated
    globalOptions := draft.globalOptions.getD config.globalOptions
    logLevel := draft.logLevel.getD config.logLevel }

/-- The value of a field that may be given once. -/
def once (name : String) (earlier : Option α) (value : Reader α) : Reader α := fun text =>
  if earlier.isSome then .error (.mismatch (.duplicate name)) else Reader.colon text >>= value

/-- A field of the object form. -/
def draftField (budget depth : Nat) (draft : Draft) : Reader Draft := fun text => do
  let (name, text) ← Reader.key text
  match name with
  | "default_database" =>
    let (v, text) ← once name draft.database Reader.string text
    return ({ draft with database := some v }, text)
  | "use_outdated" =>
    let (v, text) ← once name draft.useOutdated Reader.optionalBool text
    return ({ draft with useOutdated := some v }, text)
  | "global_options" =>
    let (v, text) ← once name draft.globalOptions (Reader.fields budget depth) text
    return ({ draft with globalOptions := some v }, text)
  | "log_level" =>
    let (v, text) ← once name draft.logLevel Reader.string text
    return ({ draft with logLevel := some v }, text)
  | _ =>
    let text ← Reader.colon text >>= Reader.skip
    return (draft, text)

/-- The item that follows in a list, none at its end. -/
def nextItem (isFirst : Bool) (value : Reader α) : Reader (Option α) := fun text =>
  match Reader.skipBlanks text with
  | [] => .error .endInList
  | ']' :: rest => .ok (none, ']' :: rest)
  | c :: rest =>
    if isFirst then (value (c :: rest)).map fun (v, rest) => (some v, rest)
    else if c = ',' then
      match Reader.skipBlanks rest with
      | [] => .error .endInValue
      | ']' :: _ => .error .trailingComma
      | rest => (value rest).map fun (v, rest) => (some v, rest)
    else .error .expectedListEnd

/-- The end of a list all of whose items have been read. -/
def listEnd (text : List Char) : Except ReadFault (List Char) :=
  match Reader.skipBlanks text with
  | [] => .error .endInList
  | ']' :: rest => .ok rest
  | ',' :: rest =>
    match Reader.skipBlanks rest with
    | ']' :: _ => .error .trailingComma
    | _ => .error .trailingCharacters
  | _ :: _ => .error .trailingCharacters

/-- The list form. -/
def draftList (budget depth : Nat) : Reader Draft := fun text => do
  let (database, text) ← nextItem true Reader.string text
  let (useOutdated, text) ← nextItem false Reader.optionalBool text
  let (globalOptions, text) ← nextItem false (Reader.fields budget depth) text
  let (logLevel, text) ← nextItem false Reader.string text
  return ({ database, useOutdated, globalOptions, logLevel }, ← listEnd text)

/-- A configuration in either form. Its own brackets count as one level of nesting. -/
def draft (budget : Nat) : Reader Draft := fun text =>
  let depth := Datum.depthLimit - 1
  match Reader.skipBlanks text with
  | '[' :: text => draftList budget depth text
  | '\x7b' :: text => Reader.parts Reader.object (draftField budget depth) budget {} text
  | text => .error (Reader.mismatched title text)

/-- Reads a configuration from a whole text. -/
def parse (text : String) : Except ReadFault Config :=
  let chars := text.toList
  (Reader.finish (draft chars.length chars)).map Draft.finish

/-- The string that a value is. -/
def stringOf : Datum → Except Mismatch String
  | .string s => .ok s
  | d => .error (.kind (Found.ofDatum d) "a string")

def optionalBoolOf : Datum → Except Mismatch (Option Bool)
  | .null => .ok none
  | .bool b => .ok (some b)
  | d => .error (.kind (Found.ofDatum d) "a boolean")

def fieldsOf : Datum → Except Mismatch (Fields Datum)
  | .object fields => .ok fields
  | d => .error (.kind (Found.ofDatum d) "a map")

/-- A field of the object form, from a value. -/
def draftFieldOf (draft : Draft) : String × Datum → Except Mismatch Draft
  | ("default_database", d) => return { draft with database := some (← stringOf d) }
  | ("use_outdated", d) => return { draft with useOutdated := some (← optionalBoolOf d) }
  | ("global_options", d) => return { draft with globalOptions := some (← fieldsOf d) }
  | ("log_level", d) => return { draft with logLevel := some (← stringOf d) }
  | _ => return draft

/-- The list form, from values. -/
def draftListOf (items : List Datum) : Except Mismatch Draft := do
  let database ← items[0]?.mapM stringOf
  let useOutdated ← items[1]?.mapM optionalBoolOf
  let globalOptions ← items[2]?.mapM fieldsOf
  let logLevel ← items[3]?.mapM stringOf
  if 4 < items.length then throw (.length items.length "fewer elements in array")
  return { database, useOutdated, globalOptions, logLevel }

/-- Reads a configuration from a value. -/
def ofDatum : Datum → Except Mismatch Config
  | .array items => (draftListOf items).map Draft.finish
  | .object fields => (fields.foldlM draftFieldOf {}).map Draft.finish
  | d => .error (.kind (Found.ofDatum d) title)

end Config

end QueryTerms
