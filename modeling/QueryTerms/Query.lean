import QueryTerms.Datum.Text
import QueryTerms.Expr.Basic
import QueryTerms.Term.Wire

/-! Queries as they are sent. A query that starts an evaluation carries the wire form of a term and of the
global options; the other ones carry their type alone. On a connection a query is framed by its token and
the length of its text. -/

namespace QueryTerms

inductive QueryType where
  | start
  | continued
  | stop
  | noreplyWait
  | serverInfo
deriving DecidableEq, Repr

namespace QueryType

def code : QueryType → UInt64
  | .start => 1
  | .continued => 2
  | .stop => 3
  | .noreplyWait => 4
  | .serverInfo => 5

def all : List QueryType :=
  [.start, .continued, .stop, .noreplyWait, .serverInfo]

def ofCode? (code : UInt64) : Option QueryType :=
  all.find? fun type => type.code == code

end QueryType

/-- A query with the token that its answer will carry. -/
structure Query where
  token : UInt64
  body : Datum

/-- A payload that is too long for the length field of a frame. -/
structure PayloadTooLarge where
  size : Nat
deriving DecidableEq

namespace PayloadTooLarge

def code (_ : PayloadTooLarge) : String := "REQL_WIRE_PAYLOAD_TOO_LARGE"

def message (e : PayloadTooLarge) : String :=
  "Query payload of " ++ toString e.size ++ " bytes exceeds the frame length limit"

end PayloadTooLarge

/-- The lowest bytes of a number, the least significant one first. -/
def littleEndian : (count : Nat) → Nat → List UInt8
  | 0, _ => []
  | count + 1, n => UInt8.ofNat n :: littleEndian count (n / 256)

/-- Bytes as pairs of hexadecimal digits. -/
def hexText (bytes : List UInt8) : String :=
  String.ofList (bytes.flatMap fun b => hexDigits 2 b.toNat)

namespace Query

/-- A query without a term. -/
def control (type : QueryType) (token : UInt64) : Query :=
  ⟨token, .array [.unsigned type.code]⟩

/-- The type, which is the first item of the body. -/
def type? (q : Query) : Option QueryType :=
  match q.body with
  | .array (code :: _) => code.unsigned?.bind QueryType.ofCode?
  | _ => none

/-- The query that starts the evaluation of a term. The options are built after the term, in the same
context, and the context's database is added unless they name one. -/
def start (root : Handle) (options : OptionList Handle) : Build Query := do
  let term ← root
  let fields ← options.build
  let context ← Build.context
  let fields :=
    if Fields.contains "db" fields then fields
    else Fields.insert "db" (.database context.database) fields
  Build.report (.queryBuilt context.token context.database)
  return ⟨context.token, .array [.unsigned QueryType.start.code, term.encode, .object (Term.encodeNamed fields)]⟩

/-- The bytes of the compact text. -/
def payload (q : Query) : List UInt8 :=
  q.body.text.toUTF8.toList

/-- The bytes on a connection: the token, the length of the payload and the payload. -/
def frame (q : Query) : Except PayloadTooLarge (List UInt8) :=
  let payload := q.payload
  if payload.length < UInt32.size then
    .ok (littleEndian 8 q.token.toNat ++ littleEndian 4 payload.length ++ payload)
  else .error ⟨payload.length⟩

/-- The token and the body as one value. -/
def toDatum (q : Query) : Datum :=
  .object [("body", q.body), ("token", .unsigned q.token)]

end Query

end QueryTerms
