import QueryTerms.Build
import QueryTerms.Text.Escape

/-! Log lines. A line is a JSON object on a line of its own: the event, its severity, and then the fields in
the order of their keys. Lines below a threshold are dropped. -/

namespace QueryTerms

inductive Severity where
  | trace
  | info
  | warn
  | error
  | fatal
deriving DecidableEq, Repr

namespace Severity

def rank : Severity → Nat
  | .trace => 0
  | .info => 1
  | .warn => 2
  | .error => 3
  | .fatal => 4

def name : Severity → String
  | .trace => "TRACE"
  | .info => "INFO"
  | .warn => "WARN"
  | .error => "ERROR"
  | .fatal => "FATAL"

/-- The severity of a name, in letters of either case. -/
def ofName? (name : String) : Option Severity :=
  match String.ofList (name.toList.map Char.toUpper) with
  | "TRACE" => some .trace
  | "INFO" => some .info
  | "WARN" => some .warn
  | "ERROR" => some .error
  | "FATAL" => some .fatal
  | _ => none

/-- Whether a line of this severity passes the threshold. -/
def passes (severity threshold : Severity) : Bool :=
  threshold.rank ≤ severity.rank

end Severity

/-- What happened. -/
inductive Event where
  | configLoaded
  | queryBuilt
  | funcallInlined
  | unsupportedOperator
  | backtraceMalformed
deriving DecidableEq, Repr

namespace Event

def name : Event → String
  | .configLoaded => "CONFIG_LOADED"
  | .queryBuilt => "QUERY_BUILT"
  | .funcallInlined => "FUNCALL_INLINED"
  | .unsupportedOperator => "UNSUPPORTED_OPERATOR"
  | .backtraceMalformed => "BACKTRACE_MALFORMED"

def all : List Event :=
  [.configLoaded, .queryBuilt, .funcallInlined, .unsupportedOperator, .backtraceMalformed]

def ofName? (name : String) : Option Event :=
  all.find? fun event => event.name == name

def severity : Event → Severity
  | .configLoaded => .info
  | .queryBuilt => .trace
  | .funcallInlined => .trace
  | .unsupportedOperator => .warn
  | .backtraceMalformed => .warn

end Event

/-- What is written to the two output streams of a process. -/
structure Output where
  out : String := ""
  err : String := ""

namespace Output

instance : Append Output where
  append a b := ⟨a.out ++ b.out, a.err ++ b.err⟩

end Output

/-- What a log line says. -/
structure LogRecord where
  severity : Severity
  event : String
  fields : List (String × String)

namespace LogRecord

def ofEvent (event : Event) (fields : List (String × String)) : LogRecord :=
  ⟨event.severity, event.name, fields⟩

/-- Every control character is escaped, so that none of them reaches the line. -/
def escapeRule : EscapeRule where
  letter
    | '"' => some '"'
    | '\\' => some '\\'
    | '\n' => some 'n'
    | '\r' => some 'r'
    | '\t' => some 't'
    | _ => none
  numbered c := c.toNat < 0x20 || (0x7F ≤ c.toNat && c.toNat ≤ 0x9F)

/-- A name and a text. -/
def member (key value : String) : List Char :=
  escapeRule.quote key.toList ++ ':' :: escapeRule.quote value.toList

/-- The members of the line in their order. Fields with equal keys keep their order. -/
def members (r : LogRecord) : List (String × String) :=
  ("event", r.event) :: ("severity", r.severity.name) :: Fields.sorted r.fields

/-- The line, with its end. -/
def line (r : LogRecord) : List Char :=
  '\x7b' :: [','].intercalate (r.members.map fun (key, value) => member key value) ++ ['\x7d', '\n']

/-- Writes the line if it passes the threshold. Failures go to the error stream. -/
def emit (threshold : Severity) (r : LogRecord) : Output :=
  if !r.severity.passes threshold then {}
  else if r.severity.passes .error then { err := String.ofList r.line }
  else { out := String.ofList r.line }

end LogRecord

namespace Notice

/-- What a notice says in the log. -/
def record? : Notice → Option LogRecord
  | .inlined params =>
    some (.ofEvent .funcallInlined [("params", ",".intercalate (params.map fun id => toString id.toNat))])
  | .refused (.unsupported operator) => some (.ofEvent .unsupportedOperator [("operator", operator)])
  | .refused _ => none
  | .queryBuilt token database =>
    some (.ofEvent .queryBuilt [("token", toString token.toNat), ("database", database)])

end Notice

namespace Output

/-- What a list of log lines writes. -/
def ofRecords (threshold : Severity) (records : List LogRecord) : Output :=
  records.foldl (fun output r => output ++ r.emit threshold) {}

/-- What the notices of a build write. -/
def ofNotices (threshold : Severity) (notices : List Notice) : Output :=
  ofRecords threshold (notices.filterMap Notice.record?)

end Output

end QueryTerms
