import QueryTerms.Datum.Text
import QueryTerms.Log

/-! Backtraces: where in a query an error arose, as a path of argument positions and names of options. A path
with anything else in it is dropped as a whole, and the log says so. -/

namespace QueryTerms

/-- One step into a term. -/
inductive PathStep where
  | position (index : UInt64)
  | key (name : String)
deriving DecidableEq

namespace PathStep

def ofDatum? : Datum → Option PathStep
  | .number (.unsigned n) => some (.position n)
  | .string s => some (.key s)
  | _ => none

def text : PathStep → List Char
  | .position index => '[' :: Nat.toDigits 10 index.toNat ++ [']']
  | .key name => '.' :: name.toList

end PathStep

/-- A path from the root of a query. -/
abbrev Backtrace := List PathStep

namespace Backtrace

/-- The text of a path. A key at the start has no dot before it. -/
def text : Backtrace → List Char
  | [] => "<root>".toList
  | .key name :: rest => name.toList ++ rest.flatMap PathStep.text
  | path => path.flatMap PathStep.text

def description (path : Backtrace) : String :=
  String.ofList (text path)

/-- The path that a value holds; none if it does not hold one. -/
def ofDatum? : Datum → Option Backtrace
  | .null => some []
  | .array items => items.mapM PathStep.ofDatum?
  | _ => none

/-- The path that a value holds, or the empty one with a line for the log. -/
def decode (d : Datum) : Backtrace × Option LogRecord :=
  match ofDatum? d with
  | some path => (path, none)
  | none => ([], some (.ofEvent .backtraceMalformed [("backtrace", d.text)]))

end Backtrace

end QueryTerms
