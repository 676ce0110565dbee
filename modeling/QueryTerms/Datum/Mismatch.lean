import QueryTerms.Datum.Text

/-! Why a value does not have the shape that was asked for: another kind of value stands there, the value is
out of range, a list has the wrong length, or a field is given twice. -/

namespace QueryTerms

/-- What was found where something else was expected. -/
inductive Found where
  | null
  | bool (b : Bool)
  | integer (n : Int)
  | double (x : Double)
  | string (s : String)
  | sequence
  | map

namespace Found

def ofNumber : Number → Found
  | .unsigned n => .integer n.toNat
  | .negSucc k => .integer (Int.negSucc k.val)
  | .double x => .double x

def ofDatum : Datum → Found
  | .null => .null
  | .bool b => .bool b
  | .number n => ofNumber n
  | .string s => .string s
  | .array _ => .sequence
  | .object _ => .map

def description : Found → String
  | .null => "null"
  | .bool true => "boolean `true`"
  | .bool false => "boolean `false`"
  | .integer n => "integer `" ++ toString n ++ "`"
  | .double x => "floating point `" ++ String.ofList (Datum.decimalFormat.write x) ++ "`"
  | .string s => "string " ++ Described.quote s
  | .sequence => "sequence"
  | .map => "map"

end Found

/-- A value that does not have the expected shape. -/
inductive Mismatch where
  | kind (found : Found) (expected : String)
  | value (found : Found) (expected : String)
  | length (count : Nat) (expected : String)
  | duplicate (field : String)

namespace Mismatch

def message : Mismatch → String
  | .kind found expected => "invalid type: " ++ found.description ++ ", expected " ++ expected
  | .value found expected => "invalid value: " ++ found.description ++ ", expected " ++ expected
  | .length count expected => "invalid length " ++ toString count ++ ", expected " ++ expected
  | .duplicate field => "duplicate field `" ++ field ++ "`"

end Mismatch

end QueryTerms
