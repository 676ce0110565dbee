import QueryTerms.Datum.Basic

/-! Why an expression cannot be evaluated: the server lacks the operator, or a host value has no term. -/

namespace QueryTerms

/-- Why a value has no JSON form or does not come from one. -/
inductive DatumError where
  | encode (cause : String)
  | decode (cause : String)

namespace DatumError

def code : DatumError → String
  | .encode _ => "REQL_DATUM_ENCODE"
  | .decode _ => "REQL_DATUM_DECODE"

def message : DatumError → String
  | .encode cause => "Cannot encode value as datum: " ++ cause
  | .decode cause => "Cannot decode datum: " ++ cause

end DatumError

/-- Why an expression cannot be evaluated. -/
inductive Fault where
  | unsupported (operator : String)
  | unrepresentable (cause : DatumError)
  /-- No value of the host type, so there is nothing to report but that. -/
  | invalidHostValue

namespace Fault

def code : Fault → String
  | .unsupported _ => "REQL_UNSUPPORTED_OPERATOR"
  | .unrepresentable _ => "REQL_UNREPRESENTABLE_VALUE"
  | .invalidHostValue => "invalid_host_value"

def message? : Fault → Option String
  | .unsupported operator => some ("Operator '" ++ operator ++ "' is not supported by the server")
  | .unrepresentable cause => some ("Value cannot be converted to a term: " ++ cause.message)
  | .invalidHostValue => none

end Fault

end QueryTerms
