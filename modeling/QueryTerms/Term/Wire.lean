import QueryTerms.Term.Basic

/-! The wire form of terms. A call is the list of its code, its arguments and, if there are any, its named
arguments. Labels are dropped. A literal list becomes a call of `makeArray`, since a bare list would be
read as a call. -/

namespace QueryTerms

namespace Datum

mutual
/-- The wire form of a literal. -/
def encode : Datum → Datum
  | .array items => .array [.unsigned Operator.makeArray.code, .array (encodeItems items)]
  | .object fields => .object (encodeFields fields)
  | .null => .null
  | .bool b => .bool b
  | .number n => .number n
  | .string s => .string s

def encodeItems : List Datum → List Datum
  | [] => []
  | d :: rest => encode d :: encodeItems rest

def encodeFields : List (String × Datum) → List (String × Datum)
  | [] => []
  | (key, d) :: rest => (key, encode d) :: encodeFields rest
end

end Datum

namespace Term

mutual
/-- The wire form of a term. -/
def encode : Term → Datum
  | .literal d => d.encode
  | .annotated _ inner => encode inner
  | .call op args named =>
    let call := [Datum.unsigned op.code, .array (encodeArgs args)]
    match encodeNamed named with
    | [] => .array call
    | fields => .array (call ++ [.object fields])

def encodeArgs : List Term → List Datum
  | [] => []
  | t :: rest => encode t :: encodeArgs rest

def encodeNamed : List (String × Term) → List (String × Datum)
  | [] => []
  | (key, t) :: rest => (key, encode t) :: encodeNamed rest
end

end Term

end QueryTerms
