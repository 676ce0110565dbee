import QueryTerms.Config.Reader

/-! Host types as shapes of JSON values. A value of the right shape is read and given back as the host would
write it: a floating-point type turns integers into floating-point numbers. -/

namespace QueryTerms

/-- The shape of a host type. -/
inductive Shape where
  | any
  | unit
  | bool
  | string
  | char
  | integer (type : IntegerType)
  | double
  | list (item : Shape)
  | optional (inner : Shape)
  | pair (first second : Shape)
  | map (value : Shape)
  | config

/-- The name of an integer type where something else stands in its place. -/
def IntegerType.name : IntegerType → String
  | .signed bits => "i" ++ toString bits
  | .unsigned bits => "u" ++ toString bits

namespace Shape

def mismatch (d : Datum) (expected : String) : Except Mismatch Datum :=
  .error (.kind (Found.ofDatum d) expected)

/-- Reads a value of the shape and writes it again. -/
def convert : Shape → Datum → Except Mismatch Datum
  | .any, d => .ok d
  | .unit, .null => .ok .null
  | .unit, d => mismatch d "unit"
  | .bool, .bool b => .ok (.bool b)
  | .bool, d => mismatch d "a boolean"
  | .string, .string s => .ok (.string s)
  | .string, d => mismatch d "a string"
  | .char, .string s =>
    if s.length = 1 then .ok (.string s) else .error (.value (.string s) "a character")
  | .char, d => mismatch d "a character"
  | .integer type, .number n =>
    match n.toInt? with
    | some i => if type.holds i then .ok (.number n) else .error (.value (.integer i) type.name)
    | none => mismatch (.number n) type.name
  | .integer type, d => mismatch d type.name
  | .double, .number n => .ok (.ofDouble? n.toDouble?)
  | .double, d => mismatch d "f64"
  | .list item, .array items => (items.mapM item.convert).map .array
  | .list _, d => mismatch d "a sequence"
  | .optional _, .null => .ok .null
  | .optional inner, d => inner.convert d
  | .pair first second, .array items => do
    let expected := "a tuple of size 2"
    match items with
    | [] => throw (.length 0 expected)
    | [a] =>
      let _ ← first.convert a
      throw (.length 1 expected)
    | a :: b :: rest =>
      let a ← first.convert a
      let b ← second.convert b
      if rest.isEmpty then return .array [a, b]
      else throw (.length items.length "fewer elements in array")
  | .pair _ _, d => mismatch d "a tuple of size 2"
  | .map value, .object fields =>
    (fields.mapM fun (entry : String × Datum) =>
      (value.convert entry.2).map fun d => (entry.1, d)).map .object
  | .map _, d => mismatch d "a map"
  | .config, d => (Config.ofDatum d).map Config.toDatum

end Shape

end QueryTerms
