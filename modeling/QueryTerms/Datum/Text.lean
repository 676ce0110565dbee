import QueryTerms.Datum.Basic
import QueryTerms.Number.Shortest
import QueryTerms.Text.Escape

/-! The compact text of a JSON value: no blanks, the fields of an object in ascending order of their keys. -/

namespace QueryTerms

namespace Datum

/-- Control characters below the space are escaped, the common ones by a letter. -/
def escapeRule : EscapeRule where
  letter
    | '"' => some '"'
    | '\\' => some '\\'
    | '\x08' => some 'b'
    | '\x0c' => some 'f'
    | '\n' => some 'n'
    | '\r' => some 'r'
    | '\t' => some 't'
    | _ => none
  numbered c := c.toNat < 0x20

/-- Positional notation covers orders of the first digit from five places after the point to sixteen
digits before it. -/
def decimalFormat : DecimalFormat := ⟨-5, 15⟩

end Datum

/-- The text of a number. -/
def Number.chars : Number → List Char
  | .unsigned n => Nat.toDigits 10 n.toNat
  | .negSucc k => '-' :: Nat.toDigits 10 (k.val + 1)
  | .double x => Datum.decimalFormat.write x

namespace Datum

/-- The text of a string. -/
def quoted (s : String) : List Char :=
  escapeRule.quote s.toList

mutual
/-- The characters of the compact text. -/
def chars : Datum → List Char
  | .null => "null".toList
  | .bool true => "true".toList
  | .bool false => "false".toList
  | .number n => n.chars
  | .string s => quoted s
  | .array items => '[' :: charsItems items ++ [']']
  | .object fields => '\x7b' :: charsFields fields ++ ['\x7d']

/-- The items with a comma between each two. -/
def charsItems : List Datum → List Char
  | [] => []
  | [d] => chars d
  | d :: rest => chars d ++ ',' :: charsItems rest

/-- The fields with a comma between each two. -/
def charsFields : List (String × Datum) → List Char
  | [] => []
  | [(key, d)] => quoted key ++ ':' :: chars d
  | (key, d) :: rest => quoted key ++ ':' :: chars d ++ ',' :: charsFields rest
end

/-- The compact text of a value. -/
def text (d : Datum) : String :=
  String.ofList d.chars

end Datum

end QueryTerms
