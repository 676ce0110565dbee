import QueryTerms.Fields
import QueryTerms.Number.Double

/-! JSON values. An integer and a floating-point number are different values even where they denote the same
number, and an integer is unsigned unless it is negative. -/

namespace QueryTerms

/-- A number of a JSON value. -/
inductive Number where
  | unsigned (n : UInt64)
  /-- The integer `-(k + 1)`. -/
  | negSucc (k : Fin 0x8000000000000000)
  | double (x : Double)
deriving DecidableEq

namespace Number

/-- The integer, if it lies between the least signed and the greatest unsigned 64-bit integer. -/
def ofInt? : Int → Option Number
  | .ofNat n => if n < UInt64.size then some (.unsigned (UInt64.ofNat n)) else none
  | .negSucc k => if inside : k < 0x8000000000000000 then some (.negSucc ⟨k, inside⟩) else none

def toInt? : Number → Option Int
  | .unsigned n => some n.toNat
  | .negSucc k => some (Int.negSucc k.val)
  | .double _ => none

/-- The nearest floating-point number. -/
def toDouble? : Number → Option Double
  | .unsigned n => Double.ofInt? n.toNat
  | .negSucc k => Double.ofInt? (Int.negSucc k.val)
  | .double x => some x

/-- Equality in which the two floating-point zeros are equal. -/
def same : Number → Number → Bool
  | .double x, .double y => x.same y
  | a, b => decide (a = b)

end Number

/-- A JSON value. The fields of an object stand in ascending order of their keys. -/
inductive Datum where
  | null
  | bool (b : Bool)
  | number (n : Number)
  | string (s : String)
  | array (items : List Datum)
  | object (fields : List (String × Datum))

namespace Datum

instance : Inhabited Datum := ⟨.null⟩

def unsigned (n : UInt64) : Datum := .number (.unsigned n)

/-- An integer value; null where no 64-bit integer holds it. -/
def ofInt (n : Int) : Datum :=
  match Number.ofInt? n with
  | some n => .number n
  | none => .null

/-- A floating-point value; null where the number is not finite. -/
def ofDouble? : Option Double → Datum
  | some x => .number (.double x)
  | none => .null

/-- The unsigned integer that a value is. -/
def unsigned? : Datum → Option UInt64
  | .number (.unsigned n) => some n
  | _ => none

mutual
/-- Equality of values, in which the two floating-point zeros are equal. -/
def same : Datum → Datum → Bool
  | .null, .null => true
  | .bool a, .bool b => a == b
  | .number a, .number b => a.same b
  | .string a, .string b => a == b
  | .array as, .array bs => sameItems as bs
  | .object as, .object bs => sameFields as bs
  | _, _ => false

def sameItems : List Datum → List Datum → Bool
  | [], [] => true
  | a :: as, b :: bs => same a b && sameItems as bs
  | _, _ => false

def sameFields : List (String × Datum) → List (String × Datum) → Bool
  | [], [] => true
  | (k, a) :: as, (l, b) :: bs => k == l && same a b && sameFields as bs
  | _, _ => false
end

end Datum

end QueryTerms
