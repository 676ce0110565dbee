/-! Finite binary floating-point numbers, kept by their bits, and the rounding of a ratio of integers to
the nearest of them. Everything is exact integer arithmetic: a ratio is rounded once, at the end. -/

namespace QueryTerms

/-- The quotient rounded to the nearest integer, a half to the even one. -/
def roundDiv (num den : Nat) : Nat :=
  let quotient := num / den
  let rest := 2 * (num % den)
  if rest < den ∨ (rest = den ∧ quotient % 2 = 0) then quotient else quotient + 1

/-- The number `mantissa * 2 ^ exponent`. -/
structure Magnitude where
  mantissa : Nat
  exponent : Int
deriving DecidableEq, Repr

namespace Magnitude

/-- Numerator and denominator of the number. -/
def ratio (x : Magnitude) : Nat × Nat :=
  match x.exponent with
  | .ofNat e => (x.mantissa <<< e, 1)
  | .negSucc e => (x.mantissa, 1 <<< (e + 1))

end Magnitude

/-- A binary format: how many bits a mantissa has, and the least and the greatest exponent of its last bit. -/
structure BinaryFormat where
  precision : Nat
  least : Int
  greatest : Int

namespace BinaryFormat

def double : BinaryFormat := ⟨53, -1074, 971⟩

def single : BinaryFormat := ⟨24, -149, 104⟩

/-- `num / den` divided by `2 ^ exponent`, again as a numerator and a denominator. -/
def scale (num den : Nat) : Int → Nat × Nat
  | .ofNat e => (num, den <<< e)
  | .negSucc e => (num <<< (e + 1), den)

/-- The greatest `e` with `2 ^ e ≤ num / den`, for positive `num` and `den`. -/
def binaryOrder (num den : Nat) : Int :=
  let guess : Int := (num.log2 : Int) - den.log2
  let (n, d) := scale num den guess
  if d ≤ n then guess else guess - 1

/-- The number of the format that is nearest to `num / den`, a half going to the even mantissa.
There is none beyond the greatest exponent. -/
def nearest (format : BinaryFormat) (num den : Nat) : Option Magnitude :=
  if num = 0 then some ⟨0, format.least⟩ else
  let exponent := max format.least (binaryOrder num den - format.precision + 1)
  let (n, d) := scale num den exponent
  let mantissa := roundDiv n d
  let rounded : Magnitude :=
    if mantissa = 1 <<< format.precision then ⟨1 <<< (format.precision - 1), exponent + 1⟩
    else ⟨mantissa, exponent⟩
  if format.greatest < rounded.exponent then none else some rounded

end BinaryFormat

/-- A finite binary64 number: the eleven bits below the sign are not all set. -/
structure Double where
  bits : UInt64
  finite : (bits >>> 52) &&& 0x7FF ≠ 0x7FF
deriving DecidableEq

namespace Double

/-- The weight of the sign bit. -/
def signBit : Nat := 1 <<< 63

/-- The weight of the bit that stands before the fraction of a normal number. -/
def leadingBit : Nat := 1 <<< 52

def ofBits? (bits : UInt64) : Option Double :=
  if finite : (bits >>> 52) &&& 0x7FF ≠ 0x7FF then some ⟨bits, finite⟩ else none

def negative (x : Double) : Bool :=
  signBit ≤ x.bits.toNat

/-- The distance from zero. -/
def magnitude (x : Double) : Magnitude :=
  let body := x.bits.toNat % signBit
  let fraction := body % leadingBit
  match body / leadingBit with
  | 0 => ⟨fraction, -1074⟩
  | e + 1 => ⟨leadingBit + fraction, (e : Int) - 1074⟩

/-- Both zeros are zero. -/
def isZero (x : Double) : Bool :=
  x.bits.toNat % signBit == 0

/-- Equality of the numbers, where the two zeros are equal. -/
def same (x y : Double) : Bool :=
  x.bits == y.bits || (x.isZero && y.isZero)

/-- The number with the given sign and a magnitude of the binary64 format. -/
def ofMagnitude? (negative : Bool) (x : Magnitude) : Option Double :=
  let body := (x.exponent + 1074).toNat * leadingBit + x.mantissa
  ofBits? (UInt64.ofNat (if negative then signBit + body else body))

/-- The nearest number to a ratio; none if it would not be finite. -/
def ofRatio? (negative : Bool) (num den : Nat) : Option Double :=
  (BinaryFormat.double.nearest num den).bind (ofMagnitude? negative)

/-- The nearest number to an integer. -/
def ofInt? (n : Int) : Option Double :=
  ofRatio? (n < 0) n.natAbs 1

/-- The nearest number to `digits * 10 ^ exponent`. Far outside the range of the format the answer does
not depend on the digits, and no power of ten is formed. -/
def ofDecimal? (negative : Bool) (digits : Nat) (exponent : Int) : Option Double :=
  if digits = 0 then ofRatio? negative 0 1 else
  let order := exponent + (Nat.toDigits 10 digits).length
  if 400 < order then none
  else if order < -400 then ofRatio? negative 0 1
  else match exponent with
    | .ofNat e => ofRatio? negative (digits * Nat.pow 10 e) 1
    | .negSucc e => ofRatio? negative digits (Nat.pow 10 (e + 1))

/-- The number rounded to single precision and widened again. -/
def toSingle? (x : Double) : Option Double :=
  let (num, den) := x.magnitude.ratio
  (BinaryFormat.single.nearest num den).bind fun narrow =>
    let (num, den) := narrow.ratio
    ofRatio? x.negative num den

/-- The sum, rounded once. -/
def add? (x y : Double) : Option Double :=
  let signed (z : Double) : Int × Nat :=
    let (num, den) := z.magnitude.ratio
    (if z.negative then -(num : Int) else num, den)
  let (a, b) := signed x
  let (c, d) := signed y
  let sum := a * d + c * b
  ofRatio? (sum < 0 || (x.negative && y.negative)) sum.natAbs (b * d)

end Double

end QueryTerms
