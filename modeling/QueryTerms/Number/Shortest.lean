import QueryTerms.Number.Double

/-! The shortest decimal that reads back as a given binary64 number. For one digit, two digits and so on,
the two neighbours of the number on that decimal grid are tried; the first grid with a neighbour inside
the interval that rounds to the number wins, and of two such neighbours the nearer one. -/

namespace QueryTerms

/-- The number `digits * 10 ^ exponent`. -/
structure Decimal where
  digits : Nat
  exponent : Int
deriving DecidableEq, Repr

namespace Shortest

/-- How many decimal digits a number has; none for zero. -/
def digitCount (n : Nat) : Nat :=
  if n = 0 then 0 else (Nat.toDigits 10 n).length

/-- The greatest `e` with `10 ^ e ≤ num / den`, for positive `num` and `den`. -/
def decimalOrder (num den : Nat) : Int :=
  if den ≤ num then (digitCount (num / den) : Int) - 1
  else -(digitCount ((den - 1) / num) : Int)

/-- `10 ^ exponent` as a numerator and a denominator. -/
def powerOfTen : Int → Nat × Nat
  | .ofNat e => (Nat.pow 10 e, 1)
  | .negSucc e => (1, Nat.pow 10 (e + 1))

/-- The decimal with `count` digits that rounds to the number `x`, if there is one. The comparison is
carried out in quarters of the last bit: the interval reaches half a bit to each side, but only a quarter
downwards where the spacing changes, and its ends count exactly when the mantissa is even. -/
def onGrid (x : Magnitude) (count : Nat) : Option Decimal :=
  let (num, den) := x.ratio
  let exponent := decimalOrder num den - count + 1
  let (unitNum, unitDen) := (⟨1, x.exponent - 2⟩ : Magnitude).ratio
  let (gridNum, gridDen) := powerOfTen exponent
  let bit := unitNum * gridDen
  let grid := gridNum * unitDen
  let value := 4 * x.mantissa * bit
  let low := (4 * x.mantissa - (if x.mantissa = Double.leadingBit ∧ -1074 < x.exponent then 1 else 2)) * bit
  let high := (4 * x.mantissa + 2) * bit
  let inside (c : Nat) : Bool :=
    if x.mantissa % 2 = 0 then low ≤ c * grid && c * grid ≤ high else low < c * grid && c * grid < high
  let below := value / grid
  let toBelow := value - below * grid
  let toAbove := (below + 1) * grid - value
  match inside below, inside (below + 1) with
  | false, false => none
  | true, false => some ⟨below, exponent⟩
  | false, true => some ⟨below + 1, exponent⟩
  | true, true =>
    if toBelow < toAbove ∨ (toBelow = toAbove ∧ below % 2 = 0) then some ⟨below, exponent⟩
    else some ⟨below + 1, exponent⟩

/-- Seventeen digits always suffice. -/
def ofMagnitude (x : Magnitude) : Decimal :=
  ((List.range' 1 17).findSome? (onGrid x)).getD ⟨0, 0⟩

end Shortest

/-- How a number is written: positionally while the order of its first digit lies between two limits, in
scientific notation otherwise. -/
structure DecimalFormat where
  least : Int
  greatest : Int

namespace DecimalFormat

/-- Significant digits without trailing zeros, and the order of the first one. -/
def significant (x : Decimal) : List Char × Int :=
  let digits := Nat.toDigits 10 x.digits
  let kept := (digits.reverse.dropWhile (· == '0')).reverse
  (kept, x.exponent + digits.length - 1)

/-- At least one digit stands on each side of the point. -/
def positional (digits : List Char) (order : Int) : List Char :=
  match order with
  | .ofNat e =>
    let whole := digits.take (e + 1) ++ List.replicate (e + 1 - digits.length) '0'
    let rest := digits.drop (e + 1)
    whole ++ '.' :: (if rest.isEmpty then ['0'] else rest)
  | .negSucc e => '0' :: '.' :: (List.replicate e '0' ++ digits)

/-- One digit stands before the point, which is left out with no digit after it; the exponent always has
a sign and is not padded. -/
def scientific (digits : List Char) (order : Int) : List Char :=
  let sign := if order < 0 then '-' else '+'
  let exponent := 'e' :: sign :: Nat.toDigits 10 order.natAbs
  match digits with
  | [] => exponent
  | [d] => d :: exponent
  | d :: rest => d :: '.' :: rest ++ exponent

def write (format : DecimalFormat) (x : Double) : List Char :=
  let body :=
    if x.isZero then ['0', '.', '0'] else
    let (digits, order) := significant (Shortest.ofMagnitude x.magnitude)
    if format.least ≤ order ∧ order ≤ format.greatest then positional digits order
    else scientific digits order
  if x.negative then '-' :: body else body

end DecimalFormat

end QueryTerms
