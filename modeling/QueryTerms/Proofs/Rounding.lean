import QueryTerms.Number.Double
import Mathlib.Data.Rat.Floor
import Mathlib.Tactic.FieldSimp
import Mathlib.Tactic.Linarith
import Mathlib.Tactic.NormNum
import Mathlib.Tactic.Positivity
import Mathlib.Tactic.Ring

/-! Floating-point numbers as rational ones. A ratio is divided by the weight of the last bit that it leaves to a
mantissa, and the quotient is rounded to an integer. The result is nearest to the ratio: numbers with the same or a
greater weight are integers in its units, and numbers with a smaller weight lie below all mantissas with a full number
of bits. -/

namespace QueryTerms

private theorem two_zpow_pos (e : Int) : (0 : ℚ) < 2 ^ e := zpow_pos (by norm_num) e

private theorem two_zpow_add (e f : Int) : (2 : ℚ) ^ (e + f) = 2 ^ e * 2 ^ f := zpow_add₀ (by norm_num) e f

private theorem abs_scaled {u : ℚ} (positive : 0 < u) (a q : ℚ) : |a * u - q| = |a - q / u| * u := by
  rw [← abs_of_pos positive, ← abs_mul, abs_of_pos positive, sub_mul, div_mul_cancel₀ q positive.ne']

/-- As an approximation of `q` the number `x` is preferred to `y`: it is nearer, or it is as near and even. -/
def Prefers (even : Prop) (q x y : ℚ) : Prop :=
  y = x ∨ |x - q| < |y - q| ∨ |x - q| = |y - q| ∧ even

namespace Prefers

variable {even : Prop} {q x y z u : ℚ}

theorem le (prefers : Prefers even q x y) : |x - q| ≤ |y - q| := by
  rcases prefers with rfl | nearer | ⟨same, -⟩
  · exact le_rfl
  · exact nearer.le
  · exact same.le

theorem mono {even' : Prop} (implies : even → even') (prefers : Prefers even q x y) : Prefers even' q x y :=
  prefers.imp_right (Or.imp_right (And.imp_right implies))

theorem trans_below (prefers : Prefers even q x y) (less : z < y) (below : y ≤ q) : Prefers even q x z := by
  have farther : |y - q| < |z - q| := by
    rw [abs_of_nonpos (by linarith), abs_of_nonpos (by linarith)]
    linarith
  exact .inr (.inl (prefers.le.trans_lt farther))

theorem scale (positive : 0 < u) (prefers : Prefers even (q / u) x y) : Prefers even q (x * u) (y * u) := by
  rw [Prefers, abs_scaled positive, abs_scaled positive, mul_lt_mul_iff_left₀ positive, mul_left_inj' positive.ne',
    mul_left_inj' positive.ne']
  exact prefers

theorem neg (prefers : Prefers even q x y) : Prefers even (-q) (-x) (-y) := by
  have distance (a : ℚ) : |-a - -q| = |a - q| := by
    rw [← abs_neg, neg_sub, sub_neg_eq_add, add_comm, ← sub_eq_add_neg]
  rw [Prefers, distance, distance, neg_inj]
  exact prefers

private theorem le_upper (prefers : Prefers even q x y) (below : q ≤ y) : x ≤ y := by
  have nearer := prefers.le
  by_contra beyond
  rw [abs_of_nonneg (sub_nonneg.mpr below), abs_of_nonneg (by linarith)] at nearer
  linarith

private theorem lower_le (prefers : Prefers even q x y) (above : y ≤ q) : y ≤ x := by
  have nearer := prefers.le
  by_contra beyond
  rw [abs_of_nonpos (sub_nonpos.mpr above), abs_of_nonpos (by linarith)] at nearer
  linarith

end Prefers

private theorem roundDiv_bounds (num : Nat) {den : Nat} (positive : 0 < den) :
    2 * num ≤ 2 * (roundDiv num den * den) + den ∧ 2 * (roundDiv num den * den) ≤ 2 * num + den ∧
      (2 * num = 2 * (roundDiv num den * den) + den ∨ 2 * (roundDiv num den * den) = 2 * num + den →
        roundDiv num den % 2 = 0) := by
  have whole := Nat.div_add_mod num den
  have rest := Nat.mod_lt num positive
  rw [Nat.mul_comm] at whole
  unfold roundDiv
  simp only
  split
  next below => omega
  next above =>
    rw [Nat.add_mul, Nat.one_mul]
    omega

theorem roundDiv_prefers {num den : Nat} (positive : 0 < den) (k : Int) :
    Prefers (roundDiv num den % 2 = 0) (num / den) (roundDiv num den) k := by
  obtain ⟨low, high, tie⟩ := roundDiv_bounds num positive
  have unit : (0 : ℚ) < den := by exact_mod_cast positive
  have distance (a : Int) : |(a : ℚ) - num / den| = ((a * den - num).natAbs : ℚ) / den := by
    rw [Nat.cast_natAbs, ← abs_of_pos unit, Int.cast_abs, ← abs_div, abs_of_pos unit]
    push_cast
    rw [sub_div, mul_div_cancel_right₀ (a : ℚ) unit.ne']
  rw [← Int.cast_natCast (roundDiv num den), Prefers, distance, distance, div_lt_div_iff_of_pos_right unit,
    div_left_inj' unit.ne', Int.cast_inj, Nat.cast_lt, Nat.cast_inj]
  generalize roundDiv num den = n at *
  have product : ((n * den : Nat) : Int) = n * den := by push_cast; rfl
  rcases Int.lt_trichotomy k n with below | same | above
  · have apart : (k + 1) * den ≤ n * den := Int.mul_le_mul_of_nonneg_right below (by omega)
    rw [Int.add_mul, Int.one_mul] at apart
    omega
  · exact .inl same
  · have apart : (n + 1) * den ≤ k * den := Int.mul_le_mul_of_nonneg_right above (by omega)
    rw [Int.add_mul, Int.one_mul] at apart
    omega

namespace Magnitude

def value (x : Magnitude) : ℚ :=
  x.mantissa * 2 ^ x.exponent

private theorem value_nonneg (x : Magnitude) : 0 ≤ x.value :=
  mul_nonneg (Nat.cast_nonneg _) (two_zpow_pos _).le

private theorem ratio_pos (x : Magnitude) : 0 < x.ratio.2 := by
  obtain ⟨mantissa, exponent⟩ := x
  cases exponent with
  | ofNat e => exact Nat.one_pos
  | negSucc e => simp [ratio, Nat.shiftLeft_eq]

private theorem ratio_value (x : Magnitude) : (x.ratio.1 / x.ratio.2 : ℚ) = x.value := by
  obtain ⟨mantissa, exponent⟩ := x
  cases exponent with
  | ofNat e => simp [ratio, value, Nat.shiftLeft_eq]
  | negSucc e => simp [ratio, value, Nat.shiftLeft_eq, div_eq_mul_inv]

end Magnitude

namespace BinaryFormat

variable (format : BinaryFormat) {num den : Nat}

private theorem scale_pos (positive : 0 < den) (e : Int) : 0 < (scale num den e).2 := by
  cases e with
  | ofNat e => simp [scale, Nat.shiftLeft_eq, positive]
  | negSucc e => exact positive

private theorem scale_ratio (num den : Nat) (e : Int) :
    ((scale num den e).1 / (scale num den e).2 : ℚ) = num / den / 2 ^ e := by
  cases e with
  | ofNat e => simp [scale, Nat.shiftLeft_eq, div_div]
  | negSucc e => simp [scale, Nat.shiftLeft_eq, div_eq_mul_inv, mul_right_comm]

private theorem log2_bounds {n : Nat} (positive : 0 < n) :
    (2 : ℚ) ^ (n.log2 : Int) ≤ n ∧ (n : ℚ) < 2 ^ (n.log2 + 1 : Int) := by
  constructor
  · rw [zpow_natCast]
    exact_mod_cast Nat.log2_self_le positive.ne'
  · rw [← Nat.cast_add_one, zpow_natCast]
    exact_mod_cast Nat.lt_log2_self

theorem binaryOrder_bounds (positive : 0 < num) (denPositive : 0 < den) :
    (2 : ℚ) ^ binaryOrder num den ≤ num / den ∧ (num / den : ℚ) < 2 ^ (binaryOrder num den + 1) := by
  have unit : (0 : ℚ) < den := by exact_mod_cast denPositive
  obtain ⟨numLow, numHigh⟩ := log2_bounds positive
  obtain ⟨denLow, denHigh⟩ := log2_bounds denPositive
  have upper : (num / den : ℚ) < 2 ^ ((num.log2 : Int) - den.log2 + 1) := by
    rw [div_lt_iff₀ unit]
    calc (num : ℚ) < 2 ^ (num.log2 + 1 : Int) := numHigh
      _ = 2 ^ ((num.log2 : Int) - den.log2 + 1) * 2 ^ (den.log2 : Int) := by
        rw [← two_zpow_add]
        congr 1
        omega
      _ ≤ _ := mul_le_mul_of_nonneg_left denLow (two_zpow_pos _).le
  have lower : (2 : ℚ) ^ ((num.log2 : Int) - den.log2 - 1) ≤ num / den := by
    rw [le_div_iff₀ unit]
    calc (2 : ℚ) ^ ((num.log2 : Int) - den.log2 - 1) * den
        ≤ 2 ^ ((num.log2 : Int) - den.log2 - 1) * 2 ^ (den.log2 + 1 : Int) :=
          mul_le_mul_of_nonneg_left denHigh.le (two_zpow_pos _).le
      _ = 2 ^ (num.log2 : Int) := by
        rw [← two_zpow_add]
        congr 1
        omega
      _ ≤ num := numLow
  have guess := scale_ratio num den ((num.log2 : Int) - den.log2)
  have guessPos : (0 : ℚ) < (scale num den ((num.log2 : Int) - den.log2)).2 := by exact_mod_cast scale_pos denPositive _
  have weight := two_zpow_pos ((num.log2 : Int) - den.log2)
  unfold binaryOrder
  simp only
  split
  next reached =>
    refine ⟨?_, upper⟩
    rw [← one_mul ((2 : ℚ) ^ _), ← le_div_iff₀ weight, ← guess, le_div_iff₀ guessPos, one_mul]
    exact_mod_cast reached
  next missed =>
    refine ⟨lower, ?_⟩
    rw [Int.sub_add_cancel, ← one_mul ((2 : ℚ) ^ _), ← div_lt_iff₀ weight, ← guess, div_lt_iff₀ guessPos, one_mul]
    exact_mod_cast Nat.lt_of_not_le missed

/-- The exponent of the last bit that the format keeps of a ratio. -/
def lastBit (format : BinaryFormat) (num den : Nat) : Int :=
  max format.least (binaryOrder num den - format.precision + 1)

/-- A ratio in units of the last bit that is kept of it, rounded. -/
def units (format : BinaryFormat) (num den : Nat) : Nat :=
  roundDiv (scale num den (format.lastBit num den)).1 (scale num den (format.lastBit num den)).2

/-- The units as a number of the format. They may have a bit more than a mantissa. -/
def rounded (format : BinaryFormat) (num den : Nat) : Magnitude :=
  if format.units num den = 1 <<< format.precision then
    ⟨1 <<< (format.precision - 1), format.lastBit num den + 1⟩
  else ⟨format.units num den, format.lastBit num den⟩

private theorem nearest_eq (nonzero : num ≠ 0) :
    format.nearest num den =
      if format.greatest < (format.rounded num den).exponent then none else some (format.rounded num den) := by
  rw [nearest, if_neg nonzero]
  rfl

private theorem nearest_cases {m : Magnitude} (found : format.nearest num den = some m) :
    num = 0 ∧ m = ⟨0, format.least⟩ ∨ 0 < num ∧ m = format.rounded num den ∧ m.exponent ≤ format.greatest := by
  by_cases zero : num = 0
  · rw [nearest, if_pos zero] at found
    exact .inl ⟨zero, (Option.some.inj found).symm⟩
  · rw [nearest_eq format zero] at found
    split at found
    next => cases found
    next inside =>
      obtain rfl := Option.some.inj found
      exact .inr ⟨Nat.pos_of_ne_zero zero, rfl, Int.not_lt.mp inside⟩

private theorem units_prefers (num : Nat) (positive : 0 < den) (k : Int) :
    Prefers (format.units num den % 2 = 0) (num / den / 2 ^ format.lastBit num den) (format.units num den) k := by
  rw [← scale_ratio]
  exact roundDiv_prefers (scale_pos positive _) k

private theorem rounded_cases (num den : Nat) :
    format.units num den = 2 ^ format.precision ∧
        format.rounded num den = ⟨2 ^ (format.precision - 1), format.lastBit num den + 1⟩ ∨
      format.units num den ≠ 2 ^ format.precision ∧
        format.rounded num den = ⟨format.units num den, format.lastBit num den⟩ := by
  simp only [rounded, Nat.one_shiftLeft]
  split
  next carried => exact .inl ⟨carried, rfl⟩
  next fits => exact .inr ⟨fits, rfl⟩

private theorem rounded_value (num den : Nat) (bits : 1 < format.precision) :
    (format.rounded num den).value = format.units num den * 2 ^ format.lastBit num den := by
  obtain ⟨p, same⟩ := Nat.exists_eq_add_of_lt bits
  rcases format.rounded_cases num den with ⟨carried, made⟩ | ⟨-, made⟩
  · rw [made, carried, same, Magnitude.value, Nat.add_sub_cancel, two_zpow_add, Nat.pow_succ]
    push_cast
    ring
  · rw [made, Magnitude.value]

private theorem rounded_even (bits : 1 < format.precision) (even : format.units num den % 2 = 0) :
    (format.rounded num den).mantissa % 2 = 0 := by
  obtain ⟨p, same⟩ := Nat.exists_eq_add_of_lt bits
  rcases format.rounded_cases num den with ⟨-, made⟩ | ⟨-, made⟩
  · rw [made, same, Nat.add_sub_cancel, Nat.add_comm, Nat.pow_succ]
    exact Nat.mul_mod_left _ 2
  · rw [made]
    exact even

private theorem cast_two_pow (p : Nat) (e : Int) : ((2 ^ p : Nat) * 2 ^ e : ℚ) = 2 ^ (p + e) := by
  rw [Nat.cast_pow, Nat.cast_ofNat, ← zpow_natCast, two_zpow_add]

/-- Without the bound on its exponent a ratio would have all bits of a mantissa. -/
private theorem full_le (bits : 0 < format.precision) (positive : 0 < num) (denPositive : 0 < den)
    (above : format.lastBit num den ≠ format.least) :
    ((2 ^ (format.precision - 1) : Nat) * 2 ^ format.lastBit num den : ℚ) ≤ num / den := by
  have order : ((format.precision - 1 : Nat) : Int) + format.lastBit num den = binaryOrder num den := by
    unfold lastBit at above ⊢
    omega
  rw [cast_two_pow, order]
  exact (binaryOrder_bounds positive denPositive).1

private theorem lt_carried (positive : 0 < num) (denPositive : 0 < den) :
    (num / den : ℚ) < (2 ^ format.precision : Nat) * 2 ^ format.lastBit num den := by
  refine (binaryOrder_bounds positive denPositive).2.trans_le ?_
  rw [cast_two_pow]
  apply zpow_le_zpow_right₀ (by norm_num)
  unfold lastBit
  omega

private theorem units_le (positive : 0 < num) (denPositive : 0 < den) :
    format.units num den ≤ 2 ^ format.precision := by
  have below := (div_lt_iff₀ (two_zpow_pos _)).mpr (lt_carried format positive denPositive)
  have units := (units_prefers format num denPositive ((2 ^ format.precision : Nat) : Int)).le_upper below.le
  exact_mod_cast units

private theorem le_units (bits : 0 < format.precision) (positive : 0 < num) (denPositive : 0 < den)
    (above : format.lastBit num den ≠ format.least) : 2 ^ (format.precision - 1) ≤ format.units num den := by
  have full := (le_div_iff₀ (two_zpow_pos _)).mpr (full_le format bits positive denPositive above)
  have units := (units_prefers format num denPositive ((2 ^ (format.precision - 1) : Nat) : Int)).lower_le full
  exact_mod_cast units

/-- A number of the format: its mantissa has all bits unless its exponent is the least one. -/
structure Holds (m : Magnitude) : Prop where
  short : m.mantissa < 2 ^ format.precision
  full : 2 ^ (format.precision - 1) ≤ m.mantissa ∨ m.exponent = format.least
  least : format.least ≤ m.exponent
  greatest : m.exponent ≤ format.greatest

variable {format}

private theorem rounded_holds (bits : 1 < format.precision) (positive : 0 < num) (denPositive : 0 < den)
    (inside : (format.rounded num den).exponent ≤ format.greatest) : format.Holds (format.rounded num den) := by
  have most := format.units_le positive denPositive
  have bit : format.least ≤ format.lastBit num den := Int.le_max_left _ _
  rcases format.rounded_cases num den with ⟨-, made⟩ | ⟨fits, made⟩ <;> rw [made] at inside ⊢
  · exact ⟨Nat.pow_lt_pow_right (by decide) (by omega), .inl (Nat.le_refl _), by simp only; omega, inside⟩
  · refine ⟨Nat.lt_of_le_of_ne most fits, ?_, bit, inside⟩
    exact or_iff_not_imp_right.mpr (format.le_units (by omega) positive denPositive)

/-- A ratio is rounded to a number of the format. -/
private theorem nearest_holds {m : Magnitude} (bits : 1 < format.precision) (range : format.least ≤ format.greatest)
    (denPositive : 0 < den) (found : format.nearest num den = some m) : format.Holds m := by
  rcases format.nearest_cases found with ⟨-, rfl⟩ | ⟨positive, rfl, inside⟩
  · exact ⟨Nat.two_pow_pos _, .inr rfl, Int.le_refl _, range⟩
  · exact rounded_holds bits positive denPositive inside

private theorem exists_nearest (format : BinaryFormat) (range : format.least < format.greatest) (denPositive : 0 < den)
    (small : (num / den : ℚ) < 2 ^ (format.greatest + format.precision - 1)) :
    ∃ m, format.nearest num den = some m := by
  by_cases zero : num = 0
  · exact ⟨_, by rw [nearest, if_pos zero]⟩
  · have order : binaryOrder num den < format.greatest + format.precision - 1 := by
      apply (zpow_lt_zpow_iff_right₀ (by norm_num : (1 : ℚ) < 2)).mp
      exact (binaryOrder_bounds (Nat.pos_of_ne_zero zero) denPositive).1.trans_lt small
    have inside : ¬ format.greatest < (format.rounded num den).exponent := by
      have bit : format.lastBit num den < format.greatest := by
        unfold lastBit
        omega
      rcases format.rounded_cases num den with ⟨-, made⟩ | ⟨-, made⟩ <;> rw [made] <;> simp only <;> omega
    exact ⟨_, by rw [format.nearest_eq zero, if_neg inside]⟩

private theorem rounded_prefers (bits : 1 < format.precision) (num : Nat) (denPositive : 0 < den) (k : Int) :
    Prefers ((format.rounded num den).mantissa % 2 = 0) (num / den) (format.rounded num den).value
      (k * 2 ^ format.lastBit num den) := by
  rw [format.rounded_value num den bits]
  exact ((format.units_prefers num denPositive k).scale (two_zpow_pos _)).mono (format.rounded_even bits)

/-- A number with a smaller last bit lies below the mantissas that have all bits. -/
private theorem lt_full {k : Nat} {e bit : Int} (bits : 1 < format.precision) (short : k < 2 ^ format.precision)
    (smaller : e < bit) : (k * 2 ^ e : ℚ) < (2 ^ (format.precision - 1) : Nat) * 2 ^ bit := by
  have mantissa : (k : ℚ) < (2 ^ format.precision : Nat) := by exact_mod_cast short
  calc (k * 2 ^ e : ℚ) < (2 ^ format.precision : Nat) * 2 ^ e := mul_lt_mul_of_pos_right mantissa (two_zpow_pos e)
    _ ≤ (2 ^ (format.precision - 1) : Nat) * 2 ^ bit := by
      rw [cast_two_pow, cast_two_pow]
      exact zpow_le_zpow_right₀ (by norm_num) (by omega)

/-- No number with the bits of the format is a better approximation of a ratio. -/
theorem nearest_prefers {m : Magnitude} (bits : 1 < format.precision) (denPositive : 0 < den)
    (found : format.nearest num den = some m) {y : ℚ} {k : Nat} {e : Int} (size : |y| = k * 2 ^ e)
    (short : k < 2 ^ format.precision) (least : format.least ≤ e) :
    Prefers (m.mantissa % 2 = 0) (num / den) m.value y := by
  rcases format.nearest_cases found with ⟨rfl, rfl⟩ | ⟨positive, rfl, -⟩
  · rw [Magnitude.value, Nat.cast_zero, zero_mul, zero_div, Prefers, sub_zero, sub_zero, abs_zero, abs_pos]
    exact (Classical.em (y = 0)).imp_right .inl
  · have multiples := rounded_prefers bits num denPositive
    rcases lt_or_ge y 0 with negative | nonneg
    · have zero := multiples 0
      rw [Int.cast_zero, zero_mul] at zero
      exact zero.trans_below negative (by positivity)
    · rw [abs_of_nonneg nonneg] at size
      by_cases grid : format.lastBit num den ≤ e
      · obtain ⟨n, rfl⟩ := Int.le.dest grid
        have whole : y = ((k * 2 ^ n : Nat) : Int) * 2 ^ format.lastBit num den := by
          rw [size, two_zpow_add, zpow_natCast]
          push_cast
          ring
        exact whole ▸ multiples _
      · have below : y < _ := size ▸ lt_full bits short (Int.not_le.mp grid)
        have full := format.full_le (by omega) positive denPositive (fun same => grid (same ▸ least))
        exact (multiples ((2 ^ (format.precision - 1) : Nat) : Int)).trans_below below full

end BinaryFormat

namespace Double

def value (x : Double) : ℚ :=
  if x.negative then -x.magnitude.value else x.magnitude.value

/-- The number is the rounding of `q`: no other one is nearer, and its mantissa is even if another one is as near. -/
def Rounds (x : Double) (q : ℚ) : Prop :=
  ∀ y : Double, Prefers (x.magnitude.mantissa % 2 = 0) q x.value y.value

private theorem exponent_bits (bits : UInt64) : ((bits >>> 52) &&& 0x7FF).toNat = bits.toNat / 2 ^ 52 % 2 ^ 11 := by
  rw [UInt64.toNat_and, UInt64.toNat_shiftRight, Nat.shiftRight_eq_div_pow]
  exact Nat.and_two_pow_sub_one_eq_mod _ 11

private theorem ofBits?_eq_some {n : Nat} (small : n < 2 ^ 64) (finite : n / 2 ^ 52 % 2 ^ 11 ≠ 2047) :
    ∃ x, ofBits? (UInt64.ofNat n) = some x ∧ x.bits.toNat = n := by
  have same : (UInt64.ofNat n).toNat = n := UInt64.toNat_ofNat_of_lt' small
  have inside : (UInt64.ofNat n >>> 52) &&& 0x7FF ≠ 0x7FF := by
    intro equal
    apply finite
    rw [← same, ← exponent_bits, equal]
    rfl
  exact ⟨⟨UInt64.ofNat n, inside⟩, by rw [ofBits?, dif_pos inside], same⟩

private theorem leadingBit_eq : leadingBit = 4503599627370496 := rfl

private theorem signBit_eq : signBit = 9223372036854775808 := rfl

private theorem magnitude_eq {x : Double} {m : Magnitude} (holds : BinaryFormat.double.Holds m)
    (body : x.bits.toNat % signBit = (m.exponent + 1074).toNat * leadingBit + m.mantissa) : x.magnitude = m := by
  obtain ⟨short, full, least, -⟩ := holds
  obtain ⟨mantissa, exponent⟩ := m
  simp only [BinaryFormat.double] at short full least body
  rw [magnitude]
  simp only [body, leadingBit_eq]
  split
  next subnormal =>
    rw [Magnitude.mk.injEq]
    omega
  next e normal =>
    rw [Magnitude.mk.injEq]
    omega

private theorem ofMagnitude?_eq_some {m : Magnitude} (holds : BinaryFormat.double.Holds m) (negative : Bool) :
    ∃ x, ofMagnitude? negative m = some x ∧ x.negative = negative ∧ x.magnitude = m := by
  have short : m.mantissa < 2 ^ 53 := holds.short
  have greatest : m.exponent ≤ 971 := holds.greatest
  have body : (m.exponent + 1074).toNat * leadingBit + m.mantissa < 2047 * leadingBit := by
    rw [leadingBit_eq]
    omega
  unfold ofMagnitude?
  generalize made : (m.exponent + 1074).toNat * leadingBit + m.mantissa = n at body
  rw [leadingBit_eq] at body
  cases negative with
  | false =>
    obtain ⟨x, found, same⟩ := ofBits?_eq_some (show n < 2 ^ 64 by omega) (by omega)
    refine ⟨x, found, ?_, magnitude_eq holds ?_⟩
    · rw [Double.negative, same, signBit_eq, decide_eq_false_iff_not]
      omega
    · rw [made, same, signBit_eq]
      omega
  | true =>
    obtain ⟨x, found, same⟩ := ofBits?_eq_some (show signBit + n < 2 ^ 64 by rw [signBit_eq]; omega)
      (by rw [signBit_eq]; omega)
    refine ⟨x, found, ?_, magnitude_eq holds ?_⟩
    · rw [Double.negative, same, signBit_eq, decide_eq_true_iff]
      omega
    · rw [made, same, signBit_eq]
      omega

private theorem magnitude_bits (x : Double) : x.magnitude.mantissa < 2 ^ 53 ∧ -1074 ≤ x.magnitude.exponent := by
  rw [magnitude]
  simp only [leadingBit_eq]
  split
  · simp only
    omega
  · simp only
    omega

private theorem abs_value (x : Double) : |x.value| = x.magnitude.mantissa * 2 ^ x.magnitude.exponent := by
  rw [value]
  split
  · rw [abs_neg, abs_of_nonneg x.magnitude.value_nonneg, Magnitude.value]
  · rw [abs_of_nonneg x.magnitude.value_nonneg, Magnitude.value]

variable {x : Double} {q : ℚ}

private theorem ofRatio?_eq_some {negative : Bool} {num den : Nat} (positive : 0 < den)
    (found : ofRatio? negative num den = some x) :
    BinaryFormat.double.nearest num den = some x.magnitude ∧ x.negative = negative := by
  obtain ⟨m, near, made⟩ := Option.bind_eq_some_iff.mp found
  have holds := BinaryFormat.nearest_holds (by decide) (by decide) positive near
  obtain ⟨x', made', sign, same⟩ := ofMagnitude?_eq_some holds negative
  obtain rfl := Option.some.inj (made.symm.trans made')
  exact ⟨by rw [same, near], sign⟩

theorem exists_ofRatio? (negative : Bool) {num den : Nat} (positive : 0 < den)
    (small : (num / den : ℚ) < 2 ^ (1023 : Int)) :
    ∃ x, ofRatio? negative num den = some x := by
  obtain ⟨m, near⟩ := BinaryFormat.exists_nearest .double (by decide) positive small
  have holds := BinaryFormat.nearest_holds (by decide) (by decide) positive near
  obtain ⟨x, made, -⟩ := ofMagnitude?_eq_some holds negative
  exact ⟨x, by rw [ofRatio?, near, Option.bind_some, made]⟩

theorem ofRatio?_rounds {negative : Bool} {num den : Nat} (positive : 0 < den)
    (found : ofRatio? negative num den = some x) : x.Rounds (if negative then -(num / den) else num / den) := by
  obtain ⟨near, sign⟩ := ofRatio?_eq_some positive found
  intro y
  obtain ⟨short, least⟩ := y.magnitude_bits
  rw [value, sign]
  cases negative with
  | false => exact BinaryFormat.nearest_prefers (by decide) positive near y.abs_value short least
  | true =>
    have size : |-y.value| = _ := (abs_neg y.value).trans y.abs_value
    have mirrored := (BinaryFormat.nearest_prefers (by decide) positive near size short least).neg
    rwa [neg_neg] at mirrored

private theorem Rounds.value_eq {y : Double} (rounds : x.Rounds y.value) : x.value = y.value := by
  have nearest := (rounds y).le
  rw [sub_self, abs_zero] at nearest
  exact sub_eq_zero.mp (abs_nonpos_iff.mp nearest)

private theorem signed_natAbs {n : Int} {negative : Bool} (below : negative = true → n ≤ 0)
    (above : negative = false → 0 ≤ n) (u : ℚ) :
    (if negative then -(n.natAbs * u) else n.natAbs * u) = n * u := by
  rw [Nat.cast_natAbs, Int.cast_abs]
  cases negative with
  | false => rw [abs_of_nonneg (by exact_mod_cast above rfl), if_neg Bool.false_ne_true]
  | true => rw [abs_of_nonpos (by exact_mod_cast below rfl), if_pos rfl, neg_mul, neg_neg]

/-- Integers of 53 bits times a power of two are numbers of the format. -/
theorem exists_value {k e : Int} (short : k.natAbs < 2 ^ 53) (least : -1074 ≤ e) (greatest : e ≤ 970) :
    ∃ x : Double, x.value = k * 2 ^ e := by
  have positive := (⟨k.natAbs, e⟩ : Magnitude).ratio_pos
  have ratio := (⟨k.natAbs, e⟩ : Magnitude).ratio_value
  rw [Magnitude.value] at ratio
  have mantissa : (k.natAbs : ℚ) < 2 ^ (53 : Int) := by exact_mod_cast short
  have small : (k.natAbs * 2 ^ e : ℚ) < 2 ^ (1023 : Int) := by
    calc (k.natAbs * 2 ^ e : ℚ) < 2 ^ (53 : Int) * 2 ^ e := mul_lt_mul_of_pos_right mantissa (two_zpow_pos e)
      _ = 2 ^ (53 + e) := (two_zpow_add 53 e).symm
      _ ≤ 2 ^ (1023 : Int) := zpow_le_zpow_right₀ (by norm_num) (by omega)
  obtain ⟨x, found⟩ := exists_ofRatio? (k < 0) positive (ratio.trans_lt small)
  obtain ⟨near, sign⟩ := ofRatio?_eq_some positive found
  have size : |(k.natAbs * 2 ^ e : ℚ)| = k.natAbs * 2 ^ e := abs_of_nonneg (Magnitude.value_nonneg ⟨k.natAbs, e⟩)
  have nearest := (BinaryFormat.nearest_prefers (by decide) positive near size short least).le
  rw [ratio, sub_self, abs_zero] at nearest
  have exact : x.magnitude.value = k.natAbs * 2 ^ e := sub_eq_zero.mp (abs_nonpos_iff.mp nearest)
  refine ⟨x, ?_⟩
  rw [value, sign, exact]
  exact signed_natAbs (fun negative => (of_decide_eq_true negative).le)
    (fun other => not_lt.mp (of_decide_eq_false other)) _

/-- A number is off by half of its last bit at most. -/
theorem Rounds.error {e : Int} (rounds : x.Rounds q) (bound : |q| ≤ (2 ^ 53 - 1) * 2 ^ e) (least : -1074 ≤ e)
    (greatest : e ≤ 970) : |x.value - q| ≤ 2 ^ e / 2 := by
  have unit := two_zpow_pos e
  have half : |round (q / 2 ^ e) - q / 2 ^ e| ≤ 1 / 2 := by
    rw [abs_sub_comm]
    exact abs_sub_round _
  have size : |q / 2 ^ e| ≤ 2 ^ 53 - 1 := by
    rw [abs_div, abs_of_pos unit, div_le_iff₀ unit]
    exact bound
  have short : (round (q / 2 ^ e)).natAbs < 2 ^ 53 := by
    have distance := abs_sub_abs_le_abs_sub (round (q / 2 ^ e) : ℚ) (q / 2 ^ e)
    have bits : ((round (q / 2 ^ e)).natAbs : ℚ) < 2 ^ 53 := by
      rw [Nat.cast_natAbs, Int.cast_abs]
      linarith
    exact_mod_cast bits
  obtain ⟨y, same⟩ := exists_value short least greatest
  calc |x.value - q| ≤ |y.value - q| := (rounds y).le
    _ = |round (q / 2 ^ e) - q / 2 ^ e| * 2 ^ e := by rw [same, abs_scaled unit]
    _ ≤ 1 / 2 * 2 ^ e := mul_le_mul_of_nonneg_right half unit.le
    _ = 2 ^ e / 2 := by ring

private theorem ofRatio?_signed {n : Int} {negative : Bool} {den : Nat} (positive : 0 < den)
    (below : negative = true → n ≤ 0) (above : negative = false → 0 ≤ n) (small : |(n / den : ℚ)| < 2 ^ (1023 : Int)) :
    ∃ x, ofRatio? negative n.natAbs den = some x ∧ x.Rounds (n / den) := by
  have size : |(n / den : ℚ)| = n.natAbs / den := by rw [abs_div, Nat.abs_cast, Nat.cast_natAbs, Int.cast_abs]
  obtain ⟨x, found⟩ := exists_ofRatio? negative positive (size ▸ small)
  have rounds := ofRatio?_rounds positive found
  have signed := signed_natAbs below above (den : ℚ)⁻¹
  simp only [← div_eq_mul_inv] at signed
  rw [signed] at rounds
  exact ⟨x, found, rounds⟩

theorem ofInt?_exact {n : Int} (short : n.natAbs < 2 ^ 53) : ∃ x, ofInt? n = some x ∧ x.value = n := by
  have mantissa : (n.natAbs : ℚ) < 2 ^ (53 : Int) := by exact_mod_cast short
  have small : |(n / (1 : Nat) : ℚ)| < 2 ^ (1023 : Int) := by
    rw [Nat.cast_one, div_one, ← Int.cast_abs, ← Nat.cast_natAbs]
    exact mantissa.trans (zpow_lt_zpow_right₀ (by norm_num) (by decide))
  obtain ⟨x, found, rounds⟩ := ofRatio?_signed Nat.one_pos (fun negative => (of_decide_eq_true negative).le)
    (fun other => not_lt.mp (of_decide_eq_false other)) small
  obtain ⟨y, same⟩ := exists_value (e := 0) short (by decide) (by decide)
  rw [zpow_zero, mul_one] at same
  rw [Nat.cast_one, div_one, ← same] at rounds
  exact ⟨x, found, rounds.value_eq.trans same⟩

/-- A number as an integer over a natural number. -/
private def numerator (x : Double) : Int :=
  if x.negative then -(x.magnitude.ratio.1 : Int) else x.magnitude.ratio.1

private theorem numerator_value (x : Double) : (x.numerator / x.magnitude.ratio.2 : ℚ) = x.value := by
  rw [value, ← Magnitude.ratio_value, numerator]
  split
  · rw [Int.cast_neg, Int.cast_natCast, neg_div]
  · rw [Int.cast_natCast]

private theorem numerator_nonpos {x : Double} (negative : x.negative = true) : x.numerator ≤ 0 := by
  rw [numerator, if_pos negative]
  omega

/-- The numerator of a sum, over the product of the denominators. -/
private def sumNumerator (x y : Double) : Int :=
  x.numerator * y.magnitude.ratio.2 + y.numerator * x.magnitude.ratio.2

private theorem sumNumerator_value (x y : Double) :
    (x.sumNumerator y / (x.magnitude.ratio.2 * y.magnitude.ratio.2 : Nat) : ℚ) = x.value + y.value := by
  have first : (x.magnitude.ratio.2 : ℚ) ≠ 0 := by exact_mod_cast x.magnitude.ratio_pos.ne'
  have second : (y.magnitude.ratio.2 : ℚ) ≠ 0 := by exact_mod_cast y.magnitude.ratio_pos.ne'
  rw [← numerator_value, ← numerator_value, div_add_div _ _ first second, sumNumerator]
  push_cast
  ring

/-- A sum is rounded once. -/
theorem add?_rounds {x y : Double} (small : |x.value + y.value| < 2 ^ (1023 : Int)) :
    ∃ z, x.add? y = some z ∧ z.Rounds (x.value + y.value) := by
  have below : (decide (x.sumNumerator y < 0) || (x.negative && y.negative)) = true → x.sumNumerator y ≤ 0 := by
    intro negative
    rcases Bool.or_eq_true_iff.mp negative with negative | negative
    · exact (of_decide_eq_true negative).le
    · obtain ⟨first, second⟩ := Bool.and_eq_true_iff.mp negative
      exact Int.add_nonpos (Int.mul_nonpos_of_nonpos_of_nonneg (numerator_nonpos first) (Int.natCast_nonneg _))
        (Int.mul_nonpos_of_nonpos_of_nonneg (numerator_nonpos second) (Int.natCast_nonneg _))
  have above : (decide (x.sumNumerator y < 0) || (x.negative && y.negative)) = false → 0 ≤ x.sumNumerator y := by
    intro other
    exact not_lt.mp (of_decide_eq_false (Bool.or_eq_false_iff.mp other).1)
  rw [← sumNumerator_value] at small ⊢
  exact ofRatio?_signed (Nat.mul_pos x.magnitude.ratio_pos y.magnitude.ratio_pos) below above small

end Double

end QueryTerms
