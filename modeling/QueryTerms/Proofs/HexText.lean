import QueryTerms.Query

/-! Bytes in hexadecimal digits. The reader takes pairs of lower-case digits and nothing else, so that a list of bytes
has one text. -/

namespace QueryTerms

/-- A byte has two digits after the zeros that fill the width. -/
theorem hexDigits_byte {n : Nat} (small : n < 256) (zeros : Nat) :
    hexDigits (zeros + 2) n = List.replicate zeros '0' ++ [(n / 16).digitChar, (n % 16).digitChar] := by
  rw [hexDigits]
  by_cases short : n < 16
  · have width : zeros + 2 - [n.digitChar].length = zeros + 1 := rfl
    rw [Nat.toDigits_of_lt_base short, Nat.div_eq_of_lt short, Nat.mod_eq_of_lt short, width, List.replicate_succ',
      List.append_assoc]
    rfl
  · rw [Nat.toDigits_of_base_le (by decide) (by omega), Nat.toDigits_of_lt_base (by omega)]
    rfl

def lowerDigits : List Char :=
  "0123456789abcdef".toList

/-- The bytes that pairs of lower-case digits stand for. -/
def readHex? : List Char → Option (List UInt8)
  | [] => some []
  | [_] => none
  | a :: b :: rest => do
    let high ← lowerDigits.idxOf? a
    let low ← lowerDigits.idxOf? b
    return UInt8.ofNat (16 * high + low) :: (← readHex? rest)

private theorem lowerDigits_getElem? : ∀ n < 16, lowerDigits[n]? = some n.digitChar := by decide

private theorem idxOf?_lowerDigits : ∀ n < 16, lowerDigits.idxOf? n.digitChar = some n := by decide

private theorem eq_digitChar_of_idxOf? {c : Char} {n : Nat} (found : lowerDigits.idxOf? c = some n) :
    n < 16 ∧ c = n.digitChar := by
  obtain ⟨inside, same, -⟩ := List.idxOf?_eq_some_iff.mp found
  have length : lowerDigits.length = 16 := by decide
  have entry := lowerDigits_getElem? n (length ▸ inside)
  rw [List.getElem?_eq_getElem inside, same] at entry
  exact ⟨length ▸ inside, Option.some.inj entry⟩

private theorem readHex?_digits_append (b : UInt8) (text : List Char) :
    readHex? (hexDigits 2 b.toNat ++ text) = (readHex? text).map (b :: ·) := by
  have small := b.toNat_lt
  have high := idxOf?_lowerDigits (b.toNat / 16) (by omega)
  have low := idxOf?_lowerDigits (b.toNat % 16) (by omega)
  have byte : UInt8.ofNat (16 * (b.toNat / 16) + b.toNat % 16) = b := by
    rw [Nat.div_add_mod, UInt8.ofNat_toNat]
  rw [hexDigits_byte small 0]
  simp only [List.replicate_zero, List.nil_append, List.cons_append, readHex?, high, low, Option.bind_eq_bind,
    Option.bind_some, byte]
  cases readHex? text <;> rfl

theorem readHex?_hexText (bytes : List UInt8) : readHex? (hexText bytes).toList = some bytes := by
  rw [hexText, String.toList_ofList]
  induction bytes with
  | nil => rfl
  | cons b bytes ih => rw [List.flatMap_cons, readHex?_digits_append, ih, Option.map_some]

private theorem eq_digits_of_readHex? {text : List Char} {bytes : List UInt8} (found : readHex? text = some bytes) :
    text = bytes.flatMap fun b => hexDigits 2 b.toNat := by
  fun_induction readHex? text generalizing bytes with
  | case1 => cases found; rfl
  | case2 => cases found
  | case3 a b rest ih =>
    simp only [Option.bind_eq_bind, Option.bind_eq_some_iff, Option.pure_def, Option.some.injEq] at found
    obtain ⟨high, first, low, second, later, others, rfl⟩ := found
    obtain ⟨highSmall, rfl⟩ := eq_digitChar_of_idxOf? first
    obtain ⟨lowSmall, rfl⟩ := eq_digitChar_of_idxOf? second
    have small : 16 * high + low < 256 := by omega
    have value : (UInt8.ofNat (16 * high + low)).toNat = 16 * high + low := UInt8.toNat_ofNat_of_lt' small
    have quotient : (16 * high + low) / 16 = high := by omega
    have remainder : (16 * high + low) % 16 = low := by omega
    rw [List.flatMap_cons, value, hexDigits_byte small 0, quotient, remainder, ← ih others]
    rfl

theorem readHex?_eq_some_iff {text : String} {bytes : List UInt8} :
    readHex? text.toList = some bytes ↔ text = hexText bytes := by
  constructor
  · intro found
    rw [hexText, ← eq_digits_of_readHex? found, String.ofList_toList]
  · rintro rfl
    exact readHex?_hexText bytes

end QueryTerms
