import QueryTerms.Term.Wire

/-! Equality of values and terms is identity up to the signs of zeros: two of them are equal exactly if they
become identical once every zero is positive. Encoding does not touch numbers and so keeps this. -/

namespace QueryTerms

namespace Double

/-- The number, with the positive zero in the place of the negative one. -/
def positiveZero (x : Double) : Double :=
  if x.isZero then ⟨0, by decide⟩ else x

private theorem eq_iff_bits {x y : Double} : x = y ↔ x.bits = y.bits := by
  obtain ⟨a, _⟩ := x
  obtain ⟨b, _⟩ := y
  simp

private theorem isZero_positiveZero (x : Double) : x.positiveZero.isZero = x.isZero := by
  unfold positiveZero
  split
  next zero => rw [zero]; rfl
  next => rfl

theorem same_iff {x y : Double} : x.same y = true ↔ x.positiveZero = y.positiveZero := by
  simp only [same, Bool.or_eq_true, beq_iff_eq, Bool.and_eq_true, ← eq_iff_bits]
  constructor
  · intro alike
    rcases alike with rfl | ⟨zeroX, zeroY⟩
    · rfl
    · simp [positiveZero, zeroX, zeroY]
  · intro alike
    have both : x.isZero = y.isZero := by rw [← isZero_positiveZero x, alike, isZero_positiveZero]
    by_cases zero : y.isZero = true
    · exact .inr ⟨both.trans zero, zero⟩
    · exact .inl (by simpa [positiveZero, both, zero] using alike)

end Double

namespace Number

def positiveZero : Number → Number
  | .double x => .double x.positiveZero
  | n => n

theorem same_iff {a b : Number} : a.same b = true ↔ a.positiveZero = b.positiveZero := by
  cases a <;> cases b <;> simp [same, positiveZero, Double.same_iff]

end Number

namespace Datum

mutual
/-- The value with positive zeros only. -/
def positiveZeros : Datum → Datum
  | .number n => .number n.positiveZero
  | .array items => .array (positiveZerosItems items)
  | .object fields => .object (positiveZerosFields fields)
  | .null => .null
  | .bool b => .bool b
  | .string s => .string s

def positiveZerosItems : List Datum → List Datum
  | [] => []
  | d :: rest => positiveZeros d :: positiveZerosItems rest

def positiveZerosFields : List (String × Datum) → List (String × Datum)
  | [] => []
  | (key, d) :: rest => (key, positiveZeros d) :: positiveZerosFields rest
end

mutual
theorem same_iff : (a b : Datum) → (a.same b = true ↔ a.positiveZeros = b.positiveZeros)
  | .null, b | .bool _, b | .string _, b => by cases b <;> simp [same, positiveZeros]
  | .number _, b => by cases b <;> simp [same, positiveZeros, Number.same_iff]
  | .array as, b => by
    cases b with
    | array bs => simp [same, positiveZeros, sameItems_iff as bs]
    | _ => simp [same, positiveZeros]
  | .object as, b => by
    cases b with
    | object bs => simp [same, positiveZeros, sameFields_iff as bs]
    | _ => simp [same, positiveZeros]

private theorem sameItems_iff :
    (as bs : List Datum) → (sameItems as bs = true ↔ positiveZerosItems as = positiveZerosItems bs)
  | [], bs => by cases bs <;> simp [sameItems, positiveZerosItems]
  | a :: as, bs => by
    cases bs with
    | nil => simp [sameItems, positiveZerosItems]
    | cons b bs => simp [sameItems, positiveZerosItems, same_iff a b, sameItems_iff as bs]

private theorem sameFields_iff : (as bs : List (String × Datum)) →
    (sameFields as bs = true ↔ positiveZerosFields as = positiveZerosFields bs)
  | [], bs => by cases bs <;> simp [sameFields, positiveZerosFields]
  | (_, a) :: as, bs => by
    cases bs with
    | nil => simp [sameFields, positiveZerosFields]
    | cons field bs => simp [sameFields, positiveZerosFields, same_iff a field.2, sameFields_iff as bs]
end

mutual
theorem encode_positiveZeros : (d : Datum) → d.positiveZeros.encode = d.encode.positiveZeros
  | .array items => by
    simp [positiveZeros, encode, positiveZerosItems, unsigned, Number.positiveZero, encodeItems_positiveZeros items]
  | .object fields => by simp [positiveZeros, encode, encodeFields_positiveZeros fields]
  | .null | .bool _ | .number _ | .string _ => by simp [positiveZeros, encode]

private theorem encodeItems_positiveZeros :
    (items : List Datum) → encodeItems (positiveZerosItems items) = positiveZerosItems (encodeItems items)
  | [] => rfl
  | d :: rest => by
    simp [positiveZerosItems, encodeItems, encode_positiveZeros d, encodeItems_positiveZeros rest]

private theorem encodeFields_positiveZeros : (fields : List (String × Datum)) →
    encodeFields (positiveZerosFields fields) = positiveZerosFields (encodeFields fields)
  | [] => rfl
  | (_, d) :: rest => by
    simp [positiveZerosFields, encodeFields, encode_positiveZeros d, encodeFields_positiveZeros rest]
end

end Datum

namespace Term

mutual
def positiveZeros : Term → Term
  | .literal d => .literal d.positiveZeros
  | .annotated note inner => .annotated note (positiveZeros inner)
  | .call op args named => .call op (positiveZerosArgs args) (positiveZerosNamed named)

def positiveZerosArgs : List Term → List Term
  | [] => []
  | t :: rest => positiveZeros t :: positiveZerosArgs rest

def positiveZerosNamed : List (String × Term) → List (String × Term)
  | [] => []
  | (key, t) :: rest => (key, positiveZeros t) :: positiveZerosNamed rest
end

mutual
theorem same_iff : (a b : Term) → (a.same b = true ↔ a.positiveZeros = b.positiveZeros)
  | .literal _, b => by cases b <;> simp [same, positiveZeros, Datum.same_iff]
  | .annotated _ a, b => by
    cases b with
    | annotated _ b => simp [same, positiveZeros, same_iff a b]
    | _ => simp [same, positiveZeros]
  | .call _ as an, b => by
    cases b with
    | call _ bs bn => simp [same, positiveZeros, sameArgs_iff as bs, sameNamed_iff an bn, and_assoc]
    | _ => simp [same, positiveZeros]

private theorem sameArgs_iff :
    (as bs : List Term) → (sameArgs as bs = true ↔ positiveZerosArgs as = positiveZerosArgs bs)
  | [], bs => by cases bs <;> simp [sameArgs, positiveZerosArgs]
  | a :: as, bs => by
    cases bs with
    | nil => simp [sameArgs, positiveZerosArgs]
    | cons b bs => simp [sameArgs, positiveZerosArgs, same_iff a b, sameArgs_iff as bs]

private theorem sameNamed_iff : (as bs : List (String × Term)) →
    (sameNamed as bs = true ↔ positiveZerosNamed as = positiveZerosNamed bs)
  | [], bs => by cases bs <;> simp [sameNamed, positiveZerosNamed]
  | (_, a) :: as, bs => by
    cases bs with
    | nil => simp [sameNamed, positiveZerosNamed]
    | cons field bs => simp [sameNamed, positiveZerosNamed, same_iff a field.2, sameNamed_iff as bs]
end

mutual
theorem encode_positiveZeros : (t : Term) → t.positiveZeros.encode = t.encode.positiveZeros
  | .literal d => by simpa [positiveZeros, encode] using d.encode_positiveZeros
  | .annotated _ inner => by simpa [positiveZeros, encode] using encode_positiveZeros inner
  | .call op args named => by
    have parts := encodeArgs_positiveZeros args
    have fields := encodeNamed_positiveZeros named
    cases named with
    | nil =>
      simp [positiveZeros, encode, positiveZerosNamed, encodeNamed, parts, Datum.positiveZeros,
        Datum.positiveZerosItems, Datum.unsigned, Number.positiveZero]
    | cons field rest =>
      simp [positiveZeros, encode, positiveZerosNamed, encodeNamed, parts, Datum.positiveZeros,
        Datum.positiveZerosItems, Datum.positiveZerosFields, Datum.unsigned, Number.positiveZero] at fields ⊢
      exact fields

private theorem encodeArgs_positiveZeros :
    (args : List Term) → encodeArgs (positiveZerosArgs args) = Datum.positiveZerosItems (encodeArgs args)
  | [] => rfl
  | t :: rest => by
    simp [positiveZerosArgs, encodeArgs, Datum.positiveZerosItems, encode_positiveZeros t,
      encodeArgs_positiveZeros rest]

private theorem encodeNamed_positiveZeros : (named : List (String × Term)) →
    encodeNamed (positiveZerosNamed named) = Datum.positiveZerosFields (encodeNamed named)
  | [] => rfl
  | (_, t) :: rest => by
    simp [positiveZerosNamed, encodeNamed, Datum.positiveZerosFields, encode_positiveZeros t,
      encodeNamed_positiveZeros rest]
end

end Term

end QueryTerms
