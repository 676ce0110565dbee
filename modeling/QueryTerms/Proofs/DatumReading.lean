import QueryTerms.Proofs.WireForm
import QueryTerms.HostValue

/-! Values on the wire. A reader takes wire data back to the value that it denotes and knows of two operators only,
those that make lists and objects. A value is read from its literal form and from its lifted form alike, whatever
it looks like itself, and a term with any other operator in it is not read as a value. -/

namespace QueryTerms

namespace Datum

mutual
/-- The value that wire data denotes. A scalar denotes itself and an object the object of what its fields denote;
`[2, items]` denotes a list, `[3, []]` the empty object and `[3, [], fields]` an object. Nothing else denotes a
value. -/
def value? : Datum → Option Datum
  | .array [code, .array items] =>
    if code.unsigned? = some 2 then (valueItems? items).map .array
    else if code.unsigned? = some 3 ∧ items.isEmpty then some (.object [])
    else none
  | .array [code, .array [], .object fields] =>
    if code.unsigned? = some 3 then (valueFields? fields).map .object else none
  | .array _ => none
  | .object fields => (valueFields? fields).map .object
  | d => some d

def valueItems? : List Datum → Option (List Datum)
  | [] => some []
  | w :: rest => do return (← value? w) :: (← valueItems? rest)

def valueFields? : List (String × Datum) → Option (List (String × Datum))
  | [] => some []
  | (key, w) :: rest => do return (key, ← value? w) :: (← valueFields? rest)
end

mutual
theorem value?_encode : (d : Datum) → value? d.encode = some d
  | .array items => by
    have code : (unsigned Operator.makeArray.code).unsigned? = some 2 := rfl
    rw [encode, value?, if_pos code, valueItems?_encodeItems items]
    rfl
  | .object fields => by
    rw [encode, value?, valueFields?_encodeFields fields]
    rfl
  | .null | .bool _ | .number _ | .string _ => by simp [encode, value?]

private theorem valueItems?_encodeItems : (items : List Datum) → valueItems? (encodeItems items) = some items
  | [] => rfl
  | d :: rest => by
    rw [encodeItems, valueItems?, value?_encode d, valueItems?_encodeItems rest]
    rfl

private theorem valueFields?_encodeFields :
    (fields : List (String × Datum)) → valueFields? (encodeFields fields) = some fields
  | [] => rfl
  | (key, d) :: rest => by
    rw [encodeFields, valueFields?, value?_encode d, valueFields?_encodeFields rest]
    rfl
end

end Datum

namespace Term

mutual
/-- The value that a term makes, if it is made of nothing but literals, lists and objects. -/
def value? : Term → Option Datum
  | .literal d => some d
  | .annotated _ inner => value? inner
  | .call op args named =>
    if op = .makeArray ∧ named.isEmpty then (valueArgs? args).map .array
    else if op = .makeObj ∧ args.isEmpty then (valueNamed? named).map .object
    else none

def valueArgs? : List Term → Option (List Datum)
  | [] => some []
  | t :: rest => do return (← value? t) :: (← valueArgs? rest)

def valueNamed? : List (String × Term) → Option (List (String × Datum))
  | [] => some []
  | (key, t) :: rest => do return (key, ← value? t) :: (← valueNamed? rest)
end

private theorem unsigned?_code {op : Operator} (known : Operator) :
    (Datum.unsigned op.code).unsigned? = some known.code ↔ op = known := by
  rw [← Operator.code_inj]
  exact Option.some_inj

mutual
/-- Reading the wire form of a term is finding the value that the term makes. -/
theorem value?_encode : (t : Term) → t.encode.value? = t.value?
  | .literal d => by rw [encode, value?, Datum.value?_encode]
  | .annotated _ inner => by rw [encode, value?, value?_encode inner]
  | .call op args [] => by
    have list : (Datum.unsigned op.code).unsigned? = some 2 ↔ op = .makeArray := unsigned?_code .makeArray
    have object : (Datum.unsigned op.code).unsigned? = some 3 ↔ op = .makeObj := unsigned?_code .makeObj
    have bare : (encodeArgs args).isEmpty = args.isEmpty := by rw [encodeArgs_eq, List.isEmpty_map]
    rw [encode_call_nil, Datum.value?, value?, valueItems?_encodeArgs args, bare]
    simp only [list, object, List.isEmpty_nil, and_true, valueNamed?, Option.map_some]
  | .call op [] (field :: rest) => by
    have object : (Datum.unsigned op.code).unsigned? = some 3 ↔ op = .makeObj := unsigned?_code .makeObj
    rw [encode_call_cons, encodeArgs, Datum.value?, value?, valueFields?_encodeNamed (field :: rest)]
    simp only [object, List.isEmpty_nil, List.isEmpty_cons, Bool.false_eq_true, and_false, and_true, if_false]
  | .call op (t :: args) (field :: rest) => by
    simp [encode_call_cons, encodeArgs, Datum.value?, value?]

private theorem valueItems?_encodeArgs : (args : List Term) → Datum.valueItems? (encodeArgs args) = valueArgs? args
  | [] => rfl
  | t :: rest => by
    rw [encodeArgs, Datum.valueItems?, valueArgs?, value?_encode t, valueItems?_encodeArgs rest]

private theorem valueFields?_encodeNamed :
    (named : List (String × Term)) → Datum.valueFields? (encodeNamed named) = valueNamed? named
  | [] => rfl
  | (key, t) :: rest => by
    rw [encodeNamed, Datum.valueFields?, valueNamed?, value?_encode t, valueFields?_encodeNamed rest]
end

end Term

namespace Datum

mutual
theorem value?_lift : (d : Datum) → d.lift.value? = some d
  | .array items => by
    rw [lift, Term.value?, if_pos ⟨rfl, rfl⟩, valueArgs?_liftItems items]
    rfl
  | .object fields => by
    have other : ¬ (Operator.makeObj = .makeArray ∧ (liftFields fields).isEmpty) := fun both => by cases both.1
    rw [lift, Term.value?, if_neg other, if_pos ⟨rfl, rfl⟩, valueNamed?_liftFields fields]
    rfl
  | .null | .bool _ | .number _ | .string _ => by rw [lift, Term.value?]

private theorem valueArgs?_liftItems : (items : List Datum) → Term.valueArgs? (liftItems items) = some items
  | [] => rfl
  | d :: rest => by
    rw [liftItems, Term.valueArgs?, value?_lift d, valueArgs?_liftItems rest]
    rfl

private theorem valueNamed?_liftFields :
    (fields : List (String × Datum)) → Term.valueNamed? (liftFields fields) = some fields
  | [] => rfl
  | (key, d) :: rest => by
    rw [liftFields, Term.valueNamed?, value?_lift d, valueNamed?_liftFields rest]
    rfl
end

end Datum

namespace Proofs.DatumReading

/-- The wire form of a term denotes a value exactly if the term makes it from literals, lists and objects. So a value
is read back from the wire form of its literal and from that of its lifted term. -/
theorem encode_denotes :
    (∀ t : Term, t.encode.value? = t.value?) ∧
    ∀ d : Datum, (Term.literal d).encode.value? = some d ∧ d.lift.encode.value? = some d := by
  refine ⟨Term.value?_encode, fun d => ⟨?_, ?_⟩⟩
  · rw [Term.value?_encode, Term.value?]
  · rw [Term.value?_encode, Datum.value?_lift]

/-- A list that looks like a call is still a list on the wire. -/
example : (Term.literal (.array [.unsigned 10, .array [.unsigned 1]])).encode =
    .array [.unsigned 2, .array [.unsigned 10, .array [.unsigned 2, .array [.unsigned 1]]]] := rfl

end Proofs.DatumReading

end QueryTerms
