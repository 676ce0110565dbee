import QueryTerms.Proofs.ZeroSigns
import Mathlib.Data.Set.List

/-! Terms and their wire forms. Two terms have the same wire form exactly if they have the same normal form, in
which labels are dropped and literal lists are calls: the wire form can be read back to it. The values that
are wire forms are described by a grammar. -/

namespace QueryTerms

private theorem Operator.mem_all (op : Operator) : op ∈ all := by
  have position : all[op.ctorIdx]? = some op := by cases op <;> rfl
  exact List.mem_of_getElem? position

theorem Operator.ofCode?_code (op : Operator) : ofCode? op.code = some op := by
  have known : ∀ op ∈ all, ofCode? op.code = some op := by decide +kernel
  exact known op (mem_all op)

theorem Operator.code_inj {a b : Operator} : a.code = b.code ↔ a = b := by
  constructor
  · intro same
    have read := ofCode?_code a
    rw [same, ofCode?_code b] at read
    exact (Option.some.inj read).symm
  · exact congrArg code

namespace Datum

def IsScalar : Datum → Prop
  | .array _ | .object _ => False
  | _ => True

mutual
/-- Reads a literal from its wire form. -/
def decode? : Datum → Option Datum
  | .array [code, .array items] =>
    if code.unsigned? = some Operator.makeArray.code then (decodeItems? items).map .array else none
  | .array _ => none
  | .object fields => (decodeFields? fields).map .object
  | d => some d

def decodeItems? : List Datum → Option (List Datum)
  | [] => some []
  | d :: rest => do return (← decode? d) :: (← decodeItems? rest)

def decodeFields? : List (String × Datum) → Option (List (String × Datum))
  | [] => some []
  | (key, d) :: rest => do return (key, ← decode? d) :: (← decodeFields? rest)
end

mutual
/-- The normal form of a literal. -/
def normal : Datum → Term
  | .array items => .call .makeArray (normalItems items) []
  | d => .literal d

def normalItems : List Datum → List Term
  | [] => []
  | d :: rest => normal d :: normalItems rest
end

private theorem encode_scalar {d : Datum} (scalar : d.IsScalar) : d.encode = d := by
  cases d with
  | array => exact scalar.elim
  | object => exact scalar.elim
  | _ => simp [encode]

mutual
theorem decode?_encode : (d : Datum) → decode? d.encode = some d
  | .array items => by
    simp [encode, decode?, unsigned, unsigned?, decodeItems?_encodeItems items]
  | .object fields => by simp [encode, decode?, decodeFields?_encodeFields fields]
  | .null | .bool _ | .number _ | .string _ => by simp [encode, decode?]

private theorem decodeItems?_encodeItems : (items : List Datum) → decodeItems? (encodeItems items) = some items
  | [] => rfl
  | d :: rest => by simp [encodeItems, decodeItems?, decode?_encode d, decodeItems?_encodeItems rest]

private theorem decodeFields?_encodeFields :
    (fields : List (String × Datum)) → decodeFields? (encodeFields fields) = some fields
  | [] => rfl
  | (key, d) :: rest => by simp [encodeFields, decodeFields?, decode?_encode d, decodeFields?_encodeFields rest]
end

end Datum

namespace Term

mutual
/-- Reads a normal form from its wire form. -/
def decode? : Datum → Option Term
  | .array [code, .array args] => do
    return .call (← code.unsigned?.bind Operator.ofCode?) (← decodeArgs? args) []
  | .array [code, .array args, .object named] => do
    return .call (← code.unsigned?.bind Operator.ofCode?) (← decodeArgs? args) (← decodeNamed? named)
  | .array _ => none
  | .object fields => (Datum.decodeFields? fields).map fun fields => .literal (.object fields)
  | d => some (.literal d)

def decodeArgs? : List Datum → Option (List Term)
  | [] => some []
  | w :: rest => do return (← decode? w) :: (← decodeArgs? rest)

def decodeNamed? : List (String × Datum) → Option (List (String × Term))
  | [] => some []
  | (key, w) :: rest => do return (key, ← decode? w) :: (← decodeNamed? rest)
end

mutual
/-- The term without its labels, with calls in the place of literal lists. -/
def normal : Term → Term
  | .literal d => d.normal
  | .annotated _ inner => normal inner
  | .call op args named => .call op (normalArgs args) (normalNamed named)

def normalArgs : List Term → List Term
  | [] => []
  | t :: rest => normal t :: normalArgs rest

def normalNamed : List (String × Term) → List (String × Term)
  | [] => []
  | (key, t) :: rest => (key, normal t) :: normalNamed rest
end

@[simp] theorem ofCode?_unsigned (op : Operator) :
    (Datum.unsigned op.code).unsigned?.bind Operator.ofCode? = some op :=
  Operator.ofCode?_code op

theorem encode_call_nil (op : Operator) (args : List Term) :
    encode (.call op args []) = .array [.unsigned op.code, .array (encodeArgs args)] := by
  simp [encode, encodeNamed]

theorem encode_call_cons (op : Operator) (args : List Term) (field : String × Term) (rest : List (String × Term)) :
    encode (.call op args (field :: rest)) =
      .array [.unsigned op.code, .array (encodeArgs args), .object (encodeNamed (field :: rest))] := by
  simp [encode, encodeNamed]

mutual
private theorem decode?_encode_literal : (d : Datum) → decode? d.encode = some d.normal
  | .array items => by
    simp [Datum.encode, decode?, Datum.normal, decodeArgs?_encodeItems items]
  | .object fields => by simp [Datum.encode, decode?, Datum.normal, Datum.decodeFields?_encodeFields fields]
  | .null | .bool _ | .number _ | .string _ => by simp [Datum.encode, decode?, Datum.normal]

private theorem decodeArgs?_encodeItems :
    (items : List Datum) → decodeArgs? (Datum.encodeItems items) = some (Datum.normalItems items)
  | [] => rfl
  | d :: rest => by
    simp [Datum.encodeItems, decodeArgs?, Datum.normalItems, decode?_encode_literal d, decodeArgs?_encodeItems rest]
end

mutual
/-- The wire form of a term is read back as its normal form. -/
theorem decode?_encode : (t : Term) → decode? t.encode = some t.normal
  | .literal d => by simpa [encode, normal] using decode?_encode_literal d
  | .annotated _ inner => by simpa [encode, normal] using decode?_encode inner
  | .call op args [] => by
    simp [encode_call_nil, decode?, normal, normalNamed, decodeArgs?_encodeArgs args]
  | .call op args (field :: rest) => by
    simp [encode_call_cons, decode?, normal, decodeArgs?_encodeArgs args, decodeNamed?_encodeNamed (field :: rest)]

private theorem decodeArgs?_encodeArgs : (args : List Term) → decodeArgs? (encodeArgs args) = some (normalArgs args)
  | [] => rfl
  | t :: rest => by simp [encodeArgs, decodeArgs?, normalArgs, decode?_encode t, decodeArgs?_encodeArgs rest]

private theorem decodeNamed?_encodeNamed :
    (named : List (String × Term)) → decodeNamed? (encodeNamed named) = some (normalNamed named)
  | [] => rfl
  | (key, t) :: rest => by
    simp [encodeNamed, decodeNamed?, normalNamed, decode?_encode t, decodeNamed?_encodeNamed rest]
end

mutual
private theorem encode_normal_literal : (d : Datum) → d.normal.encode = d.encode
  | .array items => by simp [Datum.normal, encode_call_nil, Datum.encode, encodeArgs_normalItems items]
  | .object _ | .null | .bool _ | .number _ | .string _ => by simp [Datum.normal, encode]

private theorem encodeArgs_normalItems :
    (items : List Datum) → encodeArgs (Datum.normalItems items) = Datum.encodeItems items
  | [] => rfl
  | d :: rest => by
    simp [Datum.normalItems, encodeArgs, Datum.encodeItems, encode_normal_literal d, encodeArgs_normalItems rest]
end

mutual
theorem encode_normal : (t : Term) → t.normal.encode = t.encode
  | .literal d => by simpa [normal, encode] using encode_normal_literal d
  | .annotated _ inner => by simpa [normal, encode] using encode_normal inner
  | .call op args named => by
    simp [normal, encode, encodeArgs_normalArgs args, encodeNamed_normalNamed named]

private theorem encodeArgs_normalArgs : (args : List Term) → encodeArgs (normalArgs args) = encodeArgs args
  | [] => rfl
  | t :: rest => by simp [normalArgs, encodeArgs, encode_normal t, encodeArgs_normalArgs rest]

private theorem encodeNamed_normalNamed :
    (named : List (String × Term)) → encodeNamed (normalNamed named) = encodeNamed named
  | [] => rfl
  | (key, t) :: rest => by simp [normalNamed, encodeNamed, encode_normal t, encodeNamed_normalNamed rest]
end

theorem encode_eq_encode_iff {s t : Term} : s.encode = t.encode ↔ s.normal = t.normal := by
  constructor
  · intro same
    have read := decode?_encode s
    rw [same, decode?_encode t] at read
    exact (Option.some.inj read).symm
  · intro same
    rw [← encode_normal s, ← encode_normal t, same]

end Term

/-- The wire forms of literals. -/
inductive WireLiteral : Datum → Prop where
  | scalar {d : Datum} : d.IsScalar → WireLiteral d
  | object {fields : List (String × Datum)} : (∀ field ∈ fields, WireLiteral field.2) → WireLiteral (.object fields)
  | list {items : List Datum} : (∀ d ∈ items, WireLiteral d) → WireLiteral (.array [.unsigned 2, .array items])

/-- The wire forms of terms. An object outside of a call is a literal. -/
inductive Wire : Datum → Prop where
  | scalar {d : Datum} : d.IsScalar → Wire d
  | object {fields : List (String × Datum)} : (∀ field ∈ fields, WireLiteral field.2) → Wire (.object fields)
  | call (op : Operator) {args : List Datum} :
    (∀ w ∈ args, Wire w) → Wire (.array [.unsigned op.code, .array args])
  | callNamed (op : Operator) {args : List Datum} {named : List (String × Datum)} :
    (∀ w ∈ args, Wire w) → named ≠ [] → (∀ field ∈ named, Wire field.2) →
      Wire (.array [.unsigned op.code, .array args, .object named])

private theorem exists_map_eq {α β : Type} {f : α → β} {ys : List β} (each : ∀ y ∈ ys, ∃ x, f x = y) :
    ∃ xs, List.map f xs = ys := by
  have inRange : ys ∈ Set.range (List.map f) := by
    rw [Set.range_list_map]
    exact each
  exact inRange

private theorem Fields.exists_mapValues_eq {α β : Type} {f : α → β} {ys : Fields β}
    (each : ∀ y ∈ ys, ∃ x, f x = y.2) : ∃ xs, Fields.mapValues f xs = ys := by
  apply exists_map_eq
  intro y member
  obtain ⟨x, same⟩ := each y member
  exact ⟨(y.1, x), congrArg (y.1, ·) same⟩

theorem Fields.keys_mapValues {α β : Type} (f : α → β) (fields : Fields α) :
    Fields.keys (Fields.mapValues f fields) = Fields.keys fields := by
  simp [Fields.keys, Fields.mapValues]

namespace Datum

mutual
private theorem encode_wireLiteral : (d : Datum) → WireLiteral d.encode
  | .array items => .list (encodeItems_wireLiteral items)
  | .object fields => .object (encodeFields_wireLiteral fields)
  | .null | .bool _ | .number _ | .string _ => .scalar trivial

private theorem encodeItems_wireLiteral : (items : List Datum) → ∀ w ∈ encodeItems items, WireLiteral w
  | [] => fun _ member => by cases member
  | d :: rest => List.forall_mem_cons.mpr ⟨encode_wireLiteral d, encodeItems_wireLiteral rest⟩

private theorem encodeFields_wireLiteral :
    (fields : List (String × Datum)) → ∀ field ∈ encodeFields fields, WireLiteral field.2
  | [] => fun _ member => by cases member
  | (_, d) :: rest => List.forall_mem_cons.mpr ⟨encode_wireLiteral d, encodeFields_wireLiteral rest⟩
end

mutual
theorem encode_wire : (d : Datum) → Wire d.encode
  | .array items => .call .makeArray (encodeItems_wire items)
  | .object fields => .object (encodeFields_wireLiteral fields)
  | .null | .bool _ | .number _ | .string _ => .scalar trivial

private theorem encodeItems_wire : (items : List Datum) → ∀ w ∈ encodeItems items, Wire w
  | [] => fun _ member => by cases member
  | d :: rest => List.forall_mem_cons.mpr ⟨encode_wire d, encodeItems_wire rest⟩
end

private theorem encodeItems_eq (items : List Datum) : encodeItems items = items.map encode := by
  induction items with
  | nil => rfl
  | cons d rest ih => rw [encodeItems, ih, List.map_cons]

private theorem encodeFields_eq (fields : List (String × Datum)) :
    encodeFields fields = Fields.mapValues encode fields := by
  induction fields with
  | nil => rfl
  | cons field rest ih => rw [encodeFields, ih]; rfl

private theorem exists_encode_of_wireLiteral {w : Datum} (wire : WireLiteral w) : ∃ d : Datum, d.encode = w := by
  induction wire with
  | scalar scalar => exact ⟨_, encode_scalar scalar⟩
  | object _ ih =>
    obtain ⟨fields, rfl⟩ := Fields.exists_mapValues_eq ih
    exact ⟨.object fields, by rw [encode, encodeFields_eq]⟩
  | list _ ih =>
    obtain ⟨items, rfl⟩ := exists_map_eq ih
    exact ⟨.array items, by rw [encode, encodeItems_eq]; rfl⟩

end Datum

namespace Term

mutual
theorem encode_wire : (t : Term) → Wire t.encode
  | .literal d => by simpa [encode] using d.encode_wire
  | .annotated _ inner => by simpa [encode] using encode_wire inner
  | .call op args [] => by
    rw [encode_call_nil]
    exact .call op (encodeArgs_wire args)
  | .call op args (field :: rest) => by
    rw [encode_call_cons]
    exact .callNamed op (encodeArgs_wire args) (by simp [encodeNamed]) (encodeNamed_wire (field :: rest))

private theorem encodeArgs_wire : (args : List Term) → ∀ w ∈ encodeArgs args, Wire w
  | [] => fun _ member => by cases member
  | t :: rest => List.forall_mem_cons.mpr ⟨encode_wire t, encodeArgs_wire rest⟩

private theorem encodeNamed_wire : (named : List (String × Term)) → ∀ field ∈ encodeNamed named, Wire field.2
  | [] => fun _ member => by cases member
  | (_, t) :: rest => List.forall_mem_cons.mpr ⟨encode_wire t, encodeNamed_wire rest⟩
end

theorem encodeArgs_eq (args : List Term) : encodeArgs args = args.map encode := by
  induction args with
  | nil => rfl
  | cons t rest ih => rw [encodeArgs, ih, List.map_cons]

theorem encodeNamed_eq (named : List (String × Term)) : encodeNamed named = Fields.mapValues encode named := by
  induction named with
  | nil => rfl
  | cons field rest ih => rw [encodeNamed, ih]; rfl

private theorem exists_encode_of_wire {w : Datum} (wire : Wire w) : ∃ t : Term, t.encode = w := by
  induction wire with
  | scalar scalar => exact ⟨.literal _, by rw [encode, Datum.encode_scalar scalar]⟩
  | object literals =>
    obtain ⟨fields, rfl⟩ := Fields.exists_mapValues_eq fun field member =>
      Datum.exists_encode_of_wireLiteral (literals field member)
    exact ⟨.literal (.object fields), by rw [encode, Datum.encode, Datum.encodeFields_eq]⟩
  | call op _ ih =>
    obtain ⟨args, rfl⟩ := exists_map_eq ih
    exact ⟨.call op args [], by rw [encode_call_nil, encodeArgs_eq]⟩
  | callNamed op _ nonempty _ ihArgs ihNamed =>
    obtain ⟨args, rfl⟩ := exists_map_eq ihArgs
    obtain ⟨named, rfl⟩ := Fields.exists_mapValues_eq ihNamed
    cases named with
    | nil => exact absurd rfl nonempty
    | cons field rest =>
      exact ⟨.call op args (field :: rest), by rw [encode_call_cons, encodeArgs_eq, encodeNamed_eq]⟩

theorem exists_encode_iff {w : Datum} : (∃ t : Term, t.encode = w) ↔ Wire w := by
  constructor
  · intro ⟨t, same⟩
    exact same ▸ t.encode_wire
  · exact exists_encode_of_wire

end Term

namespace Datum

mutual
/-- The keys of every object in the value are in ascending order. -/
def Ordered : Datum → Prop
  | .array items => OrderedItems items
  | .object fields => (Fields.keys fields).Pairwise (· < ·) ∧ OrderedFields fields
  | _ => True

def OrderedItems : List Datum → Prop
  | [] => True
  | d :: rest => Ordered d ∧ OrderedItems rest

def OrderedFields : List (String × Datum) → Prop
  | [] => True
  | (_, d) :: rest => Ordered d ∧ OrderedFields rest
end

mutual
theorem encode_ordered : (d : Datum) → (d.encode.Ordered ↔ d.Ordered)
  | .array items => by simp [encode, Ordered, OrderedItems, unsigned, encodeItems_ordered items]
  | .object fields => by
    rw [encode, Ordered, Ordered, encodeFields_ordered fields, encodeFields_eq, Fields.keys_mapValues]
  | .null | .bool _ | .number _ | .string _ => by simp [encode, Ordered]

private theorem encodeItems_ordered : (items : List Datum) → (OrderedItems (encodeItems items) ↔ OrderedItems items)
  | [] => Iff.rfl
  | d :: rest => and_congr (encode_ordered d) (encodeItems_ordered rest)

private theorem encodeFields_ordered :
    (fields : List (String × Datum)) → (OrderedFields (encodeFields fields) ↔ OrderedFields fields)
  | [] => Iff.rfl
  | (_, d) :: rest => and_congr (encode_ordered d) (encodeFields_ordered rest)
end

end Datum

namespace Term

mutual
/-- The keys of the named arguments of every call and of every literal object are in ascending order. -/
def Ordered : Term → Prop
  | .literal d => d.Ordered
  | .annotated _ inner => Ordered inner
  | .call _ args named => OrderedArgs args ∧ (Fields.keys named).Pairwise (· < ·) ∧ OrderedNamed named

def OrderedArgs : List Term → Prop
  | [] => True
  | t :: rest => Ordered t ∧ OrderedArgs rest

def OrderedNamed : List (String × Term) → Prop
  | [] => True
  | (_, t) :: rest => Ordered t ∧ OrderedNamed rest
end

mutual
theorem encode_ordered : (t : Term) → (t.encode.Ordered ↔ t.Ordered)
  | .literal d => by simpa [encode, Ordered] using d.encode_ordered
  | .annotated _ inner => by simpa [encode, Ordered] using encode_ordered inner
  | .call op args [] => by
    simp [encode_call_nil, Ordered, OrderedNamed, Fields.keys, Datum.Ordered, Datum.OrderedItems, Datum.unsigned,
      encodeArgs_ordered args]
  | .call op args (field :: rest) => by
    have keys : Fields.keys (encodeNamed (field :: rest)) = Fields.keys (field :: rest) := by
      rw [encodeNamed_eq, Fields.keys_mapValues]
    simp [encode_call_cons, Ordered, Datum.Ordered, Datum.OrderedItems, Datum.unsigned, keys,
      encodeArgs_ordered args, encodeNamed_ordered (field :: rest)]

private theorem encodeArgs_ordered : (args : List Term) → (Datum.OrderedItems (encodeArgs args) ↔ OrderedArgs args)
  | [] => Iff.rfl
  | t :: rest => and_congr (encode_ordered t) (encodeArgs_ordered rest)

private theorem encodeNamed_ordered :
    (named : List (String × Term)) → (Datum.OrderedFields (encodeNamed named) ↔ OrderedNamed named)
  | [] => Iff.rfl
  | (_, t) :: rest => and_congr (encode_ordered t) (encodeNamed_ordered rest)
end

mutual
private theorem normal_positiveZeros_literal : (d : Datum) → d.positiveZeros.normal = d.normal.positiveZeros
  | .array items => by
    simp [Datum.positiveZeros, Datum.normal, positiveZeros, positiveZerosNamed, normalItems_positiveZeros items]
  | .object _ | .null | .bool _ | .number _ | .string _ => by simp [Datum.positiveZeros, Datum.normal, positiveZeros]

private theorem normalItems_positiveZeros : (items : List Datum) →
    Datum.normalItems (Datum.positiveZerosItems items) = positiveZerosArgs (Datum.normalItems items)
  | [] => rfl
  | d :: rest => by
    simp [Datum.positiveZerosItems, Datum.normalItems, positiveZerosArgs, normal_positiveZeros_literal d,
      normalItems_positiveZeros rest]
end

mutual
theorem normal_positiveZeros : (t : Term) → t.positiveZeros.normal = t.normal.positiveZeros
  | .literal d => by simpa [positiveZeros, normal] using normal_positiveZeros_literal d
  | .annotated _ inner => by simpa [positiveZeros, normal] using normal_positiveZeros inner
  | .call op args named => by
    simp [positiveZeros, normal, normalArgs_positiveZeros args, normalNamed_positiveZeros named]

private theorem normalArgs_positiveZeros :
    (args : List Term) → normalArgs (positiveZerosArgs args) = positiveZerosArgs (normalArgs args)
  | [] => rfl
  | t :: rest => by
    simp [positiveZerosArgs, normalArgs, normal_positiveZeros t, normalArgs_positiveZeros rest]

private theorem normalNamed_positiveZeros :
    (named : List (String × Term)) → normalNamed (positiveZerosNamed named) = positiveZerosNamed (normalNamed named)
  | [] => rfl
  | (_, t) :: rest => by
    simp [positiveZerosNamed, normalNamed, normal_positiveZeros t, normalNamed_positiveZeros rest]
end

end Term

namespace Proofs.WireForm

/-- Terms have the same wire form exactly if they have the same normal form, and equal ones exactly if they have
equal ones. The grammar describes all wire forms, and keys are in order on the wire exactly if they are in the
term. -/
theorem encode_faithful :
    (∀ s t : Term, s.encode = t.encode ↔ s.normal = t.normal) ∧
    (∀ s t : Term, s.encode.same t.encode = true ↔ s.normal.same t.normal = true) ∧
    (∀ w, (∃ t : Term, t.encode = w) ↔ Wire w) ∧
    ∀ w, (∃ t : Term, t.Ordered ∧ t.encode = w) ↔ Wire w ∧ w.Ordered := by
  refine ⟨fun s t => Term.encode_eq_encode_iff, fun s t => ?_, fun w => Term.exists_encode_iff, fun w => ?_⟩
  · rw [Datum.same_iff, Term.same_iff, ← Term.encode_positiveZeros, ← Term.encode_positiveZeros,
      Term.encode_eq_encode_iff, Term.normal_positiveZeros, Term.normal_positiveZeros]
  · constructor
    · intro ⟨t, ordered, same⟩
      exact ⟨Term.exists_encode_iff.mp ⟨t, same⟩, same ▸ t.encode_ordered.mpr ordered⟩
    · intro ⟨wire, ordered⟩
      obtain ⟨t, rfl⟩ := Term.exists_encode_of_wire wire
      exact ⟨t, t.encode_ordered.mp ordered, rfl⟩

end Proofs.WireForm

end QueryTerms
