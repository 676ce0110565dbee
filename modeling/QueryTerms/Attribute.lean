import QueryTerms.Build

/-! Attributes of objects. An object whose keys are all known is a call of `makeObj` with named arguments; once
a key is computed it is a call of `object` on keys and values in turn. -/

namespace QueryTerms

/-- One entry of an object. -/
inductive Attribute (α : Type) where
  | field (key : String) (value : α)
  | computed (key value : α)
  | absent

namespace Attribute

/-- The fields of attributes of which none is computed. -/
def fields? : List (Attribute α) → Option (List (String × α))
  | [] => some []
  | .field key value :: rest => (fields? rest).map ((key, value) :: ·)
  | .absent :: rest => fields? rest
  | .computed _ _ :: _ => none

/-- Keys and values in turn. -/
def pairs : List (Attribute Handle) → List Handle
  | [] => []
  | .field key value :: rest => .constant (.literal (.string key)) :: value :: pairs rest
  | .computed key value :: rest => key :: value :: pairs rest
  | .absent :: rest => pairs rest

end Attribute

namespace Handle

/-- An object with the given attributes. -/
def object (attributes : List (Attribute Handle)) : Handle :=
  match Attribute.fields? attributes with
  | some fields => do return .call .makeObj [] (← Build.fields fields)
  | none => do return .call .object (← Build.sequence (Attribute.pairs attributes)) []

end Handle

end QueryTerms
