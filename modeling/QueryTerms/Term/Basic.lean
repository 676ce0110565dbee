import QueryTerms.Datum.Basic
import QueryTerms.Operator

/-! Terms: the nodes of a query tree. Two shapes are fixed by the protocol. A reference to a variable is a
call of `var` on the literal of the variable's number; a function is a call of `func` on the literal list
of its parameters and a body. A call of these operators that has another shape is a plain call. -/

namespace QueryTerms

/-- The number of a variable. -/
abbrev VarId := UInt64

/-- A node of a query tree. The named arguments of a call stand in ascending order of their keys. -/
inductive Term where
  | literal (value : Datum)
  | call (op : Operator) (args : List Term) (named : List (String × Term))
  /-- A label for the reader of the printed form, of no meaning to the server. -/
  | annotated (note : String) (inner : Term)

namespace Term

instance : Inhabited Term := ⟨.literal .null⟩

/-- A reference to a variable. -/
def var (id : VarId) : Term :=
  .call .var [.literal (.unsigned id)] []

/-- A reference to a database. -/
def database (name : String) : Term :=
  .call .db [.literal (.string name)] []

/-- A function that binds its parameters in its body. -/
def func (params : List VarId) (body : Term) : Term :=
  .call .func [.literal (.array (params.map Datum.unsigned)), body] []

/-- What a call is to the variables: a reference, a binder of parameters, or neither. -/
inductive Role where
  | reference (id : VarId)
  | binder (params : List VarId)
  | plain
deriving DecidableEq

/-- The role of a call. The parts of a binder are its literal list of parameters and its body. -/
def role : Operator → List Term → List (String × Term) → Role
  | .var, [.literal d], [] =>
    match d.unsigned? with
    | some id => .reference id
    | none => .plain
  | .func, [.literal (.array ids), _], [] =>
    match ids.mapM Datum.unsigned? with
    | some params => .binder params
    | none => .plain
  | _, _, _ => .plain

/-- The term under its outermost labels. -/
def stripNotes : Term → Term
  | .annotated _ inner => inner.stripNotes
  | t => t

/-- The operator of a call, seen through labels. -/
def operator? (t : Term) : Option Operator :=
  match t.stripNotes with
  | .call op _ _ => some op
  | _ => none

/-- Whether the term is a literal, seen through labels. -/
def isLiteral (t : Term) : Bool :=
  match t.stripNotes with
  | .literal _ => true
  | _ => false

/-- The variable that the term refers to, seen through labels. -/
def asVar? (t : Term) : Option VarId :=
  match t.stripNotes with
  | .call op args named =>
    match role op args named with
    | .reference id => some id
    | _ => none
  | _ => none

/-- The parameters and the body of a function, seen through labels. -/
def funcParts? (t : Term) : Option (List VarId × Term) :=
  match t.stripNotes with
  | .call op args named =>
    match role op args named, args with
    | .binder params, [_, body] => some (params, body)
    | _, _ => none
  | _ => none

mutual
/-- Equality of terms, in which the two floating-point zeros are equal. -/
def same : Term → Term → Bool
  | .literal a, .literal b => a.same b
  | .call op as an, .call op' bs bn => op == op' && sameArgs as bs && sameNamed an bn
  | .annotated m a, .annotated n b => m == n && same a b
  | _, _ => false

def sameArgs : List Term → List Term → Bool
  | [], [] => true
  | a :: as, b :: bs => same a b && sameArgs as bs
  | _, _ => false

def sameNamed : List (String × Term) → List (String × Term) → Bool
  | [], [] => true
  | (k, a) :: as, (l, b) :: bs => k == l && same a b && sameNamed as bs
  | _, _ => false
end

end Term

end QueryTerms
