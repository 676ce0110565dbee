import QueryTerms.Term.Renaming

/-! Calls of function literals. A function that is called at once, on plain references to variables and without
named arguments, is replaced by its body with the parameters renamed to those variables. Where a function
inside the body would capture one of them the call stays as it is. -/

namespace QueryTerms

namespace Term

/-- The parameters and the renamed body of a called function. The parameters are distinct and each has a
reference to a variable as its argument. -/
def inlineCall? : List Term → Option (List VarId × Term)
  | [] => none
  | function :: actuals => do
    let (params, body) ← function.funcParts?
    if params.length = actuals.length ∧ params.Nodup then
      let targets ← actuals.mapM asVar?
      return (params, ← body.rename (params.zip targets))
    else none

/-- What becomes of a call: the parameters and the body if it is inlined. -/
def inlined? (op : Operator) (args : List Term) (named : List (String × Term)) : Option (List VarId × Term) :=
  if op = .funcall ∧ named.isEmpty then inlineCall? args else none

/-- A call from its finished parts, inlined where that is safe. -/
def makeCall (op : Operator) (args : List Term) (named : List (String × Term)) : Term :=
  match inlined? op args named with
  | some (_, body) => body
  | none => .call op args named

end Term

end QueryTerms
