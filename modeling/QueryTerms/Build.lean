import QueryTerms.Context
import QueryTerms.Fault
import QueryTerms.Term.Inlining

/-! Building terms. A build runs in a context, from which it draws fresh variables, and reports on the way what
is worth a notice. A handle is a build of a term: it is run at each use, and each run draws variables of
its own. -/

namespace QueryTerms

/-- What a build reports besides its result. -/
inductive Notice where
  /-- A called function was replaced by its body. -/
  | inlined (params : List VarId)
  /-- The body of a function could not be evaluated. -/
  | refused (fault : Fault)
  /-- A query was completed. -/
  | queryBuilt (token : UInt64) (database : String)

/-- The outcome of a build: its result, the context afterwards and the notices in their order. -/
structure Built (α : Type) where
  result : α
  context : Context
  notices : List Notice

/-- A computation in a context. -/
def Build (α : Type) := Context → Built α

namespace Build

instance : Monad Build where
  pure a := fun context => ⟨a, context, []⟩
  bind x f := fun context =>
    let first := x context
    let second := f first.result first.context
    ⟨second.result, second.context, first.notices ++ second.notices⟩

def run (x : Build α) (context : Context) : Built α := x context

def context : Build Context := fun context => ⟨context, context, []⟩

def report (notice : Notice) : Build Unit := fun context => ⟨(), context, [notice]⟩

/-- A fresh variable; the first one is numbered one. -/
def allocate : Build VarId := fun context =>
  let id := context.allocated + 1
  ⟨id, { context with allocated := id }, []⟩

/-- Fresh variables, in ascending order. -/
def allocateMany : Nat → Build (List VarId)
  | 0 => pure []
  | n + 1 => do
    let id ← allocate
    let rest ← allocateMany n
    return id :: rest

/-- Runs builds one after the other. -/
def sequence : List (Build α) → Build (List α)
  | [] => pure []
  | x :: rest => do
    let a ← x
    let more ← sequence rest
    return a :: more

/-- Runs named builds one after the other and adds the results to the fields built before. A later result
replaces an earlier one with the same key. -/
def fieldsFrom (fields : Fields α) : List (String × Build α) → Build (Fields α)
  | [] => pure fields
  | (key, x) :: rest => do
    let a ← x
    fieldsFrom (Fields.insert key a fields) rest

def fields (entries : List (String × Build α)) : Build (Fields α) :=
  fieldsFrom [] entries

end Build

/-- A deferred term. -/
abbrev Handle := Build Term

namespace Handle

/-- A term that does not depend on the context. -/
def constant (t : Term) : Handle := pure t

/-- A reference to a variable. -/
def var (id : VarId) : Handle := constant (.var id)

/-- The place of a function body that cannot be evaluated. -/
def refused (fault : Fault) : Handle := do
  Build.report (.refused fault)
  return .literal .null

def note (label : String) (inner : Handle) : Handle := do
  return .annotated label (← inner)

/-- A call from finished parts, inlined where that is safe. -/
def assemble (op : Operator) (args : List Term) (named : Fields Term) : Handle :=
  match Term.inlined? op args named with
  | some (params, body) => do
    Build.report (.inlined params)
    return body
  | none => return .call op args named

/-- A function of as many parameters as given. The variables are drawn before the body is built. -/
def func (arity : Nat) (body : List VarId → Handle) : Handle := do
  let params ← Build.allocateMany arity
  return .func params (← body params)

end Handle

end QueryTerms
