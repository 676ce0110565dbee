import QueryTerms.Attribute
import QueryTerms.HostValue
import QueryTerms.OptionList

/-! Expressions: what a caller writes. An expression is evaluated once, which refuses unsupported operators and
host values without a term, and then denotes a handle that can be built any number of times. The body of a
function is evaluated anew whenever the function is built. -/

namespace QueryTerms

/-- How a host map gives its entries. -/
inductive MapKind where
  /-- In the order of their keys. -/
  | ordered
  /-- In an order of its own, so that they have to be put in order. -/
  | hashed
deriving DecidableEq, Repr

namespace MapKind

/-- The entries of the map that is made of the given ones in turn, in the order in which they are built. -/
def visit : MapKind → List (String × α) → List (String × α)
  | .ordered, entries => Fields.ofEntries entries
  | .hashed, entries => Fields.sorted (OptionList.ofEntries entries).entries

end MapKind

/-- A query as it is written. Names stand for handles: those of function parameters and of shared
expressions. -/
inductive Expr where
  | value (v : HostValue)
  | term (t : Term)
  | handle (name : String)
  /-- The body, with names for handles that it may use any number of times. -/
  | share (bindings : List (String × Expr)) (body : Expr)
  /-- The start, to which the step is applied `count` times; the step names its argument. -/
  | iterate (count : Nat) (name : String) (step start : Expr)
  /-- A function of the named parameters; of two equal names the second one counts. -/
  | func (params : List String) (body : Expr)
  | note (label : String) (inner : Expr)
  /-- A table of the database given, or else of the context's database. -/
  | table (database : Option String) (name : String)
  /-- A call; the options are set in turn. -/
  | call (op : Operator) (args : List Expr) (options : List (String × Expr))
  | object (attributes : List (Attribute Expr))
  /-- An object from a host map; of two entries with one key the later one counts. -/
  | mapping (kind : MapKind) (entries : List (String × Expr))
  /-- An operator that the server does not have. -/
  | unsupported (operator : String) (operand : Expr)

namespace Expr

mutual
/-- The first fault met when the expression is evaluated, from left to right. Functions hide the faults of
their bodies. -/
def fault? : Expr → Option Fault
  | .value v =>
    match v.toTerm with
    | .ok _ => none
    | .error fault => some fault
  | .term _ | .handle _ | .func _ _ | .table _ _ => none
  | .share bindings body => faultNamed? bindings <|> fault? body
  | .iterate count _ step start => fault? start <|> (if count = 0 then none else fault? step)
  | .note _ inner => fault? inner
  | .call _ args options => faultArgs? args <|> faultNamed? options
  | .object attributes => faultAttributes? attributes
  | .mapping _ entries => faultNamed? entries
  | .unsupported operator operand => fault? operand <|> some (.unsupported operator)

def faultArgs? : List Expr → Option Fault
  | [] => none
  | e :: rest => fault? e <|> faultArgs? rest

def faultNamed? : List (String × Expr) → Option Fault
  | [] => none
  | (_, e) :: rest => fault? e <|> faultNamed? rest

def faultAttributes? : List (Attribute Expr) → Option Fault
  | [] => none
  | .field _ e :: rest => fault? e <|> faultAttributes? rest
  | .computed key e :: rest => fault? key <|> fault? e <|> faultAttributes? rest
  | .absent :: rest => faultAttributes? rest
end

end Expr

/-- The handles that names stand for. -/
def Scope := String → Handle

namespace Scope

/-- No name is bound. -/
def empty : Scope := fun _ => .constant (.literal .null)

def bind (name : String) (handle : Handle) (scope : Scope) : Scope :=
  fun other => if other = name then handle else scope other

/-- Binds several names; of two equal ones the later one counts. -/
def bindAll (bindings : List (String × Handle)) (scope : Scope) : Scope :=
  bindings.foldl (fun scope (name, handle) => scope.bind name handle) scope

end Scope

namespace Handle

def call (op : Operator) (args : List Handle) (options : OptionList Handle) : Handle := do
  let args ← Build.sequence args
  let named ← options.build
  assemble op args named

/-- An object from a host map. -/
def mapping (kind : MapKind) (entries : List (String × Handle)) : Handle := do
  return .call .makeObj [] (← Build.fields (kind.visit entries))

/-- A table reference, with the flag of the context if it has one. -/
def table (database : Option String) (name : String) : Handle := do
  let context ← Build.context
  let db := Term.database (database.getD context.database)
  let named := match context.useOutdated with
    | some flag => [("use_outdated", Term.literal (.bool flag))]
    | none => []
  return .call .table [db, .literal (.string name)] named

/-- A step applied to a handle again and again. -/
def iterate (step : Handle → Handle) : Nat → Handle → Handle
  | 0, start => start
  | n + 1, start => step (iterate step n start)

end Handle

namespace Expr

mutual
/-- The handle that an evaluated expression denotes. -/
def denote (scope : Scope) : Expr → Handle
  | .value v =>
    match v.toTerm with
    | .ok t => .constant t
    | .error _ => .constant (.literal .null)
  | .term t => .constant t
  | .handle name => scope name
  | .share bindings body => denote (scope.bindAll (denoteNamed scope bindings)) body
  | .iterate count name step start =>
    Handle.iterate (fun h => denote (scope.bind name h) step) count (denote scope start)
  | .func params body =>
    match fault? body with
    | none => Handle.func params.length fun ids =>
      denote (scope.bindAll (params.zip (ids.map Handle.var))) body
    | some fault => Handle.func params.length fun _ => .refused fault
  | .note label inner => (denote scope inner).note label
  | .table database name => Handle.table database name
  | .call op args options => Handle.call op (denoteArgs scope args) (.ofEntries (denoteNamed scope options))
  | .object attributes => Handle.object (denoteAttributes scope attributes)
  | .mapping kind entries => Handle.mapping kind (denoteNamed scope entries)
  | .unsupported _ _ => .constant (.literal .null)

def denoteArgs (scope : Scope) : List Expr → List Handle
  | [] => []
  | e :: rest => denote scope e :: denoteArgs scope rest

def denoteNamed (scope : Scope) : List (String × Expr) → List (String × Handle)
  | [] => []
  | (key, e) :: rest => (key, denote scope e) :: denoteNamed scope rest

def denoteAttributes (scope : Scope) : List (Attribute Expr) → List (Attribute Handle)
  | [] => []
  | .field key e :: rest => .field key (denote scope e) :: denoteAttributes scope rest
  | .computed key e :: rest => .computed (denote scope key) (denote scope e) :: denoteAttributes scope rest
  | .absent :: rest => .absent :: denoteAttributes scope rest
end

/-- Evaluates an expression without free names. -/
def evaluate (e : Expr) : Except Fault Handle :=
  match e.fault? with
  | none => .ok (e.denote .empty)
  | some fault => .error fault

/-- Evaluates options that are set in turn. -/
def evaluateOptions (entries : List (String × Expr)) : Except Fault (OptionList Handle) :=
  match faultNamed? entries with
  | none => .ok (.ofEntries (denoteNamed .empty entries))
  | some fault => .error fault

/-- Evaluates the attributes of an object. -/
def evaluateAttributes (attributes : List (Attribute Expr)) : Except Fault (List (Attribute Handle)) :=
  match faultAttributes? attributes with
  | none => .ok (denoteAttributes .empty attributes)
  | some fault => .error fault

end Expr

end QueryTerms
