import QueryTerms.Bound
import QueryTerms.Expr.Basic

/-! The operators that expressions are written with. Transcendental functions have no operator of their own and
are called by the names they have in the server's scripts. Hyperbolic functions have neither and are refused. -/

namespace QueryTerms

/-- How the server is asked for an operation: by an operator, by a function of its scripts, or not at all. -/
inductive Operation where
  | operator (op : Operator)
  | script (function : String)
  | unsupported
deriving DecidableEq

namespace Operation

/-- The operations without options, by the names they are written with. -/
def all : List (String × Operation) :=
  [("now", .operator .now), ("branch", .operator .branch), ("bracket", .operator .bracket), ("map", .operator .map),
   ("eq", .operator .eq), ("ne", .operator .ne), ("lt", .operator .lt), ("le", .operator .le), ("gt", .operator .gt),
   ("ge", .operator .ge), ("and", .operator .and), ("or", .operator .or), ("not", .operator .not),
   ("+", .operator .add), ("-", .operator .sub), ("*", .operator .mul), ("/", .operator .div), ("%", .operator .mod),
   ("floor", .operator .floor), ("ceil", .operator .ceil), ("round", .operator .round),
   ("sin", .script "sin"), ("cos", .script "cos"), ("tan", .script "tan"),
   ("asin", .script "asin"), ("acos", .script "acos"), ("atan", .script "atan"), ("atan2", .script "atan2"),
   ("exp", .script "exp"), ("ln", .script "log"), ("sqrt", .script "sqrt"), ("pow", .script "pow"),
   ("sinh", .unsupported), ("cosh", .unsupported), ("tanh", .unsupported),
   ("asinh", .unsupported), ("acosh", .unsupported), ("atanh", .unsupported)]

def ofName? (name : String) : Option Operation :=
  all.lookup name

end Operation

namespace Expr

def datum (d : Datum) : Expr := .value (.datum d)

def null : Expr := datum .null

def string (s : String) : Expr := datum (.string s)

def int (n : Int) : Expr := datum (.ofInt n)

/-- A call without options. -/
def plain (op : Operator) (args : List Expr) : Expr := .call op args []

def array (items : List Expr) : Expr := plain .makeArray items

/-- A call of a function; the function is built before the arguments. -/
def apply (function : Expr) (args : List Expr) : Expr := plain .funcall (function :: args)

def var (id : VarId) : Expr := .term (.var id)

def db (name : String) : Expr := .term (.database name)

/-- A script that the server evaluates. -/
def script (code : String) : Expr := plain .js [string code]

def branch (test yes no : Expr) : Expr := plain .branch [test, yes, no]

def getField (e : Expr) (field : String) : Expr := plain .getField [e, string field]

/-- The options of a range: what the ends say replaces what was set before, but an end that is left to the
server says nothing. -/
def rangeOptions (lower upper : BoundKind) (options : List (String × Expr)) : List (String × Expr) :=
  let tag (key : String) (kind : BoundKind) : List (String × Expr) :=
    match kind.tag? with
    | some text => [(key, string text)]
    | none => []
  options ++ tag "left_bound" lower ++ tag "right_bound" upper

/-- A range operator applied to a subject and two ends. -/
def range (op : Operator) (subject : Expr) (lower upper : Bound Expr) (options : List (String × Expr)) : Expr :=
  .call op [subject, lower.value, upper.value] (rangeOptions lower.kind upper.kind options)

def between (sequence : Expr) (lower upper : Bound Expr) (options : List (String × Expr)) : Expr :=
  range .between sequence lower upper options

def during (time : Expr) (start stop : Bound Expr) : Expr :=
  range .during time start stop []

def add (a b : Expr) : Expr := plain .add [a, b]

def sub (a b : Expr) : Expr := plain .sub [a, b]

def mul (a b : Expr) : Expr := plain .mul [a, b]

def div (a b : Expr) : Expr := plain .div [a, b]

def neg (e : Expr) : Expr := sub (int 0) e

def lt (a b : Expr) : Expr := plain .lt [a, b]

def eq (a b : Expr) : Expr := plain .eq [a, b]

/-- The absolute value, by the sign of the operand. -/
def abs (e : Expr) : Expr := branch (lt e (int 0)) (neg e) e

/-- The sign of the operand as -1, 0 or 1. -/
def signum (e : Expr) : Expr :=
  branch (lt e (int 0)) (int (-1)) (branch (eq e (int 0)) (int 0) (int 1))

/-- A function of the script's mathematics. -/
def math (name : String) (args : List Expr) : Expr := apply (script ("Math." ++ name)) args

def pi : Expr := script "Math.PI"

/-- A named operation on operands. One that the server does not have takes a single operand. -/
def operation? (name : String) (operands : List Expr) : Option Expr :=
  match Operation.ofName? name, operands with
  | some (.operator op), operands => some (plain op operands)
  | some (.script function), operands => some (math function operands)
  | some .unsupported, [operand] => some (.unsupported name operand)
  | _, _ => none

/-- The logarithm to any base. -/
def logBase (e base : Expr) : Expr := div (math "log" [e]) (math "log" [base])

end Expr

namespace Bound

/-- An operation on the value of an end, which the operation's expression sees under a name. -/
def mapNamed (name : String) (body : Expr) (b : Bound Expr) : Bound Expr :=
  b.map fun value => .share [(name, value)] body

/-- An operation on the values of two ends, which the operation's expression sees under two names. -/
def combineNamed (first second : String) (body : Expr) (a b : Bound Expr) : Bound Expr :=
  a.combine (fun x y => .share [(first, x), (second, y)] body) b

end Bound

end QueryTerms
