import QueryTerms.Proofs.FreshVariables
import QueryTerms.Expr.Operators

/-! Arithmetic on integers. The server computes sums, differences, products and comparisons and chooses between the arms
of a branch. Absolute values and signs have no operator of their own and are written with these, so that their operand
stands in the term several times. Every tree of such operators builds a term that computes the number of the tree. -/

namespace QueryTerms
open Term

/-- What the server computes in arithmetic. -/
inductive Scalar where
  | integer (n : Int)
  | truth (b : Bool)
deriving DecidableEq

/-- What the server makes of what it computed for the arguments. Of the arms of a branch only the chosen one counts. -/
def Operator.compute? : Operator → List (Option Scalar) → Option Scalar
  | .add, [some (.integer a), some (.integer b)] => some (.integer (a + b))
  | .sub, [some (.integer a), some (.integer b)] => some (.integer (a - b))
  | .mul, [some (.integer a), some (.integer b)] => some (.integer (a * b))
  | .lt, [some (.integer a), some (.integer b)] => some (.truth (a < b))
  | .eq, [some (.integer a), some (.integer b)] => some (.truth (a = b))
  | .branch, [some (.truth test), yes, no] => if test then yes else no
  | _, _ => none

namespace Term

mutual
/-- What the server computes for a term if the variables stand for the given integers. -/
def compute? (values : VarId → Int) : Term → Option Scalar
  | .literal (.number n) => n.toInt?.map .integer
  | .literal (.bool b) => some (.truth b)
  | .literal _ => none
  | .annotated _ inner => compute? values inner
  | .call op args named =>
    match role op args named with
    | .reference v => some (.integer (values v))
    | .binder _ => none
    | .plain => if named.isEmpty then op.compute? (computeArgs? values args) else none

def computeArgs? (values : VarId → Int) : List Term → List (Option Scalar)
  | [] => []
  | t :: rest => compute? values t :: computeArgs? values rest
end

theorem compute?_call {op : Operator} (notVar : op ≠ .var) (notFunc : op ≠ .func) (values : VarId → Int)
    (args : List Term) : compute? values (.call op args []) = op.compute? (computeArgs? values args) := by
  rw [compute?, role_of_ne notVar notFunc]
  rfl

end Term

theorem Number.toInt?_of_ofInt? {n : Int} {number : Number} (made : ofInt? n = some number) :
    number.toInt? = some n := by
  cases n with
  | ofNat n =>
    simp only [ofInt?] at made
    split at made
    next inside =>
      obtain rfl := Option.some.inj made
      simp [toInt?, Nat.mod_eq_of_lt inside]
    next => cases made
  | negSucc k =>
    simp only [ofInt?] at made
    split at made
    next inside =>
      obtain rfl := Option.some.inj made
      rfl
    next => cases made

/-- In every context the handle builds a term that computes the given value. It draws no variable and reports
nothing. -/
def Handle.Computes (values : VarId → Int) (h : Handle) (value : Scalar) : Prop :=
  ∀ context, ∃ t, h.run context = ⟨t, context, []⟩ ∧ t.compute? values = some value

variable {values : VarId → Int}

private theorem Handle.constant_computes {t : Term} {value : Scalar} (computed : t.compute? values = some value) :
    (Handle.constant t).Computes values value :=
  fun _ => ⟨t, rfl, computed⟩

private theorem Build.sequence_computes {hs : List Handle} {computed : List Scalar}
    (all : List.Forall₂ (Handle.Computes values) hs computed) (context : Context) :
    ∃ ts, (Build.sequence hs).run context = ⟨ts, context, []⟩ ∧ computeArgs? values ts = computed.map some := by
  induction all with
  | nil => exact ⟨[], rfl, rfl⟩
  | @cons h value hs computed first _ ih =>
    obtain ⟨t, ran, one⟩ := first context
    obtain ⟨ts, ranOn, others⟩ := ih
    refine ⟨t :: ts, ?_, ?_⟩
    · simp only [Build.sequence_cons, ran, ranOn, List.append_nil]
    · rw [computeArgs?, one, others, List.map_cons]

namespace Expr

variable {scope : Scope}

private theorem fault?_plain_iff {op : Operator} {args : List Expr} :
    (plain op args).fault? = none ↔ ∀ e ∈ args, e.fault? = none := by
  induction args with
  | nil => simp [plain, fault?, faultArgs?, faultNamed?]
  | cons e rest ih => simpa [plain, fault?, faultArgs?, faultNamed?] using fun _ => ih

private theorem int_fault? (n : Int) : (int n).fault? = none :=
  rfl

private theorem plain_computes {op : Operator} (ordinary : op ≠ .var ∧ op ≠ .func ∧ op ≠ .funcall)
    {args : List Expr} {computed : List Scalar} {value : Scalar}
    (all : List.Forall₂ (Handle.Computes values) (denoteArgs scope args) computed)
    (made : op.compute? (computed.map some) = some value) :
    ((plain op args).denote scope).Computes values value := by
  intro context
  obtain ⟨notVar, notFunc, notCall⟩ := ordinary
  obtain ⟨ts, ran, parts⟩ := Build.sequence_computes all context
  have kept := Handle.call_of_ne notCall (denoteArgs scope args) .empty context
  rw [ran] at kept
  refine ⟨.call op ts [], kept, ?_⟩
  rw [compute?_call notVar notFunc, parts, made]

private theorem int_computes {n : Int} {number : Number} (made : Number.ofInt? n = some number) :
    ((int n).denote scope).Computes values (.integer n) := by
  have denoted : (int n).denote scope = .constant (.literal (.number number)) := by
    simp only [int, datum, denote, HostValue.toTerm, Datum.ofInt, made, Datum.lift]
  rw [denoted]
  apply Handle.constant_computes
  rw [compute?, Number.toInt?_of_ofInt? made]
  rfl

private theorem zero_computes : ((int 0).denote scope).Computes values (.integer 0) :=
  int_computes rfl

variable {a b test yes no : Expr} {m n : Int}

private theorem pair_computes {op : Operator} (ordinary : op ≠ .var ∧ op ≠ .func ∧ op ≠ .funcall) {value : Scalar}
    (first : (a.denote scope).Computes values (.integer m)) (second : (b.denote scope).Computes values (.integer n))
    (made : op.compute? [some (.integer m), some (.integer n)] = some value) :
    ((plain op [a, b]).denote scope).Computes values value :=
  plain_computes ordinary (.cons first (.cons second .nil)) made

private theorem neg_computes (operand : (a.denote scope).Computes values (.integer n)) :
    ((neg a).denote scope).Computes values (.integer (0 - n)) :=
  pair_computes (by decide) zero_computes operand rfl

private theorem lt_computes (first : (a.denote scope).Computes values (.integer m))
    (second : (b.denote scope).Computes values (.integer n)) :
    ((lt a b).denote scope).Computes values (.truth (m < n)) :=
  pair_computes (by decide) first second rfl

private theorem eq_computes (first : (a.denote scope).Computes values (.integer m))
    (second : (b.denote scope).Computes values (.integer n)) :
    ((eq a b).denote scope).Computes values (.truth (m = n)) :=
  pair_computes (by decide) first second rfl

private theorem branch_computes {condition : Prop} [Decidable condition] {chosen other : Scalar}
    (decided : (test.denote scope).Computes values (.truth condition))
    (first : (yes.denote scope).Computes values chosen) (second : (no.denote scope).Computes values other) :
    ((branch test yes no).denote scope).Computes values (if condition then chosen else other) := by
  apply plain_computes (by decide) (.cons decided (.cons first (.cons second .nil)))
  by_cases holds : condition <;> simp [Operator.compute?, holds]

theorem abs_computes (operand : (a.denote scope).Computes values (.integer n)) :
    ((abs a).denote scope).Computes values (.integer n.natAbs) := by
  have chosen := branch_computes (lt_computes operand zero_computes) (neg_computes operand) operand
  rw [← apply_ite Scalar.integer] at chosen
  have size : (n.natAbs : Int) = if n < 0 then 0 - n else n := by split <;> omega
  rw [size]
  exact chosen

theorem signum_computes (operand : (a.denote scope).Computes values (.integer n)) :
    ((signum a).denote scope).Computes values (.integer n.sign) := by
  have rest := branch_computes (eq_computes operand zero_computes) zero_computes (int_computes (n := 1) rfl)
  have chosen := branch_computes (lt_computes operand zero_computes) (int_computes (n := -1) rfl) rest
  rw [← apply_ite Scalar.integer, ← apply_ite Scalar.integer] at chosen
  have sign : n.sign = if n < 0 then -1 else if n = 0 then 0 else 1 := by
    split
    next negative => exact Int.sign_eq_neg_one_of_neg negative
    next =>
      split
      next zero => rw [zero, Int.sign_zero]
      next => exact Int.sign_eq_one_of_pos (by omega)
  rw [sign]
  exact chosen

end Expr

/-- Arithmetic as it is written. An operand is an integer of a host type, which may stand on either side of an operator,
a handle of a variable, or a variable by its number. -/
inductive Arithmetic where
  | integer (type : IntegerType) (n : Number) (held : n.toInt?.any type.holds = true)
  | handle (name : String)
  | var (id : VarId)
  | add (a b : Arithmetic)
  | sub (a b : Arithmetic)
  | mul (a b : Arithmetic)
  | neg (a : Arithmetic)
  | abs (a : Arithmetic)
  | signum (a : Arithmetic)

namespace Arithmetic

def expr : Arithmetic → Expr
  | .integer type n _ => .value (.integer type n)
  | .handle name => .handle name
  | .var id => .var id
  | .add a b => .add a.expr b.expr
  | .sub a b => .sub a.expr b.expr
  | .mul a b => .mul a.expr b.expr
  | .neg a => .neg a.expr
  | .abs a => .abs a.expr
  | .signum a => .signum a.expr

/-- The number of a tree, without bounds on its size. -/
def value (ids : String → VarId) (values : VarId → Int) : Arithmetic → Int
  | .integer _ n _ => n.toInt?.getD 0
  | .handle name => values (ids name)
  | .var id => values id
  | .add a b => a.value ids values + b.value ids values
  | .sub a b => a.value ids values - b.value ids values
  | .mul a b => a.value ids values * b.value ids values
  | .neg a => -a.value ids values
  | .abs a => (a.value ids values).natAbs
  | .signum a => (a.value ids values).sign

private theorem expr_fault? (tree : Arithmetic) : tree.expr.fault? = none := by
  induction tree with
  | integer type n held => simp [expr, Expr.fault?, HostValue.toTerm, held]
  | handle name => rfl
  | var id => rfl
  | add a b first second | sub a b first second | mul a b first second =>
    exact Expr.fault?_plain_iff.mpr (by simp [first, second])
  | neg a ih => exact Expr.fault?_plain_iff.mpr (by simp [Expr.int_fault?, ih])
  | abs a ih =>
    simp [expr, Expr.abs, Expr.branch, Expr.lt, Expr.neg, Expr.sub, Expr.fault?_plain_iff, Expr.int_fault?, ih]
  | signum a ih =>
    simp [expr, Expr.signum, Expr.branch, Expr.lt, Expr.eq, Expr.fault?_plain_iff, Expr.int_fault?, ih]

theorem denote_computes (ids : String → VarId) (values : VarId → Int) (tree : Arithmetic) :
    (tree.expr.denote fun name => .var (ids name)).Computes values (.integer (tree.value ids values)) := by
  induction tree with
  | integer type n held =>
    obtain ⟨k, read, inside⟩ := (Option.any_eq_true _ _).mp held
    have denoted : (expr (.integer type n held)).denote (fun name => .var (ids name)) =
        .constant (.literal (.number n)) := by
      simp only [expr, Expr.denote, HostValue.toTerm, held, if_true]
    rw [denoted]
    apply Handle.constant_computes
    rw [compute?, value, read]
    rfl
  | handle name => exact Handle.constant_computes rfl
  | var id => exact Handle.constant_computes rfl
  | add a b first second | sub a b first second | mul a b first second =>
    exact Expr.pair_computes (by decide) first second rfl
  | neg a ih =>
    rw [value, ← Int.zero_sub]
    exact Expr.neg_computes ih
  | abs a ih => exact Expr.abs_computes ih
  | signum a ih => exact Expr.signum_computes ih

end Arithmetic

namespace Proofs.ComputedNumbers

/-- Every tree evaluates, and in every context it builds a term that computes the number of the tree, whatever integers
the variables stand for. -/
theorem compute?_built (tree : Arithmetic) (ids : String → VarId) (values : VarId → Int) (context : Context) :
    tree.expr.fault? = none ∧
    ∃ t, (tree.expr.denote fun name => .var (ids name)).run context = ⟨t, context, []⟩ ∧
      t.compute? values = some (.integer (tree.value ids values)) :=
  ⟨tree.expr_fault?, tree.denote_computes ids values context⟩

/-- The size of the least 64-bit integer is no 64-bit integer. -/
example :
    let least : Arithmetic := .integer (.signed 64) (.negSucc 0x7FFFFFFFFFFFFFFF) (by decide)
    let t := ((Arithmetic.abs least).expr.denote .empty).run {} |>.result
    t.compute? (fun _ => 0) = some (.integer 0x8000000000000000) := by
  decide

end Proofs.ComputedNumbers

end QueryTerms
