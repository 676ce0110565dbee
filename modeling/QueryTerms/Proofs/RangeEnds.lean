import QueryTerms.Proofs.OptionSteps
import QueryTerms.Expr.Operators

/-! Ends of ranges and what is sent of them. However ends are computed from one another, the kind of the result is the
strongest kind among those it was computed from, and its value is computed from their values alone. A range sends the
kind of each of its ends in place of an option with the same name, unless the kind is left to the server. -/

namespace QueryTerms
open Term

namespace BoundKind

/-- Open among other kinds wins, and closed wins where there is no open one. -/
def strongest (kinds : List BoundKind) : BoundKind :=
  if .open ∈ kinds then .open else if .closed ∈ kinds then .closed else .default

private theorem strongest_singleton (kind : BoundKind) : strongest [kind] = kind := by
  cases kind <;> rfl

private theorem combine_strongest (first second : List BoundKind) :
    (strongest first).combine (strongest second) = strongest (first ++ second) := by
  simp only [strongest, List.mem_append]
  by_cases openFirst : .open ∈ first
  · simp only [openFirst, true_or, if_true]
    rfl
  · by_cases openSecond : .open ∈ second
    · simp only [openFirst, openSecond, or_true, if_true, if_false]
      split <;> rfl
    · simp only [openFirst, openSecond, or_self, if_false]
      by_cases closedFirst : .closed ∈ first <;> by_cases closedSecond : .closed ∈ second <;>
        simp [closedFirst, closedSecond, combine]

/-- The term that tells the server the kind, if it is not left to the server. -/
def flag? : BoundKind → Option Term
  | .open => some (.literal (.string "open"))
  | .closed => some (.literal (.string "closed"))
  | .default => none

end BoundKind

/-- A computation with ends of ranges. Its operations on one or two ends are any functions of the values: the arithmetic
of expressions, say, where a sum is `combine .add` and a negation is `map .neg`. -/
inductive BoundTree : Type → Type 1 where
  | leaf {α : Type} (kind : BoundKind) (value : α) : BoundTree α
  | map {α β : Type} (f : α → β) (a : BoundTree α) : BoundTree β
  | combine {α β γ : Type} (f : α → β → γ) (a : BoundTree α) (b : BoundTree β) : BoundTree γ

namespace BoundTree

/-- The end that is computed. -/
def bound : {α : Type} → BoundTree α → Bound α
  | _, .leaf kind value => ⟨kind, value⟩
  | _, .map f a => a.bound.map f
  | _, .combine f a b => a.bound.combine f b.bound

/-- The same operations on the values of the leaves. -/
def value : {α : Type} → BoundTree α → α
  | _, .leaf _ value => value
  | _, .map f a => f a.value
  | _, .combine f a b => f a.value b.value

/-- The kinds of the leaves. -/
def kinds : {α : Type} → BoundTree α → List BoundKind
  | _, .leaf kind _ => [kind]
  | _, .map _ a => a.kinds
  | _, .combine _ a b => a.kinds ++ b.kinds

theorem bound_eq {α : Type} (tree : BoundTree α) : tree.bound = ⟨.strongest tree.kinds, tree.value⟩ := by
  induction tree with
  | leaf kind a => rw [bound, kinds, value, BoundKind.strongest_singleton]
  | map f a ih => rw [bound, kinds, value, ih, Bound.map]
  | combine f a b first second =>
    rw [bound, kinds, value, first, second, Bound.combine, BoundKind.combine_strongest]

end BoundTree

/-- Constants that are built after other named parts are added to them, at no cost. -/
private theorem Build.fieldsFrom_constants {α : Type} (fields : Fields α) (entries : List (String × Build α))
    (constants : List (String × α)) (context : Context) :
    let built := (fieldsFrom fields entries).run context
    (fieldsFrom fields (entries ++ Fields.mapValues pure constants)).run context =
      ⟨constants.foldl (fun fields entry => Fields.insert entry.1 entry.2 fields) built.result, built.context,
        built.notices⟩ := by
  induction entries generalizing fields context with
  | nil =>
    induction constants generalizing fields with
    | nil => rfl
    | cons entry rest ih => exact ih (Fields.insert entry.1 entry.2 fields)
  | cons entry rest ih =>
    have later := ih (Fields.insert entry.1 (entry.2.run context).result fields) (entry.2.run context).context
    simp only [Build.run] at later
    simp only [List.cons_append, fieldsFrom, Build.run, Bind.bind, later]

/-- What the ends of a range say about an option. -/
def BoundKind.flagOf? (lower upper : BoundKind) (key : String) : Option Term :=
  if key = "left_bound" then lower.flag? else if key = "right_bound" then upper.flag? else none

/-- The options about which the ends of a range say nothing. -/
def OptionList.unflagged (lower upper : BoundKind) (options : OptionList α) : OptionList α :=
  ⟨options.entries.filter fun entry => (BoundKind.flagOf? lower upper entry.1).isNone⟩

/-- The handle builds a call on the given arguments and then the given options, save those about which an end says
something. What the ends say is sent in their place. -/
def Handle.SendsRange (op : Operator) (args : List Handle) (lower upper : BoundKind) (given : OptionList Handle)
    (h : Handle) : Prop :=
  ∀ context,
    let parts := (Build.sequence args).run context
    let others := (given.unflagged lower upper).build.run parts.context
    (given.unflagged lower upper).BuiltInTurn parts.context others ∧
    ∃ named, h.run context = ⟨.call op parts.result named, others.context, parts.notices ++ others.notices⟩ ∧
      (Fields.keys named).Pairwise (· < ·) ∧
      ∀ key, Fields.get? key named = (BoundKind.flagOf? lower upper key).or (Fields.get? key others.result)

namespace Expr

/-- The options that tell the server the kinds of the ends. -/
def flags (lower upper : BoundKind) : List (String × Term) :=
  (lower.flag?.map ("left_bound", ·)).toList ++ (upper.flag?.map ("right_bound", ·)).toList

variable (lower upper : BoundKind)

private theorem get?_flags (key : String) :
    Fields.get? key (flags lower upper) = BoundKind.flagOf? lower upper key := by
  have single (name : String) (flag : Option Term) :
      Fields.get? key (flag.map (name, ·)).toList = if key = name then flag else none := by
    cases flag with
    | none => exact (ite_self none).symm
    | some t => exact Fields.get?_cons key (name, t) []
  rw [flags, Fields.get?_append, single, single, BoundKind.flagOf?]
  by_cases left : key = "left_bound"
  · simp [left]
  · simp [left]

private theorem flags_nodup : (Fields.keys (flags lower upper)).Nodup := by
  cases lower <;> cases upper <;> decide

private theorem latest_flags {α : Type} (f : Term → α) :
    Fields.latest (Fields.mapValues f (flags lower upper)) = Fields.mapValues f (flags lower upper) := by
  cases lower <;> cases upper <;> rfl

private theorem denote_rangeOptions (scope : Scope) (options : List (String × Expr)) :
    denoteNamed scope (rangeOptions lower upper options) =
      denoteNamed scope options ++ Fields.mapValues pure (flags lower upper) := by
  rw [denoteNamed_eq, denoteNamed_eq]
  simp only [rangeOptions, Fields.mapValues, List.map_append, List.append_assoc]
  cases lower <;> cases upper <;> rfl

theorem entries_rangeOptions (scope : Scope) (options : List (String × Expr)) :
    (OptionList.ofEntries (denoteNamed scope (rangeOptions lower upper options))).entries =
      ((OptionList.ofEntries (denoteNamed scope options)).unflagged lower upper).entries ++
        Fields.mapValues pure (flags lower upper) := by
  have unsaid (key : String) :
      decide (key ∉ Fields.keys (Fields.mapValues (pure : Term → Handle) (flags lower upper))) =
        (BoundKind.flagOf? lower upper key).isNone := by
    rw [Fields.keys_mapValues, Bool.eq_iff_iff, decide_eq_true_iff, ← Fields.get?_eq_none_iff, get?_flags,
      Option.isNone_iff_eq_none]
  rw [denote_rangeOptions, OptionList.entries_ofEntries, Fields.latest_append, latest_flags, OptionList.unflagged,
    OptionList.entries_ofEntries]
  simp only [unsaid]

theorem build_rangeOptions (scope : Scope) (options : List (String × Expr)) (context : Context) :
    let others := ((OptionList.ofEntries (denoteNamed scope options)).unflagged lower upper).build.run context
    (OptionList.ofEntries (denoteNamed scope (rangeOptions lower upper options))).build.run context =
      ⟨(flags lower upper).foldl (fun fields entry => Fields.insert entry.1 entry.2 fields) others.result,
        others.context, others.notices⟩ := by
  intro others
  rw [OptionList.build, entries_rangeOptions]
  exact Build.fieldsFrom_constants [] _ _ context

theorem range_sends {op : Operator} (notCall : op ≠ .funcall) (scope : Scope) (subject : Expr)
    (lower upper : Bound Expr) (options : List (String × Expr)) :
    ((range op subject lower upper options).denote scope).SendsRange op
      (denoteArgs scope [subject, lower.value, upper.value]) lower.kind upper.kind
      (.ofEntries (denoteNamed scope options)) := by
  intro context parts others
  have distinct : ((OptionList.ofEntries (denoteNamed scope options)).unflagged lower.kind upper.kind).keys.Nodup :=
    (List.filter_sublist.map Prod.fst).nodup (OptionList.ofEntries_nodup _)
  have ran := Handle.call_of_ne notCall (denoteArgs scope [subject, lower.value, upper.value])
    (.ofEntries (denoteNamed scope (rangeOptions lower.kind upper.kind options))) context
  have inTurn := OptionList.build_inTurn
    (OptionList.ofEntries_nodup (denoteNamed scope (rangeOptions lower.kind upper.kind options))) parts.context
  simp only [build_rangeOptions] at ran inTurn
  refine ⟨OptionList.build_inTurn distinct parts.context, _, ran, inTurn.ascending, fun key => ?_⟩
  rw [Fields.get?_foldl_insert, Fields.get?_reverse (flags_nodup _ _), get?_flags]

end Expr

namespace Proofs.RangeEnds

/-- Ends that are computed from others have the strongest of their kinds and the value of their values. A range between
two such ends sends their kinds, each in place of the option of its name, and else the options as they were given. -/
theorem ends_sent (lower upper : BoundTree Expr) (subject : Expr) (options : List (String × Expr)) (scope : Scope) :
    (∀ {α : Type} (tree : BoundTree α), tree.bound.kind = .strongest tree.kinds ∧ tree.bound.value = tree.value) ∧
    ((Expr.between subject lower.bound upper.bound options).denote scope).SendsRange .between
      (Expr.denoteArgs scope [subject, lower.value, upper.value]) (.strongest lower.kinds) (.strongest upper.kinds)
      (.ofEntries (Expr.denoteNamed scope options)) ∧
    ((Expr.during subject lower.bound upper.bound).denote scope).SendsRange .during
      (Expr.denoteArgs scope [subject, lower.value, upper.value]) (.strongest lower.kinds) (.strongest upper.kinds)
      .empty := by
  rw [lower.bound_eq, upper.bound_eq]
  refine ⟨fun tree => ?_, ?_, ?_⟩
  · rw [tree.bound_eq]
    exact ⟨rfl, rfl⟩
  · exact Expr.range_sends (by decide) scope subject ⟨_, lower.value⟩ ⟨_, upper.value⟩ options
  · exact Expr.range_sends (by decide) scope subject ⟨_, lower.value⟩ ⟨_, upper.value⟩ []

/-- The function under `left_bound` is replaced, so the first variable goes to the one under `index`. -/
example :
    let lower : BoundTree Expr := .combine .add (.leaf .closed (.int 1)) (.map .neg (.leaf .open (.int 2)))
    let options : List (String × Expr) :=
      [("left_bound", .func ["x"] (.handle "x")), ("right_bound", .null), ("index", .func ["y"] (.handle "y"))]
    let built := ((Expr.between .null lower.bound ⟨.default, .int 9⟩ options).denote .empty).run {} |>.result
    ∃ args, built = .call .between args
      [("index", .func [1] (.var 1)), ("left_bound", .literal (.string "open")), ("right_bound", .literal .null)] :=
  ⟨_, rfl⟩

end Proofs.RangeEnds

end QueryTerms
