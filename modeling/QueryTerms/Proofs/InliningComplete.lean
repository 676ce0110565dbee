import QueryTerms.Proofs.TwinExpressions

/-! Inlining is complete. A call is inlined once, when it is assembled from finished parts, and that is enough: an
expression without raw references builds a term in which no call could still be inlined. The variables are fresh,
so that no call of the right form is ever refused. -/

namespace QueryTerms
open Term

/-- A handle of a variable in use, or one that an expression without raw references denotes in a scope of such
handles, beside the number of variables that it draws. -/
inductive Handle.Written (inUse : VarId → Prop) : Nat → Handle → Prop where
  | var {v : VarId} : inUse v → Written inUse 0 (.var v)
  | denoted {e : Expr} {scope : Scope} {counts : String → Nat} : e.Hygienic → (∀ t ∈ e.rawTerms, t.Settled) →
    (∀ name ∈ e.freeNames, Written inUse (counts name) (scope name)) →
    Written inUse (e.allocations counts) (e.denote scope)

/-- What a written handle builds is settled, whatever is built beside it. -/
theorem Handle.Written.twins {inUse : VarId → Prop} {k : Nat} {h : Handle} (written : h.Written inUse k) :
    Handle.Twins id (fun t _ => t.Settled) inUse k h h := by
  induction written with
  | var inside => exact Handle.var_twins carried_settled rfl inside
  | denoted hygienic raw _ ih =>
    exact Expr.denote_twins carried_settled _ hygienic (fun t member _ => raw t member) ih

namespace Proofs.InliningComplete

/-- Built in a context in which the variables of its handles are in use, an expression leaves no call that could be
inlined. If it is itself a call whose parts have the right form, then the call is inlined. -/
theorem denote_settled {e : Expr} (hygienic : e.Hygienic) (raw : ∀ t ∈ e.rawTerms, t.Settled) (scope : Scope)
    (counts : String → Nat) (context : Context)
    (outer : ∀ name ∈ e.freeNames, (scope name).Written (· ≤ context.allocated) (counts name))
    (room : context.allocated.toNat + e.allocations counts < UInt64.size) :
    ((e.denote scope).run context).result.Settled ∧
    ∀ op args options, e = .call op args options →
      let parts := ((Handle.parts (Expr.denoteArgs scope args) (.ofEntries (Expr.denoteNamed scope options))).run
        context).result
      Inlinable op parts.1 parts.2 → ∃ params body, inlined? op parts.1 parts.2 = some (params, body) := by
  have used (v : VarId) (inUse : v ≤ context.allocated) : v.toNat ≤ context.allocated.toNat :=
    UInt64.le_iff_toNat_le.mp inUse
  refine ⟨?_, ?_⟩
  · have twins := (Handle.Written.denoted hygienic raw outer).twins
    have same : Twin id (· ≤ context.allocated) context context := ⟨rfl, rfl, used, .refl _⟩
    exact (twins.paired context context same room room).2.2
  · rintro op args options rfl parts inlinable
    obtain ⟨_, _, inArgs, inOptions⟩ := hygienic
    have argsDraw := Expr.denoteArgs_draws args inArgs fun name free =>
      (outer name (List.mem_append_left _ free)).twins.draws
    have optionsDraw := Expr.denoteNamed_draws options inOptions fun name free =>
      (outer name (List.mem_append_right _ free)).twins.draws
    obtain ⟨_, clean⟩ := Handle.parts_draws argsDraw optionsDraw.options.all context _ used (Nat.le_refl _) room .nil
    exact (clean.apart used).exists_inlined inlinable

theorem denote_settled_labelled :
    let inner : Expr := .func ["z"] (.plain .sub [.handle "z", .handle "x"])
    let function : Expr := .note "f" (.func ["x"] (.share [("g", inner)] (.apply (.handle "g") [.handle "x"])))
    let scope : Scope := fun _ => Handle.var 5
    let e : Expr := .apply function [.handle "y"]
    let parts := ((Handle.parts (Expr.denoteArgs scope [function, .handle "y"]) .empty).run { allocated := 7 }).result
    e.Hygienic ∧ e.freeNames = ["y"] ∧ e.allocations (fun _ => 0) = 2 ∧
      ((e.denote scope).run { allocated := 7 }).result = .call .sub [.var 5, .var 5] [] ∧
      ((e.denote scope).run { allocated := 7 }).result.Settled ∧
      ∃ params body, inlined? .funcall parts.1 parts.2 = some (params, body) := by
  intro inner function scope e parts
  have hygienic : e.Hygienic := by
    simp [e, function, inner, Expr.plain, Expr.apply, Expr.Hygienic, Expr.HygienicArgs, Expr.HygienicNamed]
  have names : e.freeNames = ["y"] := by decide
  have drawn : e.allocations (fun _ => 0) = 2 := by decide
  obtain ⟨settled, inlines⟩ := denote_settled hygienic (fun _ member => by cases member) scope (fun _ => 0)
    { allocated := 7 } (fun _ _ => .var (by decide)) (by rw [drawn]; decide)
  refine ⟨hygienic, names, drawn, rfl, settled, inlines .funcall _ _ rfl ?_⟩
  refine ⟨rfl, rfl, _, [.var 5], [8], .call .sub [.var 8, .var 8] [], rfl, by rfl, rfl, ?_⟩
  intro t member
  exact ⟨5, by rw [List.mem_singleton.mp member]; rfl⟩

end Proofs.InliningComplete

end QueryTerms
