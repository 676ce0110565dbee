import QueryTerms.Proofs.AlphaEquivalence
import QueryTerms.Proofs.TwinExpressions

/-! Builds of one expression at two counters. The number of the first fresh variable makes no difference beyond
itself: the later build draws as many variables and yields the same term with its fresh variables moved up. So a
handle that is built twice yields equivalent terms that share no bound variable. -/

namespace QueryTerms
open Term

/-- Moves the variables above `low` up and leaves the others. -/
def shift (low offset v : VarId) : VarId :=
  if v ≤ low then v else v + offset

theorem shift_of_le {low offset v : VarId} (bound : v ≤ low) : shift low offset v = v :=
  if_pos bound

theorem Renumbers.of_shift {low high : VarId} (later : low ≤ high) :
    Renumbers (shift low (high - low)) low.toNat high.toNat := by
  have lower := UInt64.le_iff_toNat_le.mp later
  constructor
  · intro v bound
    rw [shift_of_le (UInt64.le_iff_toNat_le.mpr bound)]
    omega
  · intro v k position positive room
    have above : ¬ v ≤ low := fun bound => by
      have upper := UInt64.le_iff_toNat_le.mp bound
      omega
    rw [shift, if_neg above, UInt64.toNat_add, UInt64.toNat_sub_of_le _ _ later]
    have moved : v.toNat + (high.toNat - low.toNat) = high.toNat + k := by omega
    rw [moved]
    exact Nat.mod_eq_of_lt room

namespace Proofs.Renumbering

/-- Built with handles from outside that stand for variables in use, an expression draws as many variables from a
later counter and builds the same term with its fresh variables moved up. The two terms are equivalent, and they
share no bound variable if the second counter is not below the one that the first build leaves. -/
theorem denote_shift {e : Expr} (hygienic : e.Hygienic) (scope : Scope) (ids : String → VarId)
    (outer : ∀ name ∈ e.freeNames, scope name = Handle.var (ids name)) (context : Context)
    (used : ∀ name ∈ e.freeNames, ids name ≤ context.allocated) (counter : VarId)
    (later : context.allocated ≤ counter) (room : counter.toNat + e.allocations (fun _ => 0) < UInt64.size) :
    let built := (e.denote scope).run context
    let rebuilt := (e.denote scope).run { context with allocated := counter }
    built.context = context.advance (e.allocations fun _ => 0) ∧
    rebuilt.context = Context.advance { context with allocated := counter } (e.allocations fun _ => 0) ∧
    rebuilt.result = built.result.mapVars (shift context.allocated (counter - context.allocated)) ∧
    AlphaEquiv built.result rebuilt.result ∧
    (built.context.allocated ≤ counter → built.result.binders.Disjoint rebuilt.result.binders) := by
  intro built rebuilt
  have lower := UInt64.le_iff_toNat_le.mp later
  have inUse (v : VarId) (bound : v ≤ context.allocated) : v.toNat ≤ context.allocated.toNat :=
    UInt64.le_iff_toNat_le.mp bound
  let up := shift context.allocated (counter - context.allocated)
  have twins : Handle.Twins up (Mapped up) (· ≤ context.allocated) (e.allocations fun _ => 0) (e.denote scope)
      (e.denote scope) := by
    refine Expr.denote_twins (carried_mapped up) e hygienic (fun t _ ground => ground.mapVars_eq up) fun name free => ?_
    rw [outer name free]
    exact Handle.var_twins (carried_mapped up) (shift_of_le (used name free)) (used name free)
  have twin : Twin up (· ≤ context.allocated) context { context with allocated := counter } :=
    ⟨rfl, rfl, inUse, .of_shift later⟩
  obtain ⟨moved, moved', same⟩ : _ ∧ _ ∧ built.result.mapVars up = rebuilt.result :=
    twins.paired _ _ twin (by omega) room
  obtain ⟨counted, clean⟩ : built.context.allocated.toNat = _ ∧ Clean (· ≤ context.allocated) _ _ [built.result] :=
    twins.draws context _ inUse (Nat.le_refl _) (by omega) .nil
  obtain ⟨_, clean'⟩ : _ ∧ Clean (· ≤ context.allocated) counter.toNat _ [rebuilt.result] :=
    twins.draws { context with allocated := counter } _ (fun v bound => Nat.le_trans (inUse v bound) lower)
      (Nat.le_refl _) room .nil
  refine ⟨moved, moved', same.symm, ?_, ?_⟩
  · have equivalent : AlphaEquiv built.result (built.result.mapVars up) :=
      alphaEquiv_mapVars (twin.separates room clean) fun v free =>
        shift_of_le (clean.free _ List.mem_cons_self v free)
    rwa [same] at equivalent
  · intro after v here there
    have ahead := UInt64.le_iff_toNat_le.mp after
    have upTo := (clean.drawn v (by simpa using here)).2
    have above := (clean'.drawn v (by simpa using there)).1
    omega

theorem denote_shift_shared :
    let e : Expr := .func ["x"] (.plain .map [.handle "y", .func ["z"] (.plain .sub [.handle "z", .handle "x"])])
    let built := (e.denote fun _ => Handle.var 5).run { allocated := 7 }
    let rebuilt := (e.denote fun _ => Handle.var 5).run built.context
    e.Hygienic ∧ e.freeNames = ["y"] ∧ built.context.allocated = 9 ∧ built.result.binders = [8, 9] ∧
      rebuilt.result = built.result.mapVars (shift 7 2) ∧ rebuilt.result.binders = [10, 11] ∧
      AlphaEquiv built.result rebuilt.result ∧ built.result.binders.Disjoint rebuilt.result.binders := by
  intro e built rebuilt
  have hygienic : e.Hygienic := by
    simp [e, Expr.plain, Expr.Hygienic, Expr.HygienicArgs, Expr.HygienicNamed]
  have drawn : e.allocations (fun _ => 0) = 2 := by decide
  obtain ⟨_, _, moved, equivalent, disjoint⟩ := denote_shift hygienic (fun _ => Handle.var 5) (fun _ => 5)
    (fun _ _ => rfl) { allocated := 7 } (fun _ _ => by decide) 9 (by decide) (by rw [drawn]; decide)
  exact ⟨hygienic, by decide, rfl, by decide, moved, by decide, equivalent, disjoint (by decide)⟩

end Proofs.Renumbering

end QueryTerms
