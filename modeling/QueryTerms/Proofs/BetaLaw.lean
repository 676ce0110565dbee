import QueryTerms.Proofs.Meaning
import QueryTerms.Proofs.TwinExpressions

/-! A function that is called at once on variables in use builds what its body builds on these variables, after
the numbers of the parameters were skipped. One run draws parameters and renames them at the end, the other
never sees them; all that is inlined on the way comes out the same. -/

namespace QueryTerms
open Term

private theorem Term.actual_eq_or_mem (params targets : List VarId) (v : VarId) :
    actual params targets v = v ∨ actual params targets v ∈ targets := by
  cases found : (params.zip targets).lookup v with
  | none => exact .inl (by rw [actual, found, Option.getD_none])
  | some w =>
    refine .inr ?_
    rw [actual, found, Option.getD_some]
    exact (List.of_mem_zip (Renaming.mem_of_lookup found)).2

private theorem Term.map_actual {params targets : List VarId} (distinct : params.Nodup)
    (full : targets.length = params.length) : params.map (actual params targets) = targets := by
  have assigned (v : VarId) : actual params targets v = Env.assign id params targets v := by
    have targeted : Env.assign id params (targets.map id) v = _ := Env.assign_targets id id distinct v
    simpa [actual] using targeted.symm
  rw [funext assigned]
  exact Env.map_assign id distinct full

/-- A map of parameters in use to variables in use leaves the fresh variables where they are. -/
private theorem Renumbers.of_actual {params targets : List VarId} {high : Nat} (drawn : ∀ p ∈ params, p.toNat ≤ high)
    (inUse : ∀ w ∈ targets, w.toNat ≤ high) : Renumbers (actual params targets) high high := by
  constructor
  · intro v bound
    rcases actual_eq_or_mem params targets v with same | target
    · rwa [same]
    · exact inUse _ target
  · intro v k position positive _
    have outside : v ∉ params := fun member => by
      have bound := drawn v member
      omega
    rw [actual_of_not_mem outside, position]

private theorem Build.sequence_vars (ws : List VarId) (context : Context) :
    (sequence (ws.map Handle.var) context).context = context ∧
      (sequence (ws.map Handle.var) context).result = ws.map Term.var := by
  induction ws with
  | nil => exact ⟨rfl, rfl⟩
  | cons w ws ih => exact ⟨ih.1, congrArg (Term.var w :: ·) ih.2⟩

private theorem Expr.denoteArgs_vars (scope : Scope) (ws : List VarId) :
    denoteArgs scope (ws.map Expr.var) = ws.map Handle.var := by
  induction ws with
  | nil => rfl
  | cons w ws ih => rw [List.map_cons, denoteArgs, ih]; rfl

private theorem Expr.denote_apply_vars (function : Expr) (scope : Scope) (ws : List VarId) :
    (Expr.apply function (ws.map Expr.var)).denote scope =
      Handle.call .funcall (function.denote scope :: ws.map Handle.var) .empty := by
  rw [Expr.apply, Expr.plain, denote, denoteArgs, denoteArgs_vars]
  rfl

theorem Expr.denote_func {body : Expr} (evaluates : body.fault? = none) (params : List String) (scope : Scope) :
    (Expr.func params body).denote scope =
      Handle.func params.length fun drawn => body.denote (scope.bindAll (params.zip (drawn.map Handle.var))) := by
  rw [denote, evaluates]

private theorem AllDraw.vars {allowed : VarId → Prop} {ws : List VarId} (inside : ∀ w ∈ ws, allowed w) :
    AllDraw allowed 0 (ws.map Handle.var) := by
  induction ws with
  | nil => exact .nil
  | cons w ws ih =>
    obtain ⟨first, others⟩ := List.forall_mem_cons.mp inside
    exact .cons (k := 0) (n := 0) (Handle.constant_draws fun _ _ => .var first) (ih others)

/-- A function that a handle builds takes the variables on which the handle is called. -/
private theorem Handle.call_on_vars {h : Handle} {ws : List VarId} {context : Context} {k : Nat}
    (draws : h.Draws (fun v => v.toNat ≤ context.allocated.toNat) k)
    (inUse : ∀ w ∈ ws, w.toNat ≤ context.allocated.toNat) (room : context.allocated.toNat + k < UInt64.size)
    {params : List VarId} {body : Term} (built : (h context).result = .func params body)
    (full : ws.length = params.length) :
    (Handle.call .funcall (h :: ws.map Handle.var) .empty context).context = (h context).context ∧
    (Handle.call .funcall (h :: ws.map Handle.var) .empty context).result = body.mapVars (actual params ws) := by
  have parts : (Handle.parts (h :: ws.map Handle.var) .empty context).context = (h context).context ∧
      (Handle.parts (h :: ws.map Handle.var) .empty context).result = (.func params body :: ws.map Term.var, []) := by
    obtain ⟨unmoved, refer⟩ := Build.sequence_vars ws (h context).context
    refine ⟨unmoved, ?_⟩
    rw [← built, ← refer]
    rfl
  obtain ⟨left, made⟩ := Handle.call_run .funcall (h :: ws.map Handle.var) .empty context
  have noOptions : AllDraw (fun v => v.toNat ≤ context.allocated.toNat) 0
      ((OptionList.empty : OptionList Handle).entries.map Prod.snd) := .nil
  obtain ⟨_, clean⟩ := Handle.parts_draws (.cons draws (.vars inUse)) noOptions context _ (fun _ bound => bound)
    (Nat.le_refl _) room .nil
  rw [parts.2] at clean made
  have apart : Apart (.func params body :: ws.map Term.var) := by
    simpa using clean.apart fun _ bound => bound
  have refers : List.Forall₂ (fun t w => t.stripNotes = Term.var w) (ws.map Term.var) ws := by
    rw [List.forall₂_map_left_iff, List.forall₂_same]
    exact fun w _ => rfl
  refine ⟨left.trans parts.1, made.trans ?_⟩
  simp only [makeCall, apart.inlined (rfl : (Term.func params body).stripNotes = _) (by simp [full]) refers]

/-- To replace the parameters in what a body builds is to build the body with the replacements. -/
theorem Expr.denote_actual {body : Expr} (hygienic : body.Hygienic) {params : List String} {drawn ws : List VarId}
    {context : Context} (distinct : drawn.Nodup) (fullDrawn : drawn.length = params.length)
    (full : ws.length = params.length) (drawnUsed : ∀ p ∈ drawn, p.toNat ≤ context.allocated.toNat)
    (inUse : ∀ w ∈ ws, w.toNat ≤ context.allocated.toNat) {scope : Scope}
    (outer : ∀ name ∈ (Expr.func params body).freeNames,
      ∃ v, scope name = Handle.var v ∧ v.toNat ≤ context.allocated.toNat ∧ v ∉ drawn)
    (room : context.allocated.toNat + body.allocations (countAll (params.map (·, 0)) fun _ => 0) < UInt64.size) :
    let first := body.denote (scope.bindAll (params.zip (drawn.map Handle.var))) context
    let second := body.denote (scope.bindAll (params.zip (ws.map Handle.var))) context
    first.result.mapVars (actual drawn ws) = second.result ∧ first.context = second.context := by
  intro first second
  have carried := carried_mapped (actual drawn ws)
  have handles : ∀ name ∈ body.freeNames, Handle.Twins (actual drawn ws) (Mapped (actual drawn ws))
      (fun v => v.toNat ≤ context.allocated.toNat) (countAll (params.map (·, 0)) (fun _ => 0) name)
      (scope.bindAll (params.zip (drawn.map Handle.var)) name)
      (scope.bindAll (params.zip (ws.map Handle.var)) name) := by
    intro name free
    have images := map_actual distinct (full.trans fullDrawn.symm)
    refine Scope.bindParams_twins carried fullDrawn images drawnUsed fun absent => ?_
    obtain ⟨v, found, used, fresh⟩ := outer name (List.mem_filter.mpr ⟨free, decide_eq_true absent⟩)
    rw [found]
    exact Handle.var_twins carried (actual_of_not_mem fresh) used
  have twins := denote_twins carried body hygienic (fun t _ ground => ground.mapVars_eq _) handles
  have numbers : Renumbers (actual drawn ws) context.allocated.toNat context.allocated.toNat :=
    .of_actual drawnUsed inUse
  obtain ⟨moved, moved', same⟩ := twins.paired context context ⟨rfl, rfl, fun _ bound => bound, numbers⟩ room room
  exact ⟨same, moved.trans moved'.symm⟩

namespace Proofs.BetaLaw

/-- A function of an evaluated body, called on as many variables in use, builds the same term as the body with
these variables for its parameters in the context in which so many variables more were drawn. Both leave the
same context. -/
theorem apply_func_beta {body : Expr} (hygienic : body.Hygienic) (evaluates : body.fault? = none)
    (params : List String) (ws : List VarId) (full : ws.length = params.length) (scope : Scope) (ids : String → VarId)
    (outer : ∀ name ∈ (Expr.func params body).freeNames, scope name = Handle.var (ids name)) (context : Context)
    (used : ∀ name ∈ (Expr.func params body).freeNames, ids name ≤ context.allocated)
    (inUse : ∀ w ∈ ws, w ≤ context.allocated)
    (room : context.allocated.toNat + (Expr.func params body).allocations (fun _ => 0) < UInt64.size) :
    let applied := ((Expr.apply (.func params body) (ws.map Expr.var)).denote scope).run context
    let direct := (body.denote (scope.bindAll (params.zip (ws.map Handle.var)))).run (context.advance params.length)
    applied.result = direct.result ∧ applied.context = direct.context := by
  intro applied direct
  have counted : (Expr.func params body).allocations (fun _ => 0) =
      params.length + body.allocations (Expr.countAll (params.map (·, 0)) fun _ => 0) := by
    simp only [Expr.allocations, evaluates]
  have outerUsed (name : String) (free : name ∈ (Expr.func params body).freeNames) :
      (ids name).toNat ≤ context.allocated.toNat :=
    UInt64.le_iff_toNat_le.mp (used name free)
  have targetsUsed (w : VarId) (member : w ∈ ws) : w.toNat ≤ context.allocated.toNat :=
    UInt64.le_iff_toNat_le.mp (inUse w member)
  obtain ⟨fullDrawn, moved, distinct, range⟩ := Build.allocateMany_drawn params.length context (by omega)
  have draws : ((Expr.func params body).denote scope).Draws (fun v => v.toNat ≤ context.allocated.toNat)
      ((Expr.func params body).allocations fun _ => 0) := by
    refine Expr.denote_draws _ hygienic fun name free => ?_
    rw [outer name free]
    exact Handle.constant_draws fun _ _ => .var (outerUsed name free)
  rw [Expr.denote_func evaluates] at draws
  obtain ⟨left, renamed⟩ := Handle.call_on_vars draws targetsUsed room rfl (full.trans fullDrawn.symm)
  have older : ∀ name ∈ (Expr.func params body).freeNames, ∃ v, scope name = Handle.var v ∧
      v.toNat ≤ (Build.allocateMany params.length context).context.allocated.toNat ∧
      v ∉ (Build.allocateMany params.length context).result := by
    intro name free
    have bound := outerUsed name free
    refine ⟨ids name, outer name free, by omega, fun member => ?_⟩
    have above := range _ member
    omega
  obtain ⟨same, sameContext⟩ := Expr.denote_actual hygienic distinct fullDrawn full
    (fun p member => moved ▸ (range p member).2)
    (fun w member => moved ▸ Nat.le_add_right_of_le (targetsUsed w member)) older (by omega)
  show (Build.run _ context).result = (body.denote _ (context.advance params.length)).result ∧
    (Build.run _ context).context = (body.denote _ (context.advance params.length)).context
  rw [Expr.denote_apply_vars, Expr.denote_func evaluates, ← Build.allocateMany_context]
  exact ⟨renamed.trans same, left.trans sameContext⟩

theorem apply_func_beta_nested :
    let body : Expr := .plain .map [.handle "x", .func ["z"]
      (.apply (.func ["u"] (.plain .sub [.handle "u", .handle "y"])) [.handle "z"])]
    let unary := (Expr.apply (.func ["x"] body) [.var 3]).denote fun _ => Handle.var 2
    let binary := (Expr.apply (.func ["x", "y"] body) [.var 3, .var 3]).denote .empty
    body.Hygienic ∧ body.fault? = none ∧
    (unary.run { allocated := 4 }).result =
      ((body.denote (Scope.bindAll [("x", .var 3)] fun _ => .var 2)).run { allocated := 5 }).result ∧
    (unary.run { allocated := 4 }).context =
      ((body.denote (Scope.bindAll [("x", .var 3)] fun _ => .var 2)).run { allocated := 5 }).context ∧
    (binary.run { allocated := 4 }).result =
      ((body.denote (Scope.bindAll [("x", .var 3), ("y", .var 3)] .empty)).run { allocated := 6 }).result ∧
    (binary.run { allocated := 4 }).context =
      ((body.denote (Scope.bindAll [("x", .var 3), ("y", .var 3)] .empty)).run { allocated := 6 }).context := by
  intro body unary binary
  have hygienic : body.Hygienic := by
    simp [body, Expr.plain, Expr.apply, Expr.Hygienic, Expr.HygienicArgs, Expr.HygienicNamed]
  have evaluates : body.fault? = none := by decide
  obtain ⟨result, context⟩ := apply_func_beta hygienic evaluates ["x"] [3] rfl (fun _ => Handle.var 2) (fun _ => 2)
    (fun _ _ => rfl) { allocated := 4 } (fun _ _ => by decide) (by simp) (by decide)
  obtain ⟨result', context'⟩ := apply_func_beta hygienic evaluates ["x", "y"] [3, 3] rfl .empty (fun _ => 0)
    (fun _ free => by cases free) { allocated := 4 } (fun _ free => by cases free) (by simp) (by decide)
  exact ⟨hygienic, evaluates, result, context, result', context'⟩

end Proofs.BetaLaw

end QueryTerms
