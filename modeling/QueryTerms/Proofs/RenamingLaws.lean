import QueryTerms.Proofs.Binders

/-! Renaming as a map of the free variables. What becomes of a term is settled by what becomes of the variables that
are free in it. So renamings that agree on them cannot be told apart, two renamings in a row are one, and a renaming
that keeps the variables apart can be taken back. -/

namespace QueryTerms

namespace Renaming

/-- What becomes of a variable: its target, or the variable itself if it has none. -/
def target (m : Renaming) (v : VarId) : VarId :=
  (m.lookup v).getD v

theorem target_of_lookup {m : Renaming} {v w : VarId} (found : m.lookup v = some w) : m.target v = w := by
  rw [target, found, Option.getD_some]

@[simp] theorem target_nil (v : VarId) : target [] v = v :=
  rfl

private theorem target_without (m : Renaming) (params : List VarId) (v : VarId) :
    (m.without params).target v = if v ∈ params then v else m.target v := by
  rw [target, lookup_without]
  split <;> rfl

private theorem target_without_of_mem {m : Renaming} {params : List VarId} {v : VarId} (inside : v ∈ params) :
    (m.without params).target v = v := by
  rw [target_without, if_pos inside]

private theorem target_without_of_not_mem {m : Renaming} {params : List VarId} {v : VarId} (outside : v ∉ params) :
    (m.without params).target v = m.target v := by
  rw [target_without, if_neg outside]

/-- The map that does what two maps do one after the other. -/
def andThen (first second : Renaming) : Renaming :=
  (first ++ second).map fun entry => (entry.1, second.target (first.target entry.1))

/-- The third map has the variables of the first two and does to them what these do one after the other. -/
def Composes (first second both : Renaming) : Prop :=
  ∀ v w, both.lookup v = some w ↔
    ((first.lookup v).isSome ∨ (second.lookup v).isSome) ∧ second.target (first.target v) = w

private theorem lookup_map_values (f : VarId → VarId) (m : Renaming) (v : VarId) :
    List.lookup v (m.map fun entry => (entry.1, f entry.1)) = (m.lookup v).map fun _ => f v := by
  induction m with
  | nil => rfl
  | cons entry m ih =>
    obtain ⟨source, image⟩ := entry
    rw [List.map_cons, List.lookup_cons, List.lookup_cons, ih]
    by_cases same : v = source
    · simp [same]
    · simp [beq_eq_false_iff_ne.mpr same]

theorem composes_andThen (first second : Renaming) : Composes first second (first.andThen second) := by
  intro v w
  rw [andThen, lookup_map_values fun v => second.target (first.target v), List.lookup_append]
  cases first.lookup v <;> cases second.lookup v <;> simp

private theorem Composes.target_eq {first second both : Renaming} (composes : Composes first second both) (v : VarId) :
    both.target v = second.target (first.target v) := by
  cases found : both.lookup v with
  | some w => exact (target_of_lookup found).trans ((composes v w).mp found).2.symm
  | none =>
    have missing : ¬ ((first.lookup v).isSome ∨ (second.lookup v).isSome) := by
      intro present
      have entry := (composes v _).mpr ⟨present, rfl⟩
      rw [found] at entry
      cases entry
    simp only [not_or, Bool.not_eq_true, Option.isSome_eq_false_iff, Option.isNone_iff_eq_none] at missing
    simp only [target, found, missing, Option.getD_none]

end Renaming

namespace Term
open Renaming Proofs.RenamingExact

mutual
/-- The variables that are free in a term, each as often as it occurs. -/
def freeVars : Term → List VarId
  | .literal _ => []
  | .annotated _ inner => freeVars inner
  | .call op args named =>
    match role op args named with
    | .reference v => [v]
    | .binder params => (freeVarsArgs args).filter fun v => !params.contains v
    | .plain => freeVarsArgs args ++ freeVarsNamed named

def freeVarsArgs : List Term → List VarId
  | [] => []
  | t :: rest => freeVars t ++ freeVarsArgs rest

def freeVarsNamed : List (String × Term) → List VarId
  | [] => []
  | (_, t) :: rest => freeVars t ++ freeVarsNamed rest
end

private theorem freeVarsArgs_eq (args : List Term) : freeVarsArgs args = args.flatMap freeVars := by
  induction args with
  | nil => rfl
  | cons t rest ih => rw [freeVarsArgs, ih, List.flatMap_cons]

private theorem freeVarsNamed_eq (named : List (String × Term)) :
    freeVarsNamed named = named.flatMap fun field => freeVars field.2 := by
  induction named with
  | nil => rfl
  | cons field rest ih => rw [freeVarsNamed, ih, List.flatMap_cons]

theorem mem_freeVars {t : Term} {v : VarId} : v ∈ t.freeVars ↔ occursFree v t = true := by
  induction t using formInduction with
  | literal d => simp [freeVars]
  | annotated note inner ih => simpa [freeVars] using ih
  | reference w =>
    rw [occursFree_var, eq_comm]
    simp [var, freeVars]
  | function params body ih =>
    rw [occursFree_func, ← ih]
    simp [func, freeVars, freeVarsArgs, and_comm]
  | plain op args named plain parts fields =>
    rw [occursFree_plain plain, freeVars]
    simp only [plain, freeVarsArgs_eq, freeVarsNamed_eq, List.mem_append, List.mem_flatMap]
    apply or_congr
    · exact exists_congr fun t => and_congr_right (parts t)
    · exact exists_congr fun field => and_congr_right (fields field)

theorem FreeAt.rename {m : Renaming} {t t' : Term} (renamed : Term.rename m t = some t') {p : Position} {v : VarId}
    (free : t.FreeAt p v) : t'.FreeAt p (m.target v) := by
  refine ⟨(reference_rename renamed free.1).2 free.2, ?_⟩
  rw [under_rename renamed]
  exact not_under_renamed renamed free

private theorem occursFree_target {m : Renaming} {t t' : Term} (renamed : rename m t = some t') {v : VarId}
    (free : occursFree v t = true) : occursFree (m.target v) t' = true := by
  obtain ⟨p, freeAt⟩ := occursFree_iff_freeAt.mp free
  exact occursFree_iff_freeAt.mpr ⟨p, freeAt.rename renamed⟩

/-- A function is renamed by its body, unless what becomes of a variable that is free in it is one of the parameters. -/
private theorem rename_func_iff_target {m : Renaming} {params : List VarId} {body t' : Term} :
    rename m (func params body) = some t' ↔
      (∀ v, v ∉ params → occursFree v body = true → m.target v ∉ params) ∧
      ∃ body', rename (m.without params) body = some body' ∧ t' = func params body' := by
  rw [rename_func_eq_some_iff]
  apply and_congr_left
  intro _
  constructor
  · intro safe v outside inside
    cases found : m.lookup v with
    | some w =>
      rw [target_of_lookup found]
      exact safe v w outside found inside
    | none => simpa [target, found] using outside
  · intro safe v w outside found inside
    rw [← target_of_lookup found]
    exact safe v outside inside

private theorem forall₂_factor {α β γ : Type} {R : α → β → Prop} {S : α → γ → Prop} {T : β → γ → Prop} {xs : List α}
    {ys : List β} {zs : List γ} (first : List.Forall₂ R xs ys) (whole : List.Forall₂ S xs zs)
    (step : ∀ x ∈ xs, ∀ y z, R x y → S x z → T y z) : List.Forall₂ T ys zs := by
  induction first generalizing zs with
  | nil =>
    obtain rfl := List.forall₂_nil_left_iff.mp whole
    exact .nil
  | cons here _ ih =>
    obtain ⟨z, zs, there, rest, rfl⟩ := List.forall₂_cons_left_iff.mp whole
    refine .cons (step _ List.mem_cons_self _ _ here there) (ih rest ?_)
    intro x member
    exact step x (List.mem_cons_of_mem _ member)

/-- If one renaming does at once what two others do one after the other, then the second of them leads from what the
first one gives to what the one gives. -/
private theorem rename_factor {first second both : Renaming} {t t₁ t₂ : Term} (began : rename first t = some t₁)
    (whole : rename both t = some t₂)
    (agree : ∀ v, occursFree v t = true → second.target (first.target v) = both.target v) :
    rename second t₁ = some t₂ := by
  induction t using formInduction generalizing first second both t₁ t₂ with
  | literal d =>
    obtain rfl := Option.some.inj ((rename_literal first d).symm.trans began)
    obtain rfl := Option.some.inj ((rename_literal both d).symm.trans whole)
    exact rename_literal second d
  | annotated note inner ih =>
    rw [rename_annotated, Option.map_eq_some_iff] at began whole
    obtain ⟨inner₁, began, rfl⟩ := began
    obtain ⟨inner₂, whole, rfl⟩ := whole
    rw [rename_annotated, ih began whole (by simpa using agree), Option.map_some]
  | reference v =>
    obtain rfl := Option.some.inj ((rename_var first v).symm.trans began)
    obtain rfl := Option.some.inj ((rename_var both v).symm.trans whole)
    rw [rename_var]
    exact congrArg (some ∘ var) (agree v (by simp))
  | function params body ih =>
    obtain ⟨kept, body₁, beganBody, rfl⟩ := rename_func_iff_target.mp began
    obtain ⟨safe, body₂, wholeBody, rfl⟩ := rename_func_iff_target.mp whole
    refine rename_func_iff_target.mpr ⟨?_, body₂, ih beganBody wholeBody ?_, rfl⟩
    · intro w outside inside
      obtain ⟨v, free, rfl⟩ : ∃ v, occursFree v body = true ∧ (first.without params).target v = w :=
        occursFree_of_rename beganBody inside
      by_cases param : v ∈ params
      · rw [target_without_of_mem param] at outside
        exact absurd param outside
      · rw [target_without_of_not_mem param, agree v (occursFree_func.mpr ⟨param, free⟩)]
        exact safe v param free
    · intro v free
      by_cases param : v ∈ params
      · rw [target_without_of_mem param, target_without_of_mem param, target_without_of_mem param]
      · rw [target_without_of_not_mem param, target_without_of_not_mem (kept v param free),
          target_without_of_not_mem param]
        exact agree v (occursFree_func.mpr ⟨param, free⟩)
  | plain op args named plain parts fields =>
    obtain ⟨args₁, named₁, rfl, beganArgs, beganNamed⟩ := (rename_plain_eq_some_iff plain).mp began
    obtain ⟨args₂, named₂, rfl, wholeArgs, wholeNamed⟩ := (rename_plain_eq_some_iff plain).mp whole
    refine (rename_plain_eq_some_iff (role_renamed_plain plain beganArgs beganNamed)).mpr
      ⟨args₂, named₂, rfl, ?_, ?_⟩
    · apply forall₂_factor beganArgs wholeArgs
      intro t member t₁ t₂ began whole
      apply parts t member began whole
      intro v free
      exact agree v ((occursFree_plain plain).mpr (.inl ⟨t, member, free⟩))
    · apply forall₂_factor beganNamed wholeNamed
      intro field member field₁ field₂ began whole
      refine ⟨began.1.symm.trans whole.1, fields field member began.2 whole.2 ?_⟩
      intro v free
      exact agree v ((occursFree_plain plain).mpr (.inr ⟨field, member, free⟩))

theorem rename_eq_of_agree {m n : Renaming} {t : Term}
    (agree : ∀ v, occursFree v t = true → m.target v = n.target v) : rename m t = rename n t := by
  ext t'
  constructor
  · intro renamed
    exact rename_factor (rename_nil t) renamed fun v free => (agree v free).symm
  · intro renamed
    exact rename_factor (rename_nil t) renamed agree

/-- Two renamings that are not refused one after the other are not refused at once. -/
private theorem not_captured_of_composes {first second both : Renaming} {t t₁ t₂ : Term}
    (composes : Composes first second both)
    (began : rename first t = some t₁) (ended : rename second t₁ = some t₂) : ¬ Captured both t := by
  intro ⟨p, v, w, free, found, under⟩
  have reached : w = second.target (first.target v) := ((composes v w).mp found).2.symm
  rw [reached, ← under_rename began] at under
  exact not_under_renamed ended (free.rename began) under

theorem rename_composes {first second both : Renaming} {t t₁ t₂ : Term} (composes : Composes first second both)
    (began : rename first t = some t₁) (ended : rename second t₁ = some t₂) : rename both t = some t₂ := by
  obtain ⟨t', whole⟩ := rename_of_not_captured t both (not_captured_of_composes composes began ended)
  have same := rename_factor began whole fun v _ => (composes.target_eq v).symm
  rw [whole, ← same, ended]

/-- The second map leads back from what becomes of the free variables, and has nothing else. -/
def Inverts (m : Renaming) (t : Term) (back : Renaming) : Prop :=
  ∀ w v, back.lookup w = some v ↔ occursFree v t = true ∧ m.target v = w

/-- The way back from what becomes of the free variables. -/
def inverse (m : Renaming) (t : Term) : Renaming :=
  t.freeVars.map fun v => (m.target v, v)

theorem inverts_inverse {m : Renaming} {t : Term}
    (apart : ∀ u v, occursFree u t = true → occursFree v t = true → m.target u = m.target v → u = v) :
    Inverts m t (inverse m t) := by
  have origin {w v : VarId} (found : (inverse m t).lookup w = some v) : occursFree v t = true ∧ m.target v = w := by
    obtain ⟨u, member, entry⟩ := List.mem_map.mp (mem_of_lookup found)
    obtain ⟨rfl, rfl⟩ := Prod.mk.inj entry
    exact ⟨mem_freeVars.mp member, rfl⟩
  intro w v
  refine ⟨origin, fun ⟨free, reached⟩ => ?_⟩
  cases found : (inverse m t).lookup w with
  | some u =>
    obtain ⟨free', reached'⟩ := origin found
    rw [apart u v free' free (reached'.trans reached.symm)]
  | none =>
    have entry : (m.target v, v) ∈ inverse m t := List.mem_map.mpr ⟨v, mem_freeVars.mpr free, rfl⟩
    have other := List.lookup_eq_none_iff.mp found _ entry
    simp [reached] at other

theorem rename_inverts {m back : Renaming} {t t' : Term} (renamed : rename m t = some t') (inverts : Inverts m t back) :
    rename back t' = some t := by
  apply rename_factor renamed (rename_nil t)
  intro v free
  exact target_of_lookup ((inverts _ v).mpr ⟨free, rfl⟩)

end Term

namespace Proofs.RenamingLaws
open Term Renaming

/-- What is free after a renaming is what became of the variables that were free before it. So a variable of the map is
free only if it is also the target of one. -/
theorem occursFree_rename_iff {m : Renaming} {t t' : Term} (renamed : rename m t = some t') :
    (∀ w, occursFree w t' = true ↔ ∃ v, occursFree v t = true ∧ m.target v = w) ∧
    ∀ p, (m.lookup p).isSome → occursFree p t' = true → ∃ v, occursFree v t = true ∧ m.lookup v = some p := by
  constructor
  · intro w
    constructor
    · exact occursFree_of_rename renamed
    · rintro ⟨v, free, rfl⟩
      exact occursFree_target renamed free
  · intro p mapped free
    obtain ⟨v, inside, reached⟩ := occursFree_of_rename renamed free
    cases found : m.lookup v with
    | some w => exact ⟨v, inside, by simpa [found] using reached⟩
    | none =>
      obtain rfl : v = p := by simpa [found] using reached
      simp [found] at mapped

theorem occursFree_rename_iff_merged :
    let m : Renaming := [(1, 2), (2, 1), (3, 2)]
    let inner := func [1] (.call .add [var 1, var 4] [])
    let t := Term.call .sub [var 1, .annotated "x" (var 2), var 3, inner] []
    let t' := Term.call .sub [var 2, .annotated "x" (var 1), var 2, inner] []
    rename m t = some t' ∧ (∀ w, occursFree w t' = true ↔ ∃ v, occursFree v t = true ∧ m.target v = w) ∧
    (m.lookup 1).isSome ∧ occursFree 1 t' = true ∧ ∃ v, occursFree v t = true ∧ m.lookup v = some 1 := by
  intro m inner t t'
  have renamed : rename m t = some t' := rfl
  obtain ⟨image, targets⟩ := occursFree_rename_iff renamed
  exact ⟨renamed, image, rfl, rfl, targets 1 rfl rfl⟩

/-- The laws of renaming. Maps that agree on the free variables of a term do the same to it and are refused alike. What
two maps do one after the other, one map does at once. What a map did can be taken back if it keeps the free
variables apart. -/
theorem rename_laws (t : Term) :
    (∀ m n : Renaming, (∀ v, occursFree v t = true → m.target v = n.target v) → rename m t = rename n t) ∧
    (∀ (first second : Renaming) (t₁ t₂ : Term), rename first t = some t₁ → rename second t₁ = some t₂ →
      Composes first second (first.andThen second) ∧
      ∀ both, Composes first second both → rename both t = some t₂) ∧
    ∀ (m : Renaming) (t' : Term), rename m t = some t' →
      (∀ u v, occursFree u t = true → occursFree v t = true → m.target u = m.target v → u = v) →
      Inverts m t (inverse m t) ∧ ∀ back, Inverts m t back → rename back t' = some t := by
  refine ⟨fun m n agree => rename_eq_of_agree agree, ?_, ?_⟩
  · intro first second t₁ t₂ began ended
    exact ⟨composes_andThen first second, fun both composes => rename_composes composes began ended⟩
  · intro m t' renamed apart
    exact ⟨inverts_inverse apart, fun back inverts => rename_inverts renamed inverts⟩

theorem rename_laws_swap :
    let t (v w : VarId) := func [3] (.call .sub [var v, func [1] (var 1), .annotated "x" (var w)] [])
    rename [(1, 1), (7, 3)] (t 1 2) = rename [] (t 1 2) ∧
    rename [(1, 2)] (t 1 2) = some (t 2 2) ∧ rename [(2, 1)] (t 2 2) = some (t 1 1) ∧
    rename (andThen [(1, 2)] [(2, 1)]) (t 1 2) = some (t 1 1) ∧
    rename [(1, 2), (2, 1)] (t 1 2) = some (t 2 1) ∧
    inverse [(1, 2), (2, 1)] (t 1 2) = [(2, 1), (1, 2)] ∧
    rename (inverse [(1, 2), (2, 1)] (t 1 2)) (t 2 1) = some (t 1 2) := by
  intro t
  have free (v : VarId) : occursFree v (t 1 2) = true ↔ v = 1 ∨ v = 2 := by
    have listed : (t 1 2).freeVars = [1, 2] := rfl
    rw [← mem_freeVars, listed]
    simp
  have agree (v : VarId) (inside : occursFree v (t 1 2) = true) : target [(1, 1), (7, 3)] v = target [] v := by
    rcases (free v).mp inside with rfl | rfl <;> rfl
  have apart (u v : VarId) (left : occursFree u (t 1 2) = true) (right : occursFree v (t 1 2) = true)
      (same : target [(1, 2), (2, 1)] u = target [(1, 2), (2, 1)] v) : u = v := by
    rcases (free u).mp left with rfl | rfl <;> rcases (free v).mp right with rfl | rfl
    · rfl
    · exact absurd same (by decide)
    · exact absurd same (by decide)
    · rfl
  obtain ⟨congruent, compose, invert⟩ := rename_laws (t 1 2)
  obtain ⟨composes, once⟩ := compose [(1, 2)] [(2, 1)] (t 2 2) (t 1 1) rfl rfl
  obtain ⟨inverts, back⟩ := invert [(1, 2), (2, 1)] (t 2 1) rfl apart
  exact ⟨congruent _ _ agree, rfl, rfl, once _ composes, rfl, rfl, back _ inverts⟩

end Proofs.RenamingLaws

end QueryTerms
