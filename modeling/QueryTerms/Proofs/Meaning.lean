import QueryTerms.Proofs.RenamingRules
import Mathlib.Logic.Function.Basic

/-! Meanings of terms. A meaning is compositional if it can be read off the parts of a term: nothing is said
about what the operators of the server compute. For every such meaning a renaming of variables is a change of
the environment alone. -/

universe u

namespace QueryTerms

/-- What the variables stand for. -/
abbrev Env (D : Type u) := VarId → D

namespace Env

variable {D : Type u}

/-- The environment in which the parameters stand for the given values, set in turn. -/
def assign (e : Env D) : List VarId → List D → Env D
  | p :: params, d :: values => assign (Function.update e p d) params values
  | _, _ => e

theorem assign_of_not_mem (e : Env D) {params : List VarId} (values : List D) {v : VarId}
    (absent : v ∉ params) : e.assign params values v = e v := by
  induction params generalizing e values with
  | nil => simp [assign]
  | cons p params ih =>
    simp only [List.mem_cons, not_or] at absent
    cases values with
    | nil => rfl
    | cons d values =>
      rw [assign, ih _ _ absent.2, Function.update_of_ne absent.1]

/-- A parameter stands for its value whatever the environment was before. -/
theorem assign_of_mem (e e' : Env D) {params : List VarId} {values : List D} {v : VarId}
    (full : values.length = params.length) (bound : v ∈ params) :
    e.assign params values v = e'.assign params values v := by
  induction params generalizing e e' values with
  | nil => simp at bound
  | cons p params ih =>
    cases values with
    | nil => simp at full
    | cons d values =>
      simp only [List.length_cons, Nat.add_right_cancel_iff] at full
      simp only [assign]
      by_cases later : v ∈ params
      · exact ih _ _ full later
      · have first : v = p := (List.mem_cons.mp bound).resolve_right later
        subst first
        rw [assign_of_not_mem _ _ later, assign_of_not_mem _ _ later]
        simp

/-- Distinct parameters are set as the map of them to their values says. -/
theorem assign_targets (e f : Env D) {params targets : List VarId} (distinct : params.Nodup) (v : VarId) :
    e.assign params (targets.map f) v = (((params.zip targets).lookup v).map f).getD (e v) := by
  induction params generalizing e targets with
  | nil => simp [assign]
  | cons p params ih =>
    cases targets with
    | nil => simp [assign]
    | cons w targets =>
      obtain ⟨fresh, distinct⟩ := List.nodup_cons.mp distinct
      simp only [List.map_cons, assign, List.zip_cons_cons, List.lookup_cons]
      by_cases same : v = p
      · subst same
        rw [assign_of_not_mem _ _ fresh]
        simp
      · rw [ih _ distinct, Function.update_of_ne same, beq_eq_false_iff_ne.mpr same]

theorem assign_map (e : Env D) (params : List VarId) (f : VarId → D) (v : VarId) :
    e.assign params (params.map f) v = if v ∈ params then f v else e v := by
  induction params generalizing e with
  | nil => simp [assign]
  | cons p params ih =>
    rw [List.map_cons, assign, ih]
    by_cases later : v ∈ params
    · simp [later]
    · by_cases same : v = p
      · simp [same]
      · simp [later, same]

theorem map_assign (e : Env D) {params : List VarId} {values : List D} (distinct : params.Nodup)
    (full : values.length = params.length) : params.map (e.assign params values) = values := by
  induction params generalizing e values with
  | nil => exact (List.length_eq_zero_iff.mp full).symm
  | cons p params ih =>
    cases values with
    | nil => simp at full
    | cons d values =>
      obtain ⟨fresh, distinct⟩ := List.nodup_cons.mp distinct
      simp only [List.length_cons, Nat.add_right_cancel_iff] at full
      simp only [List.map_cons, assign]
      rw [ih _ distinct full, assign_of_not_mem _ _ fresh]
      simp

end Env

/-- A meaning that can be read off the parts of a term. A function means what its parameters and the values of
its body for them determine, and a function that is called on as many arguments as it has distinct parameters
means its body with the arguments in their place. -/
structure Compositional {D : Type u} (meaning : Term → Env D → D) : Prop where
  literal : ∀ d e e', meaning (.literal d) e = meaning (.literal d) e'
  annotated : ∀ note inner e, meaning (.annotated note inner) e = meaning inner e
  reference : ∀ t v e, t.asVar? = some v → meaning t e = e v
  function : ∀ t t' params body body' e e',
    t.funcParts? = some (params, body) → t'.funcParts? = some (params, body') →
    (∀ values : List D, values.length = params.length →
      meaning body (e.assign params values) = meaning body' (e'.assign params values)) →
    meaning t e = meaning t' e'
  call : ∀ op args args' named named' e e',
    (Term.call op args named).asVar? = none → (Term.call op args named).funcParts? = none →
    (Term.call op args' named').asVar? = none → (Term.call op args' named').funcParts? = none →
    args.map (meaning · e) = args'.map (meaning · e') →
    named.map (fun field => (field.1, meaning field.2 e)) =
      named'.map (fun field => (field.1, meaning field.2 e')) →
    meaning (.call op args named) e = meaning (.call op args' named') e'
  funcall : ∀ function params body actuals e,
    function.funcParts? = some (params, body) → params.Nodup → actuals.length = params.length →
    meaning (.call .funcall (function :: actuals) []) e =
      meaning body (e.assign params (actuals.map (meaning · e)))

namespace Compositional

open Term

variable {D : Type u} {meaning : Term → Env D → D}

private theorem of_plain (compositional : Compositional meaning) {op : Operator} {args args' : List Term}
    {named named' : List (String × Term)} {e e' : Env D}
    (plain : role op args named = .plain) (plain' : role op args' named' = .plain)
    (parts : List.Forall₂ (fun t t' => meaning t e = meaning t' e') args args')
    (fields : List.Forall₂ (fun f f' => f.1 = f'.1 ∧ meaning f.2 e = meaning f'.2 e') named named') :
    meaning (.call op args named) e = meaning (.call op args' named') e' := by
  obtain ⟨noVar, noFunc⟩ := role_eq_plain_iff.mp plain
  obtain ⟨noVar', noFunc'⟩ := role_eq_plain_iff.mp plain'
  apply compositional.call op args args' named named' e e' noVar noFunc noVar' noFunc'
  · rw [← List.forall₂_eq_eq_eq, List.forall₂_map_left_iff, List.forall₂_map_right_iff]
    exact parts
  · rw [← List.forall₂_eq_eq_eq, List.forall₂_map_left_iff, List.forall₂_map_right_iff]
    exact fields.imp fun _ _ same => Prod.ext same.1 same.2

/-- A renamed term means what the term means where each of its free variables stands for the value of its
target. For the empty map this says that only the free variables matter. -/
theorem meaning_rename (compositional : Compositional meaning) {t t' : Term} {m : Renaming} {e e' : Env D}
    (renamed : rename m t = some t')
    (agree : ∀ v, occursFree v t = true → e v = e' ((m.lookup v).getD v)) :
    meaning t' e' = meaning t e := by
  induction t using formInduction generalizing t' m e e' with
  | literal d =>
    obtain rfl := Option.some.inj ((rename_literal m d).symm.trans renamed)
    exact compositional.literal d e' e
  | annotated note inner ih =>
    rw [rename_annotated, Option.map_eq_some_iff] at renamed
    obtain ⟨inner', renamed, rfl⟩ := renamed
    rw [compositional.annotated, compositional.annotated]
    exact ih renamed (by simpa using agree)
  | reference v =>
    obtain rfl := Option.some.inj ((rename_var m v).symm.trans renamed)
    rw [compositional.reference _ _ e' (asVar?_eq_some_iff.mpr rfl),
      compositional.reference _ _ e (asVar?_eq_some_iff.mpr rfl)]
    exact (agree v (by simp)).symm
  | function params body ih =>
    obtain ⟨safe, body', bodyRenamed, rfl⟩ := rename_func_eq_some_iff.mp renamed
    apply compositional.function _ _ params body' body e' e
      (funcParts?_eq_some_iff.mpr rfl) (funcParts?_eq_some_iff.mpr rfl)
    intro values full
    apply ih bodyRenamed
    intro v free
    rw [Renaming.lookup_without]
    by_cases bound : v ∈ params
    · simpa [bound] using Env.assign_of_mem e e' full bound
    · simp only [bound, ↓reduceIte]
      rw [Env.assign_of_not_mem _ _ bound, agree v (by simp [bound, free])]
      cases found : m.lookup v with
      | none => exact (Env.assign_of_not_mem _ _ bound).symm
      | some w => exact (Env.assign_of_not_mem _ _ (safe v w bound found free)).symm
  | plain op args named plain parts fields =>
    obtain ⟨args', named', rfl, partsRenamed, fieldsRenamed⟩ := (rename_plain_eq_some_iff plain).mp renamed
    have part : ∀ t ∈ args, ∀ t', rename m t = some t' → meaning t e = meaning t' e' := by
      intro t member t' renamed
      refine (parts t member renamed fun v free => agree v ?_).symm
      exact (occursFree_plain plain).mpr (.inl ⟨t, member, free⟩)
    have field : ∀ f ∈ named, ∀ t', rename m f.2 = some t' → meaning f.2 e = meaning t' e' := by
      intro f member t' renamed
      refine (fields f member renamed fun v free => agree v ?_).symm
      exact (occursFree_plain plain).mpr (.inr ⟨f, member, free⟩)
    symm
    apply compositional.of_plain plain (role_renamed_plain plain partsRenamed fieldsRenamed)
    · exact ((List.forall₂_and_left _ _).mpr ⟨part, partsRenamed⟩).imp fun t t' ⟨same, renamed⟩ => same t' renamed
    · exact ((List.forall₂_and_left _ _).mpr ⟨field, fieldsRenamed⟩).imp
        fun f f' ⟨same, key, renamed⟩ => ⟨key, same f'.2 renamed⟩

end Compositional

end QueryTerms
