import QueryTerms.Term.Renaming
import Mathlib.Data.List.Forall2

/-! The forms of a term. To the variables a term is a literal, a labelled term, a reference, a function or a
plain call. Induction and the equations of the operations on variables follow these forms, so that later
arguments need not look at the operator and the arguments of a call again. -/

namespace QueryTerms

private theorem Datum.unsigned?_eq_some_iff {d : Datum} {n : UInt64} : d.unsigned? = some n ↔ d = .unsigned n := by
  constructor
  · intro found
    match d, found with
    | .number (.unsigned m), found => exact congrArg Datum.unsigned (Option.some.inj found)
  · rintro rfl
    rfl

/-- A reader of items that accepts just what is written for its results reads lists in the same way. -/
theorem mapM_eq_some_iff {read : α → Option β} {write : β → α} (reads : ∀ {a b}, read a = some b ↔ a = write b)
    {items : List α} {results : List β} : items.mapM read = some results ↔ items = results.map write := by
  induction items generalizing results with
  | nil => cases results <;> simp
  | cons a rest ih =>
    cases results with
    | nil => simp [Option.bind_eq_some_iff]
    | cons b results => simp [Option.bind_eq_some_iff, reads, ih]

private theorem Datum.mapM_unsigned?_eq_some_iff {ids : List Datum} {params : List UInt64} :
    ids.mapM Datum.unsigned? = some params ↔ ids = params.map Datum.unsigned :=
  mapM_eq_some_iff Datum.unsigned?_eq_some_iff

namespace Term

variable {op : Operator} {args : List Term} {named : List (String × Term)}

@[simp] theorem var_inj {v w : VarId} : var v = var w ↔ v = w := by
  simp [var, Datum.unsigned]

@[simp] theorem func_inj {params params' : List VarId} {body body' : Term} :
    func params body = func params' body' ↔ params = params' ∧ body = body' := by
  have injective : Function.Injective Datum.unsigned := fun a b same => by
    simpa [Datum.unsigned] using same
  simp [func, injective.list_map.eq_iff]

@[simp] theorem role_var (v : VarId) : role .var [.literal (.unsigned v)] [] = .reference v := rfl

@[simp] theorem role_func (params : List VarId) (body : Term) :
    role .func [.literal (.array (params.map Datum.unsigned)), body] [] = .binder params := by
  simp only [role, Datum.mapM_unsigned?_eq_some_iff.mpr rfl]

theorem role_eq_reference_iff {v : VarId} :
    role op args named = .reference v ↔ call op args named = var v := by
  simp only [var, call.injEq]
  constructor
  · intro found
    unfold role at found
    split at found
    next d =>
      cases id : d.unsigned? with
      | none => simp [id] at found
      | some w =>
        simp only [id, Role.reference.injEq] at found
        simp [Datum.unsigned?_eq_some_iff.mp id, found]
    next ids body => cases all : ids.mapM Datum.unsigned? <;> simp [all] at found
    next => cases found
  · rintro ⟨rfl, rfl, rfl⟩
    rfl

theorem role_eq_binder_iff {params : List VarId} :
    role op args named = .binder params ↔ ∃ body, call op args named = func params body := by
  simp only [func, call.injEq]
  constructor
  · intro found
    unfold role at found
    split at found
    next d => cases id : d.unsigned? <;> simp [id] at found
    next ids body =>
      cases all : ids.mapM Datum.unsigned? with
      | none => simp [all] at found
      | some ps =>
        simp only [all, Role.binder.injEq] at found
        exact ⟨body, rfl, by rw [Datum.mapM_unsigned?_eq_some_iff.mp all, found], rfl⟩
    next => cases found
  · rintro ⟨body, rfl, rfl, rfl⟩
    exact role_func params body

theorem role_plain_ne_var (plain : role op args named = .plain) (v : VarId) : call op args named ≠ var v := by
  intro same
  rw [role_eq_reference_iff.mpr same] at plain
  cases plain

theorem role_plain_ne_func (plain : role op args named = .plain) (params : List VarId) (body : Term) :
    call op args named ≠ func params body := by
  intro same
  rw [role_eq_binder_iff.mpr ⟨body, same⟩] at plain
  cases plain

/-- Induction by form. The parts of a reference and the parameters of a function are not terms of their own
here: they hold no variables. -/
@[elab_as_elim]
theorem formInduction {motive : Term → Prop} (literal : ∀ d, motive (.literal d))
    (annotated : ∀ note inner, motive inner → motive (.annotated note inner))
    (reference : ∀ v, motive (var v))
    (function : ∀ params body, motive body → motive (func params body))
    (plain : ∀ op args named, role op args named = .plain → (∀ t ∈ args, motive t) →
      (∀ field ∈ named, motive field.2) → motive (.call op args named)) :
    ∀ t, motive t
  | .literal d => literal d
  | .annotated note inner =>
    annotated note inner (formInduction literal annotated reference function plain inner)
  | .call op args named => by
    have parts : ∀ t ∈ args, motive t := fun t _ =>
      formInduction literal annotated reference function plain t
    have fields : ∀ field ∈ named, motive field.2 := fun field _ =>
      formInduction literal annotated reference function plain field.2
    cases found : role op args named with
    | reference v =>
      rw [role_eq_reference_iff.mp found]
      exact reference v
    | binder params =>
      obtain ⟨body, same⟩ := role_eq_binder_iff.mp found
      rw [same]
      obtain ⟨rfl, rfl, rfl⟩ := call.inj same
      exact function params body (parts body (by simp))
    | plain => exact plain op args named found parts fields
termination_by t => sizeOf t
decreasing_by
  · decreasing_tactic
  · have smaller := List.sizeOf_lt_of_mem ‹t ∈ args›
    simp only [call.sizeOf_spec]
    omega
  · have smaller := List.sizeOf_lt_of_mem ‹field ∈ named›
    have inside : sizeOf field = 1 + sizeOf field.1 + sizeOf field.2 := by cases field; rfl
    simp only [call.sizeOf_spec]
    omega

theorem asVar?_eq_some_iff {t : Term} {v : VarId} : t.asVar? = some v ↔ t.stripNotes = var v := by
  unfold asVar?
  cases bare : t.stripNotes with
  | literal d => simp [var]
  | annotated note inner => simp [var]
  | call op args named =>
    rw [← role_eq_reference_iff]
    cases found : role op args named <;> simp [found]

theorem funcParts?_eq_some_iff {t : Term} {params : List VarId} {body : Term} :
    t.funcParts? = some (params, body) ↔ t.stripNotes = func params body := by
  unfold funcParts?
  cases bare : t.stripNotes with
  | literal d => simp [func]
  | annotated note inner => simp [func]
  | call op args named =>
    cases found : role op args named with
    | reference v =>
      obtain ⟨rfl, rfl, rfl⟩ := call.inj (role_eq_reference_iff.mp found)
      simp [func]
    | binder ps =>
      obtain ⟨inner, same⟩ := role_eq_binder_iff.mp found
      obtain ⟨rfl, rfl, rfl⟩ := call.inj same
      rw [← func, func_inj]
      simp [func]
    | plain =>
      simp only [found, reduceCtorEq, false_iff]
      exact role_plain_ne_func found params body

theorem role_eq_plain_iff :
    role op args named = .plain ↔
      (call op args named).asVar? = none ∧ (call op args named).funcParts? = none := by
  constructor
  · intro plain
    simp [asVar?, funcParts?, stripNotes, plain]
  · rintro ⟨noVar, noFunc⟩
    cases found : role op args named with
    | reference v => simp [asVar?, stripNotes, found] at noVar
    | binder params =>
      obtain ⟨body, same⟩ := role_eq_binder_iff.mp found
      have parts : (call op args named).funcParts? = some (params, body) := funcParts?_eq_some_iff.mpr same
      rw [parts] at noFunc
      cases noFunc
    | plain => rfl

end Term

end QueryTerms
