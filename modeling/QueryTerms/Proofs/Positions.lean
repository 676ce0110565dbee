import QueryTerms.Proofs.RenamingRules

/-! Positions in terms. A position is the way from a term to one of its parts, and binding is a matter of the
functions that stand above it: an occurrence of a variable is free if none of them binds the variable, and
otherwise belongs to the innermost one that does. -/

namespace QueryTerms

namespace Term

/-- One step from a term to a part of it. -/
inductive Step where
  | label
  | arg (index : Nat)
  | field (index : Nat)

abbrev Position := List Step

def child? : Term → Step → Option Term
  | .annotated _ inner, .label => some inner
  | .call _ args _, .arg i => args[i]?
  | .call _ _ named, .field i => named[i]?.map Prod.snd
  | _, _ => none

def at? (t : Term) : Position → Option Term
  | [] => some t
  | step :: p => (t.child? step).bind (·.at? p)

def Above (q p : Position) : Prop :=
  ∃ step rest, p = q ++ step :: rest

/-- The term at the position is a function that binds the variable. -/
def Binds (t : Term) (q : Position) (v : VarId) : Prop :=
  ∃ params body, t.at? q = some (func params body) ∧ v ∈ params

def Under (t : Term) (p : Position) (v : VarId) : Prop :=
  ∃ q, Above q p ∧ t.Binds q v

/-- A reference to the variable stands at the position, under no function that binds it. -/
def FreeAt (t : Term) (p : Position) (v : VarId) : Prop :=
  t.at? p = some (var v) ∧ ¬ t.Under p v

/-- The reference at the first position belongs to the function at the second one: it is the innermost function
above the reference that binds the variable. -/
def BoundBy (t : Term) (p q : Position) : Prop :=
  ∃ v, t.at? p = some (var v) ∧ Above q p ∧ t.Binds q v ∧ ∀ r, Above q r → Above r p → ¬ t.Binds r v

/-- The variables that a term binds in its parts. -/
def bound : Term → List VarId
  | .call op args named =>
    match role op args named with
    | .binder params => params
    | _ => []
  | _ => []

@[simp] theorem bound_var (v : VarId) : (var v).bound = [] := by
  simp [var, bound]

@[simp] theorem bound_func (params : List VarId) (body : Term) : (func params body).bound = params := by
  simp [func, bound]

@[simp] theorem bound_literal (d : Datum) : (literal d).bound = [] := rfl

@[simp] theorem bound_annotated (note : String) (inner : Term) : (annotated note inner).bound = [] := rfl

theorem bound_plain {op : Operator} {args : List Term} {named : List (String × Term)}
    (plain : role op args named = .plain) : (call op args named).bound = [] := by
  simp [bound, plain]

theorem above_cons {q p : Position} {step : Step} :
    Above q (step :: p) ↔ q = [] ∨ ∃ q', q = step :: q' ∧ Above q' p := by
  constructor
  · intro ⟨next, rest, same⟩
    cases q with
    | nil => exact .inl rfl
    | cons first q =>
      obtain ⟨rfl, rfl⟩ := List.cons.inj same
      exact .inr ⟨q, rfl, next, rest, rfl⟩
  · rintro (rfl | ⟨q', rfl, next, rest, rfl⟩)
    · exact ⟨step, p, rfl⟩
    · exact ⟨next, rest, rfl⟩

theorem not_above_nil (q : Position) : ¬ Above q [] := by
  intro ⟨step, rest, same⟩
  simp at same

theorem at?_cons {t t' : Term} {step : Step} {p : Position} :
    t.at? (step :: p) = some t' ↔ ∃ c, t.child? step = some c ∧ c.at? p = some t' := by
  simp [at?, Option.bind_eq_some_iff]

theorem binds_nil {t : Term} {v : VarId} : t.Binds [] v ↔ v ∈ t.bound := by
  constructor
  · intro ⟨params, body, found, inside⟩
    obtain rfl := Option.some.inj found
    simpa using inside
  · intro inside
    induction t using formInduction with
    | function params body => exact ⟨params, body, rfl, by simpa using inside⟩
    | plain op args named plain => simp [bound_plain plain] at inside
    | literal d => simp at inside
    | annotated note inner => simp at inside
    | reference w => simp at inside

theorem binds_cons {t : Term} {step : Step} {q : Position} {v : VarId} :
    t.Binds (step :: q) v ↔ ∃ c, t.child? step = some c ∧ c.Binds q v := by
  constructor
  · intro ⟨params, body, found, inside⟩
    obtain ⟨c, child, found⟩ := at?_cons.mp found
    exact ⟨c, child, params, body, found, inside⟩
  · intro ⟨c, child, params, body, found, inside⟩
    exact ⟨params, body, at?_cons.mpr ⟨c, child, found⟩, inside⟩

theorem under_cons {t : Term} {step : Step} {p : Position} {v : VarId} :
    t.Under (step :: p) v ↔ v ∈ t.bound ∨ ∃ c, t.child? step = some c ∧ c.Under p v := by
  constructor
  · intro ⟨q, above, binds⟩
    rcases above_cons.mp above with rfl | ⟨q, rfl, inner⟩
    · exact .inl (binds_nil.mp binds)
    · obtain ⟨c, child, binds⟩ := binds_cons.mp binds
      exact .inr ⟨c, child, q, inner, binds⟩
  · intro found
    rcases found with inside | ⟨c, child, q, above, binds⟩
    · exact ⟨[], above_cons.mpr (.inl rfl), binds_nil.mpr inside⟩
    · exact ⟨step :: q, above_cons.mpr (.inr ⟨q, rfl, above⟩), binds_cons.mpr ⟨c, child, binds⟩⟩

theorem not_under_nil (t : Term) (v : VarId) : ¬ t.Under [] v := by
  intro ⟨q, above, _⟩
  exact not_above_nil q above

theorem freeAt_nil {t : Term} {v : VarId} : t.FreeAt [] v ↔ t = var v := by
  simp [FreeAt, at?, not_under_nil]

theorem freeAt_cons {t : Term} {step : Step} {p : Position} {v : VarId} :
    t.FreeAt (step :: p) v ↔ v ∉ t.bound ∧ ∃ c, t.child? step = some c ∧ c.FreeAt p v := by
  constructor
  · intro ⟨found, free⟩
    obtain ⟨c, child, found⟩ := at?_cons.mp found
    rw [under_cons, not_or] at free
    exact ⟨free.1, c, child, found, fun under => free.2 ⟨c, child, under⟩⟩
  · intro ⟨outside, c, child, found, free⟩
    refine ⟨at?_cons.mpr ⟨c, child, found⟩, ?_⟩
    rw [under_cons]
    rintro (inside | ⟨c', child', under⟩)
    · exact outside inside
    · obtain rfl := Option.some.inj (child.symm.trans child')
      exact free under

theorem at?_literal_ne_call {d : Datum} {p : Position} {op : Operator} {args : List Term}
    {named : List (String × Term)} : (literal d).at? p ≠ some (call op args named) := by
  cases p with
  | nil => simp [at?]
  | cons step p => simp [at?, child?]

/-- The only part of a function in which a variable can occur is its body. -/
theorem child?_func {params : List VarId} {body c : Term} {step : Step}
    (child : (func params body).child? step = some c) : (∃ d, c = literal d) ∨ step = .arg 1 ∧ c = body := by
  match step, child with
  | .arg 0, child => exact .inl ⟨_, (Option.some.inj child).symm⟩
  | .arg 1, child => exact .inr ⟨rfl, (Option.some.inj child).symm⟩

theorem child?_var {v : VarId} {c : Term} {step : Step} (child : (var v).child? step = some c) :
    ∃ d, c = literal d := by
  match step, child with
  | .arg 0, child => exact ⟨_, (Option.some.inj child).symm⟩

theorem exists_child?_call {op : Operator} {args : List Term} {named : List (String × Term)} {c : Term} :
    (∃ step, (call op args named).child? step = some c) ↔ c ∈ args ∨ ∃ field ∈ named, field.2 = c := by
  constructor
  · intro ⟨step, child⟩
    match step, child with
    | .arg i, child => exact .inl (List.mem_of_getElem? child)
    | .field i, child =>
      obtain ⟨field, found, same⟩ := Option.map_eq_some_iff.mp child
      exact .inr ⟨field, List.mem_of_getElem? found, same⟩
  · intro found
    rcases found with member | ⟨field, member, rfl⟩
    · obtain ⟨i, found⟩ := List.getElem?_of_mem member
      exact ⟨.arg i, found⟩
    · obtain ⟨i, found⟩ := List.getElem?_of_mem member
      exact ⟨.field i, by simp [child?, found]⟩

private theorem exists_freeAt_iff {t : Term} {v : VarId} :
    (∃ p, t.FreeAt p v) ↔
      t = var v ∨ v ∉ t.bound ∧ ∃ step c, t.child? step = some c ∧ ∃ p, c.FreeAt p v := by
  constructor
  · intro ⟨p, free⟩
    cases p with
    | nil => exact .inl (freeAt_nil.mp free)
    | cons step p =>
      obtain ⟨outside, c, child, free⟩ := freeAt_cons.mp free
      exact .inr ⟨outside, step, c, child, p, free⟩
  · intro found
    rcases found with same | ⟨outside, step, c, child, p, free⟩
    · exact ⟨[], freeAt_nil.mpr same⟩
    · exact ⟨step :: p, freeAt_cons.mpr ⟨outside, c, child, free⟩⟩

private theorem not_freeAt_literal (d : Datum) (v : VarId) : ¬ ∃ p, (literal d).FreeAt p v := by
  intro ⟨p, found, _⟩
  exact at?_literal_ne_call found

/-- The search for a free occurrence finds one exactly if there is a position with one. -/
theorem occursFree_iff_freeAt {t : Term} {v : VarId} : occursFree v t = true ↔ ∃ p, t.FreeAt p v := by
  induction t using formInduction with
  | literal d => simpa using not_freeAt_literal d v
  | annotated note inner ih =>
    rw [occursFree_annotated, ih, exists_freeAt_iff (t := annotated note inner)]
    constructor
    · intro free
      exact .inr ⟨by simp, .label, inner, rfl, free⟩
    · intro found
      rcases found with same | ⟨_, step, c, child, free⟩
      · cases same
      · match step, child with
        | .label, child =>
          obtain rfl := Option.some.inj child
          exact free
  | reference w =>
    rw [occursFree_var, exists_freeAt_iff]
    constructor
    · intro same
      exact .inl (congrArg var same)
    · intro found
      rcases found with same | ⟨_, step, c, child, free⟩
      · exact var_inj.mp same
      · obtain ⟨d, rfl⟩ := child?_var child
        exact absurd free (not_freeAt_literal d v)
  | function params body ih =>
    rw [occursFree_func, ih, exists_freeAt_iff (t := func params body), bound_func]
    constructor
    · intro ⟨outside, free⟩
      exact .inr ⟨outside, .arg 1, body, rfl, free⟩
    · intro found
      rcases found with same | ⟨outside, step, c, child, free⟩
      · cases same
      · rcases child?_func child with ⟨d, rfl⟩ | ⟨_, rfl⟩
        · exact absurd free (not_freeAt_literal d v)
        · exact ⟨outside, free⟩
  | plain op args named plain parts fields =>
    rw [occursFree_plain plain, exists_freeAt_iff, bound_plain plain]
    constructor
    · intro found
      refine .inr ⟨by simp, ?_⟩
      rcases found with ⟨t, member, free⟩ | ⟨field, member, free⟩
      · obtain ⟨step, child⟩ := exists_child?_call.mpr (.inl member)
        exact ⟨step, t, child, (parts t member).mp free⟩
      · obtain ⟨step, child⟩ := exists_child?_call.mpr (.inr ⟨field, member, rfl⟩)
        exact ⟨step, field.2, child, (fields field member).mp free⟩
    · intro found
      rcases found with same | ⟨_, step, c, child, free⟩
      · exact absurd same (role_plain_ne_var plain v)
      · rcases exists_child?_call.mp ⟨step, child⟩ with member | ⟨field, member, rfl⟩
        · exact .inl ⟨c, member, (parts c member).mpr free⟩
        · exact .inr ⟨field, member, (fields field member).mpr free⟩

end Term

end QueryTerms
