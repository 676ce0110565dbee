import QueryTerms.Proofs.InlinableCalls

/-! Terms up to the names of bound variables. A nameless form says for a bound variable how many parameters were
introduced after it, and terms with the same form are equivalent. A map of variables that keeps the bound ones
apart and leaves the free ones leads to an equivalent term. -/

namespace QueryTerms

/-- A term without names for its bound variables. -/
inductive Nameless where
  | literal (d : Datum)
  | annotated (note : String) (inner : Nameless)
  | free (v : VarId)
  /-- The parameter with so many others introduced after it. -/
  | bound (index : Nat)
  | function (arity : Nat) (body : Nameless)
  | call (op : Operator) (args : List Nameless) (named : List (String × Nameless))

/-- A variable below the parameters of a stack, of which the innermost one comes first. -/
def Nameless.ofVar (stack : List VarId) (v : VarId) : Nameless :=
  (stack.idxOf? v).elim (.free v) .bound

namespace Term

mutual
def nameless (stack : List VarId) : Term → Nameless
  | .literal d => .literal d
  | .annotated note inner => .annotated note (nameless stack inner)
  | .call op args named =>
    match role op args named, args with
    | .reference v, _ => .ofVar stack v
    | .binder params, [_, body] => .function params.length (nameless (params.reverse ++ stack) body)
    | _, args => .call op (namelessArgs stack args) (namelessNamed stack named)

def namelessArgs (stack : List VarId) : List Term → List Nameless
  | [] => []
  | t :: rest => nameless stack t :: namelessArgs stack rest

def namelessNamed (stack : List VarId) : List (String × Term) → List (String × Nameless)
  | [] => []
  | (key, t) :: rest => (key, nameless stack t) :: namelessNamed stack rest
end

/-- The terms differ at most in the names of their bound variables. -/
def AlphaEquiv (t t' : Term) : Prop := t.nameless [] = t'.nameless []

variable {op : Operator} {args : List Term} {named : List (String × Term)} {f : VarId → VarId}

private theorem namelessArgs_eq (stack : List VarId) (args : List Term) :
    namelessArgs stack args = args.map (nameless stack) := by
  induction args with
  | nil => rfl
  | cons t rest ih => rw [namelessArgs, ih, List.map_cons]

private theorem namelessNamed_eq (stack : List VarId) (named : List (String × Term)) :
    namelessNamed stack named = Fields.mapValues (nameless stack) named := by
  induction named with
  | nil => rfl
  | cons field rest ih => rw [namelessNamed, ih]; rfl

@[simp] theorem nameless_literal (stack : List VarId) (d : Datum) : (literal d).nameless stack = .literal d := by
  simp only [nameless]

@[simp] theorem nameless_annotated (stack : List VarId) (note : String) (inner : Term) :
    (annotated note inner).nameless stack = .annotated note (inner.nameless stack) := by
  simp only [nameless]

@[simp] theorem nameless_var (stack : List VarId) (v : VarId) : (var v).nameless stack = .ofVar stack v := by
  rw [var, nameless.eq_def]
  simp only [role_var]

@[simp] theorem nameless_func (stack params : List VarId) (body : Term) :
    (func params body).nameless stack = .function params.length (body.nameless (params.reverse ++ stack)) := by
  rw [func, nameless.eq_def]
  simp only [role_func]

theorem nameless_plain (stack : List VarId) (plain : role op args named = .plain) :
    (call op args named).nameless stack =
      .call op (args.map (nameless stack)) (Fields.mapValues (nameless stack) named) := by
  rw [nameless.eq_def]
  simp only [plain, namelessArgs_eq, namelessNamed_eq]

private theorem idxOf?_map {stack : List VarId} {v : VarId} (separate : ∀ b ∈ stack, f v = f b → v = b) :
    (stack.map f).idxOf? (f v) = stack.idxOf? v := by
  induction stack with
  | nil => rfl
  | cons b rest ih =>
    obtain ⟨first, others⟩ := List.forall_mem_cons.mp separate
    rw [List.map_cons, List.idxOf?_cons, List.idxOf?_cons, ih others]
    by_cases same : b = v
    · simp [same]
    · have moved : f b ≠ f v := fun equal => same (first equal.symm).symm
      rw [beq_eq_false_iff_ne.mpr same, beq_eq_false_iff_ne.mpr moved]

/-- Below a stack, the map keeps what is bound apart from all else and leaves what is free. -/
structure Follows (f : VarId → VarId) (stack : List VarId) (t : Term) : Prop where
  separate : ∀ b, b ∈ stack ∨ b ∈ t.binders → ∀ v, v ∈ stack ∨ v ∈ t.binders ∨ occursFree v t = true →
    f v = f b → v = b
  fixed : ∀ v, v ∉ stack → occursFree v t = true → f v = v

theorem Follows.body {stack params : List VarId} {body : Term} (follows : Follows f stack (.func params body)) :
    Follows f (params.reverse ++ stack) body := by
  constructor
  · intro b bound v known same
    refine follows.separate b ?_ v ?_ same
    · simp only [List.mem_append, List.mem_reverse] at bound
      simp only [binders_func, List.mem_append]
      tauto
    · simp only [List.mem_append, List.mem_reverse] at known
      simp only [binders_func, List.mem_append, occursFree_func]
      tauto
  · intro v outside free
    simp only [List.mem_append, List.mem_reverse, not_or] at outside
    exact follows.fixed v outside.2 (occursFree_func.mpr ⟨outside.1, free⟩)

theorem Follows.part {stack : List VarId} (plain : role op args named = .plain)
    (follows : Follows f stack (.call op args named)) {t : Term} (member : t ∈ args ++ named.map Prod.snd) :
    Follows f stack t := by
  have bound (b : VarId) (inside : b ∈ t.binders) : b ∈ (Term.call op args named).binders := by
    rw [binders_plain plain]
    exact List.mem_flatMap.mpr ⟨t, member, inside⟩
  have free (v : VarId) (occurs : occursFree v t = true) : occursFree v (.call op args named) = true :=
    (occursFree_plain_parts plain).mpr ⟨t, member, occurs⟩
  constructor
  · intro b inside v known
    exact follows.separate b (inside.imp_right (bound b)) v (known.imp_right (.imp (bound v) (free v)))
  · intro v outside occurs
    exact follows.fixed v outside (free v occurs)

theorem nameless_mapVars {t : Term} {stack : List VarId} (follows : Follows f stack t) :
    (t.mapVars f).nameless (stack.map f) = t.nameless stack := by
  induction t using formInduction generalizing stack with
  | literal d => simp
  | annotated note inner ih =>
    have inside : Follows f stack inner := ⟨by simpa using follows.separate, by simpa using follows.fixed⟩
    rw [mapVars_annotated, nameless_annotated, nameless_annotated, ih inside]
  | reference v =>
    have place : (stack.map f).idxOf? (f v) = stack.idxOf? v :=
      idxOf?_map fun b inside => follows.separate b (.inl inside) v (.inr (.inr (by simp)))
    rw [mapVars_var, nameless_var, nameless_var, Nameless.ofVar, Nameless.ofVar, place]
    cases found : stack.idxOf? v with
    | some index => rfl
    | none => rw [follows.fixed v (List.idxOf?_eq_none_iff.mp found) (by simp)]
  | function params body ih =>
    rw [mapVars_func, nameless_func, nameless_func, List.length_map, ← List.map_reverse, ← List.map_append,
      ih follows.body]
  | plain op args named plain parts fields =>
    have sameArgs : (args.map (mapVars f)).map (nameless (stack.map f)) = args.map (nameless stack) := by
      rw [List.map_map]
      exact List.map_congr_left fun t member => parts t member (follows.part plain (List.mem_append_left _ member))
    have sameNamed : Fields.mapValues (nameless (stack.map f)) (Fields.mapValues (mapVars f) named) =
        Fields.mapValues (nameless stack) named := by
      rw [Fields.mapValues_mapValues]
      refine List.map_congr_left fun field member => congrArg (field.1, ·) ?_
      exact fields field member (follows.part plain (List.mem_append_right _ (List.mem_map_of_mem member)))
    rw [mapVars_plain plain, nameless_plain _ (role_mapped_plain f plain), nameless_plain _ plain, sameArgs, sameNamed]

theorem alphaEquiv_mapVars {t : Term} (separates : Separates f [t]) (fixed : ∀ v, occursFree v t = true → f v = v) :
    AlphaEquiv t (t.mapVars f) := by
  have follows : Follows f [] t := by
    refine ⟨fun b bound v known same => ?_, fun v _ free => fixed v free⟩
    apply separates b (by simpa using bound) v _ same
    simpa using known
  exact (nameless_mapVars follows).symm

end Term

end QueryTerms
