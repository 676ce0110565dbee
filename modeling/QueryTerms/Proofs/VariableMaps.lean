import QueryTerms.Proofs.Binders
import QueryTerms.Proofs.NamedParts

/-! Maps of the variables of a term. A map goes through references and parameters alike and needs no care for
binding; where the functions of a term bind neither what is renamed nor what it is renamed to, a renaming is
such a map. -/

namespace QueryTerms

namespace Term

mutual
/-- The term with every variable replaced, in references and in the parameters of functions. -/
def mapVars (f : VarId → VarId) : Term → Term
  | .literal d => .literal d
  | .annotated note inner => .annotated note (mapVars f inner)
  | .call op args named =>
    match role op args named, args with
    | .reference v, _ => var (f v)
    | .binder params, [_, body] => func (params.map f) (mapVars f body)
    | _, args => .call op (mapVarsArgs f args) (mapVarsNamed f named)

def mapVarsArgs (f : VarId → VarId) : List Term → List Term
  | [] => []
  | t :: rest => mapVars f t :: mapVarsArgs f rest

def mapVarsNamed (f : VarId → VarId) : List (String × Term) → List (String × Term)
  | [] => []
  | (key, t) :: rest => (key, mapVars f t) :: mapVarsNamed f rest
end

variable {op : Operator} {args : List Term} {named : List (String × Term)} {f g : VarId → VarId}

private theorem mapVarsArgs_eq (f : VarId → VarId) (args : List Term) : mapVarsArgs f args = args.map (mapVars f) := by
  induction args with
  | nil => rfl
  | cons t rest ih => rw [mapVarsArgs, ih, List.map_cons]

private theorem mapVarsNamed_eq (f : VarId → VarId) (named : List (String × Term)) :
    mapVarsNamed f named = Fields.mapValues (mapVars f) named := by
  induction named with
  | nil => rfl
  | cons field rest ih => rw [mapVarsNamed, ih]; rfl

@[simp] theorem mapVars_literal (f : VarId → VarId) (d : Datum) : (literal d).mapVars f = literal d := by
  simp only [mapVars]

@[simp] theorem mapVars_annotated (f : VarId → VarId) (note : String) (inner : Term) :
    (annotated note inner).mapVars f = annotated note (inner.mapVars f) := by
  simp only [mapVars]

@[simp] theorem mapVars_var (f : VarId → VarId) (v : VarId) : (var v).mapVars f = var (f v) := by
  rw [var, mapVars.eq_def]
  simp only [role_var]

@[simp] theorem mapVars_func (f : VarId → VarId) (params : List VarId) (body : Term) :
    (func params body).mapVars f = func (params.map f) (body.mapVars f) := by
  rw [func, mapVars.eq_def]
  simp only [role_func]

theorem mapVars_plain (plain : role op args named = .plain) :
    (call op args named).mapVars f = call op (args.map (mapVars f)) (Fields.mapValues (mapVars f) named) := by
  rw [mapVars.eq_def]
  simp only [plain, mapVarsArgs_eq, mapVarsNamed_eq]

private theorem mapVars_eq_literal {t : Term} {d : Datum} (mapped : t.mapVars f = literal d) : t = literal d := by
  induction t using formInduction with
  | literal d' => simpa using mapped
  | annotated note inner => simp at mapped
  | reference v =>
    rw [mapVars_var] at mapped
    cases mapped
  | function params body =>
    rw [mapVars_func] at mapped
    cases mapped
  | plain op args named plain =>
    rw [mapVars_plain plain] at mapped
    cases mapped

theorem role_mapped_plain (f : VarId → VarId) (plain : role op args named = .plain) :
    role op (args.map (mapVars f)) (Fields.mapValues (mapVars f) named) = .plain := by
  apply role_plain_of_literals plain
  · rw [List.forall₂_map_right_iff, List.forall₂_same]
    intro t _ d mapped
    exact mapVars_eq_literal mapped
  · intro none
    exact List.map_eq_nil_iff.mp none

/-- A map depends only on what it does to the variables that are bound or free in the term. -/
theorem mapVars_congr {t : Term}
    (agree : ∀ v, v ∈ t.binders ∨ occursFree v t = true → f v = g v) : t.mapVars f = t.mapVars g := by
  induction t using formInduction with
  | literal d => simp
  | annotated note inner ih =>
    rw [mapVars_annotated, mapVars_annotated, ih (by simpa using agree)]
  | reference v =>
    rw [mapVars_var, mapVars_var, agree v (.inr (by simp))]
  | function params body ih =>
    have inParams : params.map f = params.map g :=
      List.map_congr_left fun v member => agree v (.inl (by simp [member]))
    have inBody : body.mapVars f = body.mapVars g := by
      apply ih
      intro v known
      rcases known with bound | free
      · exact agree v (.inl (by simp [bound]))
      · by_cases param : v ∈ params
        · exact agree v (.inl (by simp [param]))
        · exact agree v (.inr (by simp [param, free]))
    rw [mapVars_func, mapVars_func, inParams, inBody]
  | plain op args named plain parts fields =>
    have part : ∀ t ∈ args ++ named.map Prod.snd, ∀ v, v ∈ t.binders ∨ occursFree v t = true → f v = g v := by
      intro t member v known
      apply agree
      rw [binders_plain plain, occursFree_plain_parts plain]
      rcases known with bound | free
      · exact .inl (List.mem_flatMap.mpr ⟨t, member, bound⟩)
      · exact .inr ⟨t, member, free⟩
    have sameArgs : args.map (mapVars f) = args.map (mapVars g) :=
      List.map_congr_left fun t member => parts t member (part t (List.mem_append_left _ member))
    have sameNamed : Fields.mapValues (mapVars f) named = Fields.mapValues (mapVars g) named :=
      List.map_congr_left fun field member => congrArg (field.1, ·)
        (fields field member (part field.2 (List.mem_append_right _ (List.mem_map_of_mem member))))
    rw [mapVars_plain plain, mapVars_plain plain, sameArgs, sameNamed]

theorem mapVars_id (t : Term) : t.mapVars id = t := by
  induction t using formInduction with
  | literal d => simp
  | annotated note inner ih => simp [ih]
  | reference v => simp
  | function params body ih => simp [ih]
  | plain op args named plain parts fields =>
    have sameArgs : args.map (mapVars id) = args := (List.map_congr_left parts).trans (List.map_id' args)
    have sameNamed : Fields.mapValues (mapVars id) named = named :=
      (List.map_congr_left fun field member => congrArg (field.1, ·) (fields field member)).trans (List.map_id' named)
    rw [mapVars_plain plain, sameArgs, sameNamed]

theorem mapVars_mapVars (f g : VarId → VarId) (t : Term) : (t.mapVars f).mapVars g = t.mapVars (g ∘ f) := by
  induction t using formInduction with
  | literal d => simp
  | annotated note inner ih => simp [ih]
  | reference v => simp
  | function params body ih => simp [ih]
  | plain op args named plain parts fields =>
    rw [mapVars_plain plain, mapVars_plain (role_mapped_plain f plain), mapVars_plain plain, List.map_map,
      Fields.mapValues_mapValues]
    have sameArgs : args.map (mapVars g ∘ mapVars f) = args.map (mapVars (g ∘ f)) := List.map_congr_left parts
    have sameNamed : Fields.mapValues (mapVars g ∘ mapVars f) named = Fields.mapValues (mapVars (g ∘ f)) named :=
      List.map_congr_left fun field member => congrArg (field.1, ·) (fields field member)
    rw [sameArgs, sameNamed]

theorem Ground.mapVars_eq {t : Term} (ground : Ground t) (f : VarId → VarId) : t.mapVars f = t := by
  have unused : t.mapVars f = t.mapVars id := by
    apply mapVars_congr
    intro v known
    rcases known with bound | free
    · simp [ground.bare] at bound
    · simp [ground.closed] at free
  rw [unused, mapVars_id]

@[simp] theorem stripNotes_mapVars (f : VarId → VarId) (t : Term) :
    (t.mapVars f).stripNotes = t.stripNotes.mapVars f := by
  induction t using formInduction with
  | annotated note inner ih => simpa only [mapVars_annotated, stripNotes] using ih
  | literal d => simp [stripNotes]
  | reference v =>
    rw [mapVars_var]
    exact (mapVars_var f v).symm
  | function params body =>
    rw [mapVars_func]
    exact (mapVars_func f params body).symm
  | plain op args named plain =>
    rw [mapVars_plain plain]
    exact (mapVars_plain plain).symm

theorem mapVars_eq_var {t : Term} {w : VarId} (mapped : t.mapVars f = var w) : ∃ v, t = var v ∧ f v = w := by
  induction t using formInduction with
  | literal d =>
    rw [mapVars_literal] at mapped
    cases mapped
  | annotated note inner =>
    rw [mapVars_annotated] at mapped
    cases mapped
  | reference v =>
    rw [mapVars_var, var_inj] at mapped
    exact ⟨v, rfl, mapped⟩
  | function params body =>
    rw [mapVars_func] at mapped
    cases mapped
  | plain op args named plain =>
    rw [mapVars_plain plain] at mapped
    exact absurd mapped (role_plain_ne_var (role_mapped_plain f plain) w)

theorem mapVars_eq_func {t : Term} {params' : List VarId} {body' : Term} (mapped : t.mapVars f = func params' body') :
    ∃ params body, t = func params body ∧ params.map f = params' ∧ body.mapVars f = body' := by
  induction t using formInduction with
  | literal d =>
    rw [mapVars_literal] at mapped
    cases mapped
  | annotated note inner =>
    rw [mapVars_annotated] at mapped
    cases mapped
  | reference v =>
    rw [mapVars_var] at mapped
    cases mapped
  | function params body =>
    rw [mapVars_func, func_inj] at mapped
    exact ⟨params, body, rfl, mapped⟩
  | plain op args named plain =>
    rw [mapVars_plain plain] at mapped
    exact absurd mapped (role_plain_ne_func (role_mapped_plain f plain) params' body')

@[simp] theorem binders_mapVars (f : VarId → VarId) (t : Term) : (t.mapVars f).binders = t.binders.map f := by
  induction t using formInduction with
  | literal d => simp
  | annotated note inner ih => simp [ih]
  | reference v => simp
  | function params body ih => simp [ih]
  | plain op args named plain parts fields =>
    have sameArgs : (args.map (mapVars f)).flatMap binders = (args.flatMap binders).map f := by
      rw [List.flatMap_map, List.map_flatMap]
      exact List.flatMap_congr parts
    have values : (Fields.mapValues (mapVars f) named).map Prod.snd = (named.map Prod.snd).map (mapVars f) := by
      simp [Fields.mapValues, Function.comp_def]
    have sameNamed : ((Fields.mapValues (mapVars f) named).map Prod.snd).flatMap binders =
        ((named.map Prod.snd).flatMap binders).map f := by
      rw [values, List.flatMap_map, List.map_flatMap]
      exact List.flatMap_congr (List.forall_mem_map.mpr fields)
    rw [mapVars_plain plain, binders_plain (role_mapped_plain f plain), binders_plain plain, List.flatMap_append,
      List.flatMap_append, List.map_append, sameArgs, sameNamed]

/-- What is free in a mapped term is the image of a variable that is free in the term. -/
theorem occursFree_of_mapVars {t : Term} {w : VarId} (free : occursFree w (t.mapVars f) = true) :
    ∃ v, occursFree v t = true ∧ f v = w := by
  induction t using formInduction with
  | literal d => simp at free
  | annotated note inner ih =>
    rw [mapVars_annotated, occursFree_annotated] at free
    simpa using ih free
  | reference v =>
    rw [mapVars_var, occursFree_var] at free
    exact ⟨v, by simp, free⟩
  | function params body ih =>
    rw [mapVars_func, occursFree_func] at free
    obtain ⟨outside, inBody⟩ := free
    obtain ⟨v, inside, rfl⟩ := ih inBody
    have kept : v ∉ params := fun param => outside (List.mem_map_of_mem param)
    exact ⟨v, occursFree_func.mpr ⟨kept, inside⟩, rfl⟩
  | plain op args named plain parts fields =>
    rw [mapVars_plain plain, occursFree_plain (role_mapped_plain f plain)] at free
    rcases free with ⟨t', member, free⟩ | ⟨field', member, free⟩
    · obtain ⟨t, inside, rfl⟩ := List.mem_map.mp member
      obtain ⟨v, found, same⟩ := parts t inside free
      exact ⟨v, (occursFree_plain plain).mpr (.inl ⟨t, inside, found⟩), same⟩
    · obtain ⟨field, inside, rfl⟩ := List.mem_map.mp member
      obtain ⟨v, found, same⟩ := fields field inside free
      exact ⟨v, (occursFree_plain plain).mpr (.inr ⟨field, inside, found⟩), same⟩

/-- A renaming whose variables and targets are not bound in the term maps its variables. -/
theorem rename_eq_mapVars {m : Renaming} {t : Term} (kept : ∀ b ∈ t.binders, m.lookup b = none)
    (uncaptured : ∀ v w, m.lookup v = some w → w ∉ t.binders) :
    rename m t = some (t.mapVars fun v => (m.lookup v).getD v) := by
  induction t using formInduction with
  | literal d => simp
  | annotated note inner ih => simp [ih (by simpa using kept) (by simpa using uncaptured)]
  | reference v => rw [rename_var, mapVars_var]
  | function params body ih =>
    rw [binders_func] at kept uncaptured
    have untouched : m.without params = m := by
      apply List.filter_eq_self.mpr
      intro entry member
      have absent : entry.1 ∉ params := by
        intro param
        simpa using List.lookup_eq_none_iff.mp (kept entry.1 (List.mem_append_left _ param)) entry member
      simpa using absent
    have inBody := ih (fun b bound => kept b (List.mem_append_right _ bound))
      fun v w found bound => uncaptured v w found (List.mem_append_right _ bound)
    have fixed : params.map (fun v => (m.lookup v).getD v) = params := by
      apply (List.map_congr_left ?_).trans (List.map_id' params)
      intro v param
      rw [kept v (List.mem_append_left _ param), Option.getD_none]
    rw [mapVars_func, fixed]
    refine rename_func_eq_some_iff.mpr ⟨?_, _, ?_, rfl⟩
    · intro v w _ found _ param
      exact uncaptured v w found (List.mem_append_left _ param)
    · rw [untouched]
      exact inBody
  | plain op args named plain parts fields =>
    have part : ∀ t ∈ args ++ named.map Prod.snd,
        (∀ b ∈ t.binders, m.lookup b = none) ∧ ∀ v w, m.lookup v = some w → w ∉ t.binders := by
      intro t member
      have inside : ∀ b ∈ t.binders, b ∈ (call op args named).binders := by
        intro b bound
        rw [binders_plain plain]
        exact List.mem_flatMap.mpr ⟨t, member, bound⟩
      exact ⟨fun b bound => kept b (inside b bound), fun v w found bound => uncaptured v w found (inside w bound)⟩
    rw [mapVars_plain plain]
    refine (rename_plain_eq_some_iff plain).mpr ⟨_, _, rfl, ?_, ?_⟩
    · rw [List.forall₂_map_right_iff, List.forall₂_same]
      intro t member
      obtain ⟨kept, uncaptured⟩ := part t (List.mem_append_left _ member)
      exact parts t member kept uncaptured
    · rw [Fields.mapValues, List.forall₂_map_right_iff, List.forall₂_same]
      intro field member
      obtain ⟨kept, uncaptured⟩ := part field.2 (List.mem_append_right _ (List.mem_map_of_mem member))
      exact ⟨rfl, fields field member kept uncaptured⟩

end Term

end QueryTerms
