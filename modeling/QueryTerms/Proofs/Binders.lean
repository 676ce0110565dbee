import QueryTerms.Proofs.RenamingExact

/-! The variables that the functions of a term bind. Renaming keeps them all, and inlining drops those of the
function that is called. -/

namespace QueryTerms

namespace Term

mutual
/-- The parameters of the functions in a term, each as often as it is bound. -/
def binders : Term → List VarId
  | .literal _ => []
  | .annotated _ inner => binders inner
  | .call op args named => bound (.call op args named) ++ bindersArgs args ++ bindersNamed named

def bindersArgs : List Term → List VarId
  | [] => []
  | t :: rest => binders t ++ bindersArgs rest

def bindersNamed : List (String × Term) → List VarId
  | [] => []
  | (_, t) :: rest => binders t ++ bindersNamed rest
end

variable {op : Operator} {args : List Term} {named : List (String × Term)}

private theorem bindersArgs_eq (args : List Term) : bindersArgs args = args.flatMap binders := by
  induction args with
  | nil => simp [bindersArgs]
  | cons t rest ih => simp [bindersArgs, ih]

private theorem bindersNamed_eq (named : List (String × Term)) :
    bindersNamed named = (named.map Prod.snd).flatMap binders := by
  induction named with
  | nil => simp [bindersNamed]
  | cons field rest ih => simp [bindersNamed, ih]

@[simp] theorem binders_literal (d : Datum) : (literal d).binders = [] := by
  simp [binders]

@[simp] theorem binders_annotated (note : String) (inner : Term) : (annotated note inner).binders = inner.binders := by
  simp [binders]

@[simp] theorem binders_var (v : VarId) : (var v).binders = [] := by
  have plain := bound_var v
  simp only [var] at plain
  simp [var, binders, plain, bindersArgs, bindersNamed]

@[simp] theorem binders_func (params : List VarId) (body : Term) :
    (func params body).binders = params ++ body.binders := by
  have own := bound_func params body
  simp only [func] at own
  simp [func, binders, own, bindersArgs, bindersNamed]

theorem binders_plain (plain : role op args named = .plain) :
    (call op args named).binders = (args ++ named.map Prod.snd).flatMap binders := by
  simp [binders, bound_plain plain, bindersArgs_eq, bindersNamed_eq]

@[simp] theorem binders_stripNotes (t : Term) : t.stripNotes.binders = t.binders := by
  induction t using formInduction with
  | annotated note inner ih => simpa only [stripNotes, binders_annotated] using ih
  | literal d => rfl
  | reference v => rfl
  | function params body => rfl
  | plain op args named => rfl

private theorem flatMap_eq_of_forall₂ {α β γ : Type} {f : α → List γ} {g : β → List γ} {xs : List α} {ys : List β}
    (related : List.Forall₂ (fun x y => g y = f x) xs ys) : ys.flatMap g = xs.flatMap f := by
  induction related with
  | nil => rfl
  | cons same _ ih => rw [List.flatMap_cons, List.flatMap_cons, same, ih]

theorem exists_of_mem_right {α β : Type} {R : α → β → Prop} {xs : List α} {ys : List β} {y : β}
    (related : List.Forall₂ R xs ys) (member : y ∈ ys) : ∃ x ∈ xs, R x y := by
  induction related with
  | nil => simp at member
  | cons first _ ih =>
    rcases List.mem_cons.mp member with rfl | member
    · exact ⟨_, List.mem_cons_self, first⟩
    · obtain ⟨x, inside, found⟩ := ih member
      exact ⟨x, List.mem_cons_of_mem _ inside, found⟩

theorem binders_rename {m : Renaming} {t t' : Term} (renamed : rename m t = some t') : t'.binders = t.binders := by
  induction t using formInduction generalizing m t' with
  | literal d =>
    obtain rfl := Option.some.inj ((rename_literal m d).symm.trans renamed)
    rfl
  | annotated note inner ih =>
    rw [rename_annotated, Option.map_eq_some_iff] at renamed
    obtain ⟨inner', renamed, rfl⟩ := renamed
    simpa using ih renamed
  | reference v =>
    obtain rfl := Option.some.inj ((rename_var m v).symm.trans renamed)
    simp
  | function params body ih =>
    obtain ⟨_, body', bodyRenamed, rfl⟩ := rename_func_eq_some_iff.mp renamed
    simp [ih bodyRenamed]
  | plain op args named plain parts fields =>
    obtain ⟨args', named', rfl, partsRenamed, fieldsRenamed⟩ := (rename_plain_eq_some_iff plain).mp renamed
    have sameArgs : args'.flatMap binders = args.flatMap binders := by
      apply flatMap_eq_of_forall₂
      exact ((List.forall₂_and_left _ _).mpr ⟨fun t member => member, partsRenamed⟩).imp
        fun t t' both => parts t both.1 both.2
    have sameNamed : (named'.map Prod.snd).flatMap binders = (named.map Prod.snd).flatMap binders := by
      apply flatMap_eq_of_forall₂
      rw [List.forall₂_map_left_iff, List.forall₂_map_right_iff]
      exact ((List.forall₂_and_left _ _).mpr ⟨fun f member => member, fieldsRenamed⟩).imp
        fun f f' both => fields f both.1 both.2.2
    rw [binders_plain (role_renamed_plain plain partsRenamed fieldsRenamed), binders_plain plain,
      List.flatMap_append, List.flatMap_append, sameArgs, sameNamed]

/-- A variable that is free after a renaming was free before or is the target of one that was. -/
theorem occursFree_of_rename {m : Renaming} {t t' : Term} {w : VarId} (renamed : rename m t = some t')
    (free : occursFree w t' = true) : ∃ v, occursFree v t = true ∧ (m.lookup v).getD v = w := by
  obtain ⟨p, free'⟩ := occursFree_iff_freeAt.mp free
  obtain ⟨v, found, outside⟩ := (Proofs.RenamingExact.freeAt_rename renamed p).mp ⟨w, free'⟩
  have replaced := (Proofs.RenamingExact.reference_rename renamed found).2 outside
  exact ⟨v, occursFree_iff_freeAt.mpr ⟨p, found, outside⟩,
    var_inj.mp (Option.some.inj (replaced.symm.trans free'.1))⟩

theorem occursFree_plain_parts {v : VarId} (plain : role op args named = .plain) :
    occursFree v (.call op args named) = true ↔ ∃ t ∈ args ++ named.map Prod.snd, occursFree v t = true := by
  rw [occursFree_plain plain]
  simp only [List.mem_append, List.mem_map, or_and_right, exists_or, exists_exists_and_eq_and]

theorem role_of_ne (notVar : op ≠ .var) (notFunc : op ≠ .func) : role op args named = .plain := by
  cases found : role op args named with
  | reference v =>
    obtain ⟨rfl, _⟩ := call.inj (role_eq_reference_iff.mp found)
    exact absurd rfl notVar
  | binder params =>
    obtain ⟨body, same⟩ := role_eq_binder_iff.mp found
    obtain ⟨rfl, _⟩ := call.inj same
    exact absurd rfl notFunc
  | plain => rfl

private theorem lookup_zip_ne_none {params targets : List VarId} (full : params.length ≤ targets.length) {v : VarId}
    (inside : v ∈ params) : (params.zip targets).lookup v ≠ none := by
  rw [← List.map_fst_zip full] at inside
  obtain ⟨⟨source, target⟩, member, rfl⟩ := List.mem_map.mp inside
  intro missing
  simpa using List.lookup_eq_none_iff.mp missing _ member

private theorem binders_inlined {params : List VarId} {t' : Term} (found : inlined? op args named = some (params, t')) :
    t'.binders.Sublist (args.flatMap binders) := by
  obtain ⟨_, _, function, actuals, body, targets, rfl, parts, _, _, _, renamed⟩ := inlined?_eq_some_iff.mp found
  have own : function.binders = params ++ body.binders := by
    rw [← binders_stripNotes, parts, binders_func]
  rw [binders_rename renamed, List.flatMap_cons, own]
  exact (List.sublist_append_right _ _).trans (List.sublist_append_left _ _)

/-- What is free after inlining is free in the function or is the variable of an argument. -/
private theorem occursFree_of_inlined {params : List VarId} {t' : Term} {w : VarId}
    (found : inlined? op args named = some (params, t')) (free : occursFree w t' = true) :
    ∃ t ∈ args, occursFree w t = true := by
  obtain ⟨_, _, function, actuals, body, targets, rfl, parts, _, full, refers, renamed⟩ :=
    inlined?_eq_some_iff.mp found
  obtain ⟨v, inBody, target⟩ := occursFree_of_rename renamed free
  cases entry : (params.zip targets).lookup v with
  | some u =>
    obtain rfl : u = w := by simpa [entry] using target
    have among := (List.of_mem_zip (Renaming.mem_of_lookup entry)).2
    obtain ⟨actual, member, bare⟩ := exists_of_mem_right refers among
    refine ⟨actual, List.mem_cons_of_mem _ member, ?_⟩
    rw [← occursFree_stripNotes, bare]
    simp
  | none =>
    obtain rfl : v = w := by simpa [entry] using target
    have outside : v ∉ params := fun inside =>
      lookup_zip_ne_none (Nat.le_of_eq (full.trans refers.length_eq)) inside entry
    refine ⟨function, List.mem_cons_self, ?_⟩
    rw [← occursFree_stripNotes, parts]
    exact occursFree_func.mpr ⟨outside, inBody⟩

theorem binders_makeCall (notVar : op ≠ .var) (notFunc : op ≠ .func) :
    (makeCall op args named).binders.Sublist ((args ++ named.map Prod.snd).flatMap binders) := by
  unfold makeCall
  split
  next found =>
    rw [List.flatMap_append]
    exact (binders_inlined found).trans (List.sublist_append_left _ _)
  next => rw [binders_plain (role_of_ne notVar notFunc)]

theorem occursFree_of_makeCall {w : VarId} (notVar : op ≠ .var) (notFunc : op ≠ .func)
    (free : occursFree w (makeCall op args named) = true) :
    ∃ t ∈ args ++ named.map Prod.snd, occursFree w t = true := by
  unfold makeCall at free
  split at free
  next found =>
    obtain ⟨t, member, free⟩ := occursFree_of_inlined found free
    exact ⟨t, List.mem_append_left _ member, free⟩
  next => exact (occursFree_plain_parts (role_of_ne notVar notFunc)).mp free

/-- No function in the term binds a variable and none is free in it. -/
structure Ground (t : Term) : Prop where
  bare : t.binders = []
  closed : ∀ v, occursFree v t = false

theorem Ground.literal (d : Datum) : Ground (.literal d) :=
  ⟨binders_literal d, fun v => occursFree_literal v d⟩

theorem Ground.call (notVar : op ≠ .var) (notFunc : op ≠ .func)
    (parts : ∀ t ∈ args ++ named.map Prod.snd, Ground t) : Ground (.call op args named) := by
  have plain : role op args named = .plain := role_of_ne notVar notFunc
  refine ⟨?_, fun v => Bool.eq_false_iff.mpr fun free => ?_⟩
  · rw [binders_plain plain]
    exact List.flatMap_eq_nil_iff.mpr fun t member => (parts t member).bare
  · obtain ⟨t, member, free⟩ := (occursFree_plain_parts plain).mp free
    rw [(parts t member).closed v] at free
    cases free

/-- The term is made of literals by calls of operators that have nothing to do with functions. -/
inductive Data : Term → Prop where
  | literal (d : Datum) : Data (.literal d)
  | call {op : Operator} {args : List Term} {named : List (String × Term)} : op ≠ .var → op ≠ .func → op ≠ .funcall →
    (∀ t ∈ args ++ named.map Prod.snd, Data t) → Data (.call op args named)

theorem Data.ground {t : Term} (data : Data t) : Ground t := by
  induction data with
  | literal d => exact .literal d
  | call notVar notFunc _ _ ih => exact .call notVar notFunc ih

end Term

end QueryTerms
