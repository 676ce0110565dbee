import QueryTerms.Proofs.Labels
import QueryTerms.Proofs.RenamingLaws

/-! Labels and renaming. Where no label hides a reference or a function, a term has the free variables that it has
without labels, is renamed like it, and is called like it. A label on the number of a reference or on the parameters of
a function does hide them: the server, which never sees a label, reads another term than the one that was renamed. -/

namespace QueryTerms

namespace Term

/-- The variables of the term are seen, renamed and inlined as they are without its labels. What is called with it is
sent as it would be sent without any labels. -/
structure Unaffected (t : Term) : Prop where
  free (v : VarId) : occursFree v t = occursFree v t.erase
  refused (m : Renaming) : rename m t = none ↔ rename m t.erase = none
  renamed {m : Renaming} {t' u : Term} : rename m t = some t' → rename m t.erase = some u → t'.erase = u
  called (actuals : List Term) : (∀ a ∈ actuals, a.Transparent) →
    (makeCall .funcall (t :: actuals) []).encode = (makeCall .funcall ((t :: actuals).map erase) []).encode

theorem Transparent.unaffected {t : Term} (transparent : t.Transparent) : t.Unaffected where
  free v := (occursFree_erase transparent v).symm
  refused m := by rw [rename_erase transparent, Option.map_eq_none_iff]
  renamed {m t' u} renamed erased := by
    rw [rename_erase transparent, renamed, Option.map_some] at erased
    exact Option.some.inj erased
  called actuals others := by
    have each : ∀ a ∈ t :: actuals, a.Transparent := List.forall_mem_cons.mpr ⟨transparent, others⟩
    have dropped := @makeCall_erase .funcall (t :: actuals) [] each
    rw [← encode_erase, ← dropped]
    rfl

theorem Transparent.child {t c : Term} (transparent : t.Transparent) {step : Step} (child : t.child? step = some c) :
    c.Transparent := by
  cases transparent with
  | literal d => cases child
  | annotated note inner =>
    match step, child with
    | .label, rfl => exact inner
  | call _ parts fields =>
    rcases exists_child?_call.mp ⟨step, child⟩ with member | ⟨field, member, rfl⟩
    · exact parts c member
    · exact fields field member

theorem Transparent.at {t s : Term} (transparent : t.Transparent) {p : Position} (found : t.at? p = some s) :
    s.Transparent := by
  induction p generalizing t with
  | nil =>
    obtain rfl := Option.some.inj found
    exact transparent
  | cons step p ih =>
    obtain ⟨c, child, found⟩ := at?_cons.mp found
    exact ih (transparent.child child) found

variable {op : Operator} {args : List Term} {named : List (String × Term)}

/-- A label that hides a reference is noticed: its variable is not found to be free. -/
private theorem not_hidden_reference (plain : role op args named = .plain) (parts : ∀ t ∈ args, t.Transparent)
    (unaffected : Unaffected (.call op args named)) (v : VarId) : (call op args named).erase ≠ var v := by
  intro erased
  have free := unaffected.free v
  rw [erased, occursFree_var.mpr rfl, occursFree_plain plain] at free
  rw [erase_call] at erased
  obtain ⟨_, number, none⟩ := call.inj erased
  rcases free with ⟨t, member, inside⟩ | ⟨field, member, _⟩
  · have among : t.erase ∈ args.map erase := List.mem_map_of_mem member
    rw [number, List.mem_singleton] at among
    rw [← occursFree_erase (parts t member), among] at inside
    simp at inside
  · rw [List.map_eq_nil_iff.mp none] at member
    cases member

private theorem rename_zip_self (params : List VarId) (t : Term) : rename (params.zip params) t = some t := by
  rw [← rename_nil t]
  apply rename_eq_of_agree
  intro v _
  cases found : (params.zip params).lookup v with
  | none => simp [Renaming.target, found]
  | some w =>
    obtain ⟨i, bound, entry⟩ := List.mem_iff_getElem.mp (Renaming.mem_of_lookup found)
    rw [List.getElem_zip, Prod.mk.injEq] at entry
    rw [Renaming.target_of_lookup found, Renaming.target_nil, ← entry.1, ← entry.2]

private theorem makeCall_on_params {params : List VarId} (distinct : params.Nodup) (body : Term) :
    makeCall .funcall (func params body :: params.map var) [] = body := by
  have refers : List.Forall₂ (fun t w => t.stripNotes = var w) (params.map var) params := by
    rw [List.forall₂_map_left_iff, List.forall₂_same]
    exact fun v _ => rfl
  have found : inlined? .funcall (func params body :: params.map var) [] = some (params, body) :=
    inlined?_eq_some_iff.mpr ⟨rfl, rfl, func params body, params.map var, body, params, rfl, rfl, distinct,
      (List.length_map var).symm, refers, rename_zip_self params body⟩
  rw [makeCall, found]

private theorem makeCall_plain {actuals : List Term} (plain : role op args named = .plain) :
    makeCall .funcall (call op args named :: actuals) [] = call .funcall (call op args named :: actuals) [] := by
  have kept : inlined? .funcall (call op args named :: actuals) [] = none := by
    by_contra other
    obtain ⟨⟨params, t'⟩, found⟩ := Option.ne_none_iff_exists'.mp other
    obtain ⟨_, _, function, _, body, _, same, parts, _⟩ := inlined?_eq_some_iff.mp found
    obtain ⟨rfl, _⟩ := List.cons.inj same
    exact role_plain_ne_func plain params body parts
  rw [makeCall, kept]

private theorem encode_funcall_ne (params : List VarId) (body : Term) (actuals : List Term) :
    (call .funcall (func params body :: actuals) []).encode ≠ body.encode := by
  intro same
  rw [func, encode_call_nil, encodeArgs, encode_call_nil, encodeArgs, encodeArgs] at same
  have size := congrArg sizeOf same
  simp at size
  omega

/-- A label that hides a function is noticed: a call of the function on its own parameters is not inlined. -/
private theorem not_hidden_function (plain : role op args named = .plain)
    (unaffected : Unaffected (.call op args named))
    {params : List VarId} (distinct : params.Nodup) (body : Term) : (call op args named).erase ≠ func params body := by
  intro erased
  have references : (params.map var).map erase = params.map var := by
    rw [List.map_map]
    exact List.map_congr_left fun v _ => erase_var v
  have called := unaffected.called (params.map var) (List.forall_mem_map.mpr fun v _ => .var v)
  rw [List.map_cons, references, erased, makeCall_on_params distinct, makeCall_plain plain] at called
  have sent : (call .funcall (call op args named :: params.map var) []).encode =
      (call .funcall (func params body :: params.map var) []).encode := by
    rw [encode_call_nil, encode_call_nil, encodeArgs, encodeArgs, ← encode_erase (call op args named), erased]
  exact encode_funcall_ne params body _ (sent.symm.trans called)

/-- No function in the term has a parameter twice. -/
def DistinctParams (t : Term) : Prop :=
  ∀ p params body, t.at? p = some (func params body) → params.Nodup

private theorem distinctParams_iff {t : Term} : t.DistinctParams ↔
    (∀ params body, t = func params body → params.Nodup) ∧ ∀ step c, t.child? step = some c → c.DistinctParams := by
  constructor
  · intro distinct
    refine ⟨fun params body same => distinct [] params body (congrArg some same), fun step c child => ?_⟩
    exact fun p params body found => distinct (step :: p) params body (at?_cons.mpr ⟨c, child, found⟩)
  · rintro ⟨here, below⟩ p params body found
    cases p with
    | nil => exact here params body (Option.some.inj found)
    | cons step p =>
      obtain ⟨c, child, found⟩ := at?_cons.mp found
      exact below step c child p params body found

theorem transparent_of_unaffected {t : Term} (distinct : t.erase.DistinctParams)
    (unaffected : ∀ p s, t.at? p = some s → s.Unaffected) : t.Transparent := by
  induction t using formInduction with
  | literal d => exact .literal d
  | annotated note inner ih =>
    rw [erase_annotated] at distinct
    exact .annotated note (ih distinct fun p s found => unaffected (.label :: p) s found)
  | reference v => exact .var v
  | function params body ih =>
    rw [erase_func, distinctParams_iff] at distinct
    exact Transparent.func_iff.mpr (ih (distinct.2 (.arg 1) _ rfl) fun p s found => unaffected (.arg 1 :: p) s found)
  | plain op args named plain parts fields =>
    obtain ⟨nodup, below⟩ := distinctParams_iff.mp distinct
    have child {c : Term} (part : c ∈ args ∨ ∃ field ∈ named, field.2 = c) :
        c.erase.DistinctParams ∧ ∀ p s, c.at? p = some s → s.Unaffected := by
      have erasedPart : c.erase ∈ args.map erase ∨ ∃ field ∈ Fields.mapValues erase named, field.2 = c.erase := by
        rcases part with member | ⟨field, member, rfl⟩
        · exact .inl (List.mem_map_of_mem member)
        · exact .inr ⟨_, List.mem_map_of_mem member, rfl⟩
      obtain ⟨step, here⟩ := exists_child?_call.mpr part
      obtain ⟨erasedStep, there⟩ := exists_child?_call.mpr erasedPart
      rw [erase_call] at below
      refine ⟨below erasedStep c.erase there, fun p s found => ?_⟩
      exact unaffected (step :: p) s (at?_cons.mpr ⟨c, here, found⟩)
    have insideArgs : ∀ t ∈ args, t.Transparent := by
      intro t member
      obtain ⟨distinct, unaffected⟩ := child (.inl member)
      exact parts t member distinct unaffected
    have insideNamed : ∀ field ∈ named, field.2.Transparent := by
      intro field member
      obtain ⟨distinct, unaffected⟩ := child (.inr ⟨field, member, rfl⟩)
      exact fields field member distinct unaffected
    refine (Transparent.plain_iff plain).mpr ⟨?_, insideArgs, insideNamed⟩
    have whole : Unaffected (.call op args named) := unaffected [] _ rfl
    cases found : role op (args.map erase) (Fields.mapValues erase named) with
    | reference v =>
      rw [role_eq_reference_iff, ← erase_call] at found
      exact absurd found (not_hidden_reference plain insideArgs whole v)
    | binder params =>
      obtain ⟨body, same⟩ := role_eq_binder_iff.mp found
      rw [← erase_call] at same
      exact absurd same (not_hidden_function plain whole (nodup params body same) body)
    | plain => rfl

end Term

namespace Proofs.LabelledRenaming
open Term

/-- Labels make no difference to a term and its parts if every call in it plays the role that it plays without labels.
Unless a function has a parameter twice and can never be inlined, they make none only then. -/
theorem unaffected_iff_transparent (t : Term) :
    (t.Transparent → ∀ p s, t.at? p = some s → s.Unaffected) ∧
    (t.erase.DistinctParams → (∀ p s, t.at? p = some s → s.Unaffected) → t.Transparent) := by
  constructor
  · intro transparent p s found
    exact (transparent.at found).unaffected
  · intro distinct unaffected
    exact transparent_of_unaffected distinct unaffected

theorem unaffected_iff_transparent_call :
    let hidden := Term.call .var [.annotated "x" (.literal (.unsigned 1))] []
    let body := Term.annotated "body" (.call .add [.annotated "x" (var 1), .literal (.unsigned 2)] [])
    let function := Term.annotated "function" (func [1] body)
    let args := [function, .annotated "argument" (var 5)]
    function.Transparent ∧ body.Unaffected ∧
    rename [(1, 5)] body = some (.annotated "body" (.call .add [.annotated "x" (var 5), .literal (.unsigned 2)] [])) ∧
    (makeCall .funcall args []).encode = (makeCall .funcall (args.map erase) []).encode ∧
    hidden.erase.DistinctParams ∧ ¬ ∀ p s, hidden.at? p = some s → s.Unaffected := by
  intro hidden body function args
  have number : (Term.literal (.unsigned 2)).Transparent := .literal _
  have labelled : (Term.annotated "x" (var 1)).Transparent := .annotated "x" (.var 1)
  have inside : body.Transparent := by
    refine .annotated "body" (.call_of_ne (by decide) (by decide) ?_ (by simp))
    simp [number, labelled]
  have transparent : function.Transparent := .annotated "function" (Transparent.func_iff.mpr inside)
  have unaffected := (unaffected_iff_transparent function).1 transparent
  have passed : ∀ t ∈ [Term.annotated "argument" (var 5)], t.Transparent := by
    simp [Transparent.annotated "argument" (.var 5)]
  have distinct : hidden.erase.DistinctParams := by
    refine distinctParams_iff.mpr ⟨nofun, fun step c child => ?_⟩
    obtain ⟨d, rfl⟩ := @child?_var 1 c step child
    exact distinctParams_iff.mpr ⟨nofun, nofun⟩
  refine ⟨transparent, unaffected [.label, .arg 1] body rfl, rfl, (unaffected [] function rfl).called _ passed,
    distinct, fun all => ?_⟩
  cases ((Transparent.plain_iff rfl).mp ((unaffected_iff_transparent hidden).2 distinct all)).1

/-- A label on the number hides a reference: it is not free, it is not renamed, and after inlining the server finds a
variable that nothing binds. A label on the parameters hides a function: what it captures is renamed all the same. -/
theorem hidden_by_label :
    let reference := Term.call .var [.annotated "x" (.literal (.unsigned 1))] []
    let function := Term.call .func [.annotated "x" (.literal (.array [.unsigned 3])), var 1] []
    let args := [func [1] reference, var 5]
    occursFree 1 reference = false ∧ occursFree 1 reference.erase = true ∧
    rename [(1, 3)] function ≠ none ∧ rename [(1, 3)] function.erase = none ∧
    (rename [(1, 5)] reference).map erase = some (var 1) ∧ rename [(1, 5)] reference.erase = some (var 5) ∧
    (makeCall .funcall args []).encode = (var 1).encode ∧
    (makeCall .funcall (args.map erase) []).encode = (var 5).encode ∧ (var 1).encode ≠ (var 5).encode := by
  refine ⟨rfl, rfl, ?_, rfl, rfl, rfl, rfl, rfl, ?_⟩
  · intro refused
    cases refused
  · intro same
    cases same

end Proofs.LabelledRenaming

end QueryTerms
