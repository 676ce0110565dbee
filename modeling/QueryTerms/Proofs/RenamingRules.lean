import QueryTerms.Proofs.TermForms
import QueryTerms.Term.Inlining

/-! Free occurrences and renaming, one rule for each form of a term, and what it takes for a call to be inlined.
The shortcut for an empty map is a case of these rules and never needs an argument of its own. -/

namespace QueryTerms

namespace Renaming

theorem lookup_without (m : Renaming) (params : List VarId) (v : VarId) :
    (m.without params).lookup v = if v ∈ params then none else m.lookup v := by
  induction m with
  | nil => simp [without]
  | cons entry m ih =>
    obtain ⟨source, target⟩ := entry
    by_cases hidden : source ∈ params
    · have dropped : without params ((source, target) :: m) = without params m := by simp [without, hidden]
      rw [dropped, ih, List.lookup_cons]
      by_cases same : v = source
      · simp [same, hidden]
      · simp [beq_eq_false_iff_ne.mpr same]
    · have kept : without params ((source, target) :: m) = (source, target) :: without params m := by
        simp [without, hidden]
      rw [kept, List.lookup_cons, List.lookup_cons, ih]
      by_cases same : v = source
      · simp [same, hidden]
      · simp [beq_eq_false_iff_ne.mpr same]

theorem lookup_without_eq_some_iff {m : Renaming} {params : List VarId} {v w : VarId} :
    (m.without params).lookup v = some w ↔ v ∉ params ∧ m.lookup v = some w := by
  rw [lookup_without]
  by_cases hidden : v ∈ params <;> simp [hidden]

theorem without_nil (m : Renaming) : m.without [] = m := by
  simp [without]

theorem mem_of_lookup {m : Renaming} {v w : VarId} (found : m.lookup v = some w) : (v, w) ∈ m := by
  induction m with
  | nil => simp at found
  | cons entry m ih =>
    obtain ⟨source, target⟩ := entry
    rw [List.lookup_cons] at found
    split at found
    next same =>
      obtain rfl := eq_of_beq same
      obtain rfl := Option.some.inj found
      simp
    next => exact List.mem_cons_of_mem _ (ih found)

end Renaming

namespace Term

variable {op : Operator} {args : List Term} {named : List (String × Term)}

private theorem occursFreeArgs_iff {v : VarId} : occursFreeArgs v args = true ↔ ∃ t ∈ args, occursFree v t = true := by
  induction args with
  | nil => simp [occursFreeArgs]
  | cons t rest ih => simp [occursFreeArgs, ih]

private theorem occursFreeNamed_iff {v : VarId} :
    occursFreeNamed v named = true ↔ ∃ field ∈ named, occursFree v field.2 = true := by
  induction named with
  | nil => simp [occursFreeNamed]
  | cons field rest ih => simp [occursFreeNamed, ih]

@[simp] theorem occursFree_literal (v : VarId) (d : Datum) : occursFree v (.literal d) = false := by
  simp only [occursFree]

@[simp] theorem occursFree_annotated (v : VarId) (note : String) (inner : Term) :
    occursFree v (.annotated note inner) = occursFree v inner := by
  simp only [occursFree]

@[simp] theorem occursFree_var {v w : VarId} : occursFree v (var w) = true ↔ w = v := by
  simp [var, occursFree]

@[simp] theorem occursFree_func {v : VarId} {params : List VarId} {body : Term} :
    occursFree v (func params body) = true ↔ v ∉ params ∧ occursFree v body = true := by
  simp [func, occursFree, occursFreeArgs]

theorem occursFree_plain {v : VarId} (plain : role op args named = .plain) :
    occursFree v (.call op args named) = true ↔
      (∃ t ∈ args, occursFree v t = true) ∨ ∃ field ∈ named, occursFree v field.2 = true := by
  simp only [occursFree, plain, Bool.or_eq_true, occursFreeArgs_iff, occursFreeNamed_iff]

theorem occursFree_stripNotes (v : VarId) (t : Term) : occursFree v t.stripNotes = occursFree v t := by
  induction t using formInduction with
  | annotated note inner ih => simpa only [stripNotes, occursFree_annotated] using ih
  | literal d => rfl
  | reference v => rfl
  | function params body => rfl
  | plain op args named => rfl

theorem captures_iff {m : Renaming} {params : List VarId} {parts : List Term} :
    captures m params parts = true ↔
      ∃ v w, m.lookup v = some w ∧ w ∈ params ∧ occursFreeArgs v parts = true := by
  simp only [captures, List.any_eq_true, Prod.exists]
  constructor
  · rintro ⟨v, _, _, inside⟩
    cases found : m.lookup v with
    | none => simp [found] at inside
    | some w => exact ⟨v, w, found, by simpa [found] using inside⟩
  · rintro ⟨v, w, found, inside⟩
    exact ⟨v, w, Renaming.mem_of_lookup found, by simpa [found] using inside⟩

@[simp] theorem rename_literal (m : Renaming) (d : Datum) : rename m (.literal d) = some (.literal d) := by
  simp only [rename]

@[simp] theorem rename_annotated (m : Renaming) (note : String) (inner : Term) :
    rename m (.annotated note inner) = (rename m inner).map (.annotated note) := by
  simp only [rename]

@[simp] theorem rename_nil (t : Term) : rename [] t = some t := by
  induction t using formInduction with
  | literal d => simp
  | annotated note inner ih => simp [ih]
  | reference v => simp [var, rename]
  | function params body => simp [func, rename]
  | plain op args named => simp [rename]

theorem rename_var (m : Renaming) (v : VarId) :
    rename m (var v) = some (var ((m.lookup v).getD v)) := by
  cases m with
  | nil => simp
  | cons entry m =>
    simp only [var, rename, role_var, List.isEmpty_cons, Bool.false_eq_true, ↓reduceIte]
    cases found : List.lookup v (entry :: m) <;> simp

theorem rename_func (m : Renaming) (params : List VarId) (body : Term) :
    rename m (func params body) =
      if captures (m.without params) params [body] then none
      else (rename (m.without params) body).map (func params) := by
  have parts (active : Renaming) :
      captures active params [.literal (.array (params.map Datum.unsigned)), body] =
        captures active params [body] := by
    simp [captures, occursFreeArgs]
  cases m with
  | nil => simp [Renaming.without, captures]
  | cons entry m =>
    simp only [func, rename, role_func, List.isEmpty_cons, Bool.false_eq_true, ↓reduceIte, parts]
    split
    · rfl
    · cases inner : rename (Renaming.without params (entry :: m)) body <;> simp [renameArgs, inner, func]

/-- A function is renamed by its body, unless it binds the target of a variable that is free in it. -/
theorem rename_func_eq_some_iff {m : Renaming} {params : List VarId} {body t' : Term} :
    rename m (func params body) = some t' ↔
      (∀ v w, v ∉ params → m.lookup v = some w → occursFree v body = true → w ∉ params) ∧
      ∃ body', rename (m.without params) body = some body' ∧ t' = func params body' := by
  rw [rename_func]
  split
  next captured =>
    obtain ⟨v, w, found, target, inside⟩ := captures_iff.mp captured
    obtain ⟨kept, found⟩ := Renaming.lookup_without_eq_some_iff.mp found
    simp only [reduceCtorEq, false_iff]
    rintro ⟨safe, _⟩
    exact safe v w kept found (by simpa [occursFreeArgs] using inside) target
  next safe =>
    rw [captures_iff] at safe
    simp only [Option.map_eq_some_iff]
    constructor
    · rintro ⟨body', renamed, rfl⟩
      refine ⟨fun v w kept found inside target => safe ?_, body', renamed, rfl⟩
      exact ⟨v, w, Renaming.lookup_without_eq_some_iff.mpr ⟨kept, found⟩, target, by
        simpa [occursFreeArgs] using inside⟩
    · rintro ⟨_, body', renamed, rfl⟩
      exact ⟨body', renamed, rfl⟩

theorem renameArgs_eq_some_iff {m : Renaming} {args' : List Term} :
    renameArgs m args = some args' ↔ List.Forall₂ (fun t t' => rename m t = some t') args args' := by
  induction args generalizing args' with
  | nil => cases args' <;> simp [renameArgs]
  | cons t rest ih =>
    cases args' with
    | nil => simp [renameArgs, Option.bind_eq_some_iff]
    | cons t' rest' => simp [renameArgs, Option.bind_eq_some_iff, ih]

theorem renameNamed_eq_some_iff {m : Renaming} {named' : List (String × Term)} :
    renameNamed m named = some named' ↔
      List.Forall₂ (fun f f' => f.1 = f'.1 ∧ rename m f.2 = some f'.2) named named' := by
  induction named generalizing named' with
  | nil => cases named' <;> simp [renameNamed]
  | cons f rest ih =>
    cases named' with
    | nil => simp [renameNamed, Option.bind_eq_some_iff]
    | cons f' rest' =>
      obtain ⟨key, t⟩ := f
      obtain ⟨key', t'⟩ := f'
      simp only [renameNamed, Option.bind_eq_bind, Option.bind_eq_some_iff, Option.pure_def, Option.some.injEq,
        List.cons.injEq, Prod.mk.injEq, List.forall₂_cons, ih]
      constructor
      · rintro ⟨_, first, _, others, ⟨rfl, rfl⟩, rfl⟩
        exact ⟨⟨rfl, first⟩, others⟩
      · rintro ⟨⟨rfl, first⟩, others⟩
        exact ⟨t', first, rest', others, ⟨rfl, rfl⟩, rfl⟩

theorem rename_plain_eq_some_iff {m : Renaming} {t' : Term} (plain : role op args named = .plain) :
    rename m (.call op args named) = some t' ↔ ∃ args' named', t' = .call op args' named' ∧
      List.Forall₂ (fun t t' => rename m t = some t') args args' ∧
      List.Forall₂ (fun f f' => f.1 = f'.1 ∧ rename m f.2 = some f'.2) named named' := by
  have unfolded : rename m (.call op args named) = some t' ↔
      ∃ args', renameArgs m args = some args' ∧ ∃ named', renameNamed m named = some named' ∧
        call op args' named' = t' := by
    cases m with
    | nil =>
      have same : renameArgs [] args = some args := renameArgs_eq_some_iff.mpr (by simp [List.forall₂_same])
      have sameNamed : renameNamed [] named = some named :=
        renameNamed_eq_some_iff.mpr (by simp [List.forall₂_same])
      simp [same, sameNamed]
    | cons entry m => simp [rename, plain, Option.bind_eq_some_iff]
  simp only [unfolded, renameArgs_eq_some_iff, renameNamed_eq_some_iff]
  constructor
  · rintro ⟨args', parts, named', fields, rfl⟩
    exact ⟨args', named', rfl, parts, fields⟩
  · rintro ⟨args', named', rfl, parts, fields⟩
    exact ⟨args', parts, named', fields, rfl⟩

private theorem rename_eq_literal {m : Renaming} {t : Term} {d : Datum} (renamed : rename m t = some (.literal d)) :
    t = .literal d := by
  induction t using formInduction with
  | literal d' => simpa using renamed
  | annotated note inner => simp at renamed
  | reference v =>
    rw [rename_var] at renamed
    cases renamed
  | function params body =>
    obtain ⟨_, body', _, same⟩ := rename_func_eq_some_iff.mp renamed
    cases same
  | plain op args named plain =>
    obtain ⟨args', named', same, _⟩ := (rename_plain_eq_some_iff plain).mp renamed
    cases same

/-- A plain call stays one where parts are replaced, as long as no part becomes a literal that was none: the
number of a reference and the parameters of a function are literals. -/
theorem role_plain_of_literals {args' : List Term} {named' : List (String × Term)} (plain : role op args named = .plain)
    (parts : List.Forall₂ (fun t t' => ∀ d, t' = .literal d → t = .literal d) args args')
    (fields : named' = [] → named = []) : role op args' named' = .plain := by
  cases found : role op args' named' with
  | reference v =>
    obtain ⟨rfl, rfl, rfl⟩ := call.inj (role_eq_reference_iff.mp found)
    obtain ⟨id, _, kept, rest, rfl⟩ := List.forall₂_cons_right_iff.mp parts
    obtain rfl := List.forall₂_nil_right_iff.mp rest
    rw [kept _ rfl, fields rfl, role_var] at plain
    cases plain
  | binder params =>
    obtain ⟨body', same⟩ := role_eq_binder_iff.mp found
    obtain ⟨rfl, rfl, rfl⟩ := call.inj same
    obtain ⟨ids, _, kept, rest, rfl⟩ := List.forall₂_cons_right_iff.mp parts
    obtain ⟨body, _, _, last, rfl⟩ := List.forall₂_cons_right_iff.mp rest
    obtain rfl := List.forall₂_nil_right_iff.mp last
    rw [kept _ rfl, fields rfl, role_func] at plain
    cases plain
  | plain => rfl

theorem role_renamed_plain {m : Renaming} {args' : List Term} {named' : List (String × Term)}
    (plain : role op args named = .plain)
    (parts : List.Forall₂ (fun t t' => rename m t = some t') args args')
    (fields : List.Forall₂ (fun f f' => f.1 = f'.1 ∧ rename m f.2 = some f'.2) named named') :
    role op args' named' = .plain := by
  apply role_plain_of_literals plain
  · exact parts.imp fun t t' renamed d same => rename_eq_literal (same ▸ renamed)
  · rintro rfl
    exact List.forall₂_nil_right_iff.mp fields

theorem rename_eq_var {m : Renaming} {t : Term} {w : VarId} (renamed : rename m t = some (var w)) :
    ∃ v, t = var v := by
  induction t using formInduction with
  | literal d =>
    rw [rename_literal] at renamed
    cases renamed
  | annotated note inner =>
    rw [rename_annotated, Option.map_eq_some_iff] at renamed
    obtain ⟨inner', _, same⟩ := renamed
    cases same
  | reference v => exact ⟨v, rfl⟩
  | function params body =>
    obtain ⟨_, body', _, same⟩ := rename_func_eq_some_iff.mp renamed
    cases same
  | plain op args named plain =>
    obtain ⟨args', named', same, parts, fields⟩ := (rename_plain_eq_some_iff plain).mp renamed
    exact absurd same.symm (role_plain_ne_var (role_renamed_plain plain parts fields) w)

private theorem mapM_asVar?_eq_some_iff {actuals : List Term} {targets : List VarId} :
    actuals.mapM asVar? = some targets ↔ List.Forall₂ (fun t w => t.stripNotes = var w) actuals targets := by
  induction actuals generalizing targets with
  | nil => cases targets <;> simp
  | cons t rest ih =>
    cases targets with
    | nil => simp [Option.bind_eq_some_iff]
    | cons w targets => simp [Option.bind_eq_some_iff, asVar?_eq_some_iff, ih]

/-- A call is inlined if it has no named arguments and calls a function of distinct parameters on as many
references, and if the body can be renamed. -/
theorem inlined?_eq_some_iff {params : List VarId} {t' : Term} :
    inlined? op args named = some (params, t') ↔
      op = .funcall ∧ named = [] ∧ ∃ function actuals body targets, args = function :: actuals ∧
        function.stripNotes = func params body ∧ params.Nodup ∧ params.length = actuals.length ∧
        List.Forall₂ (fun t w => t.stripNotes = var w) actuals targets ∧
        rename (params.zip targets) body = some t' := by
  unfold inlined?
  split
  next calls =>
    obtain ⟨rfl, empty⟩ := calls
    obtain rfl := List.isEmpty_iff.mp empty
    cases args with
    | nil => simp [inlineCall?]
    | cons function actuals =>
      simp only [inlineCall?, Option.bind_eq_bind, Option.bind_eq_some_iff, Prod.exists, true_and,
        List.cons.injEq]
      constructor
      · rintro ⟨ps, body, parts, inlined⟩
        split at inlined
        next fits =>
          simp only [Option.bind_eq_some_iff, Option.pure_def, Option.some.injEq, Prod.mk.injEq] at inlined
          obtain ⟨targets, refers, renamed, same, rfl, rfl⟩ := inlined
          exact ⟨function, actuals, body, targets, ⟨rfl, rfl⟩, funcParts?_eq_some_iff.mp parts, fits.2, fits.1,
            mapM_asVar?_eq_some_iff.mp refers, same⟩
        next => cases inlined
      · rintro ⟨_, _, body, targets, ⟨rfl, rfl⟩, parts, distinct, full, refers, renamed⟩
        refine ⟨params, body, funcParts?_eq_some_iff.mpr parts, ?_⟩
        simp [full, distinct, mapM_asVar?_eq_some_iff.mpr refers, renamed]
  next other =>
    simp only [reduceCtorEq, false_iff]
    rintro ⟨rfl, rfl, _⟩
    exact other ⟨rfl, rfl⟩

end Term

end QueryTerms
