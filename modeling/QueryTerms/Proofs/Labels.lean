import QueryTerms.Proofs.Binders
import QueryTerms.Proofs.WireForm
import QueryTerms.Proofs.NamedParts

/-! Labels and the variables. A label on the number of a reference or on the parameters of a function hides the
reference or the function; anywhere else it makes no difference. Where every call plays the role that it plays
without labels, renaming and inlining go along with dropping the labels. -/

namespace QueryTerms

namespace Term

mutual
/-- The term without its labels. -/
def erase : Term → Term
  | .literal d => .literal d
  | .annotated _ inner => erase inner
  | .call op args named => .call op (eraseArgs args) (eraseNamed named)

def eraseArgs : List Term → List Term
  | [] => []
  | t :: rest => erase t :: eraseArgs rest

def eraseNamed : List (String × Term) → List (String × Term)
  | [] => []
  | (key, t) :: rest => (key, erase t) :: eraseNamed rest
end

variable {op : Operator} {args : List Term} {named : List (String × Term)}

private theorem eraseArgs_eq (args : List Term) : eraseArgs args = args.map erase := by
  induction args with
  | nil => rfl
  | cons t rest ih => rw [eraseArgs, ih, List.map_cons]

theorem eraseNamed_eq (named : List (String × Term)) : eraseNamed named = Fields.mapValues erase named := by
  induction named with
  | nil => rfl
  | cons field rest ih => rw [eraseNamed, ih]; rfl

@[simp] theorem erase_literal (d : Datum) : (literal d).erase = literal d := by
  simp only [erase]

@[simp] theorem erase_annotated (note : String) (inner : Term) : (annotated note inner).erase = inner.erase := by
  simp only [erase]

theorem erase_call : (call op args named).erase = call op (args.map erase) (Fields.mapValues erase named) := by
  rw [erase, eraseArgs_eq, eraseNamed_eq]

@[simp] theorem erase_var (v : VarId) : (var v).erase = var v := by
  simp [var, erase, eraseArgs, eraseNamed]

@[simp] theorem erase_func (params : List VarId) (body : Term) : (func params body).erase = func params body.erase := by
  simp [func, erase, eraseArgs, eraseNamed]

mutual
theorem encode_erase : (t : Term) → t.erase.encode = t.encode
  | .literal _ => by rw [erase]
  | .annotated _ inner => by rw [erase, encode, encode_erase inner]
  | .call op args named => by
    rw [erase, encode, encode, encodeArgs_eraseArgs args, encodeNamed_eraseNamed named]

private theorem encodeArgs_eraseArgs : (args : List Term) → encodeArgs (eraseArgs args) = encodeArgs args
  | [] => rfl
  | t :: rest => by rw [eraseArgs, encodeArgs, encodeArgs, encode_erase t, encodeArgs_eraseArgs rest]

theorem encodeNamed_eraseNamed : (named : List (String × Term)) → encodeNamed (eraseNamed named) = encodeNamed named
  | [] => rfl
  | (key, t) :: rest => by rw [eraseNamed, encodeNamed, encodeNamed, encode_erase t, encodeNamed_eraseNamed rest]
end

/-- Every call plays the role that it plays without labels. -/
inductive Transparent : Term → Prop where
  | literal (d : Datum) : Transparent (.literal d)
  | annotated (note : String) {inner : Term} : Transparent inner → Transparent (.annotated note inner)
  | call {op : Operator} {args : List Term} {named : List (String × Term)} :
    role op (args.map erase) (Fields.mapValues erase named) = role op args named →
    (∀ t ∈ args, Transparent t) → (∀ field ∈ named, Transparent field.2) → Transparent (.call op args named)

namespace Transparent

theorem var (v : VarId) : Transparent (.var v) := by
  refine .call ?_ ?_ ?_
  · simp [Fields.mapValues]
  · simp [literal]
  · simp

theorem func_iff {params : List VarId} {body : Term} : Transparent (.func params body) ↔ Transparent body := by
  constructor
  · intro transparent
    cases transparent with
    | call _ parts _ => exact parts body (by simp)
  · intro transparent
    refine .call ?_ ?_ ?_
    · simp [Fields.mapValues]
    · simp [literal, transparent]
    · simp

theorem plain_iff (plain : role op args named = .plain) :
    Transparent (.call op args named) ↔ role op (args.map erase) (Fields.mapValues erase named) = .plain ∧
      (∀ t ∈ args, Transparent t) ∧ ∀ field ∈ named, Transparent field.2 := by
  constructor
  · intro transparent
    cases transparent with
    | call same parts fields => exact ⟨same.trans plain, parts, fields⟩
  · intro ⟨erased, parts, fields⟩
    exact .call (erased.trans plain.symm) parts fields

theorem inner {note : String} {t : Term} (transparent : Transparent (.annotated note t)) : Transparent t := by
  cases transparent with
  | annotated _ inside => exact inside

/-- A call that is neither a reference nor a function, with or without labels on its parts. -/
theorem call_of_ne (notVar : op ≠ .var) (notFunc : op ≠ .func) (parts : ∀ t ∈ args, Transparent t)
    (fields : ∀ field ∈ named, Transparent field.2) : Transparent (.call op args named) :=
  (plain_iff (role_of_ne notVar notFunc)).mpr ⟨role_of_ne notVar notFunc, parts, fields⟩

end Transparent

theorem Data.transparent {t : Term} (data : Data t) : Transparent t := by
  induction data with
  | literal d => exact .literal d
  | call notVar notFunc _ _ parts =>
    apply Transparent.call_of_ne notVar notFunc
    · exact fun t member => parts t (List.mem_append_left _ member)
    · exact fun field member => parts field.2 (List.mem_append_right _ (List.mem_map_of_mem member))

theorem occursFree_erase {t : Term} (transparent : Transparent t) (v : VarId) :
    occursFree v t.erase = occursFree v t := by
  induction t using formInduction with
  | literal d => simp
  | annotated note inner ih => simpa using ih transparent.inner
  | reference w => rw [erase_var]
  | function params body ih =>
    rw [Bool.eq_iff_iff, erase_func, occursFree_func, occursFree_func, ih (Transparent.func_iff.mp transparent)]
  | plain op args named plain parts fields =>
    obtain ⟨erased, insideArgs, insideNamed⟩ := (Transparent.plain_iff plain).mp transparent
    rw [Bool.eq_iff_iff, erase_call, occursFree_plain erased, occursFree_plain plain]
    apply or_congr
    · simp only [List.mem_map, exists_exists_and_eq_and]
      exact exists_congr fun t => and_congr_right fun member => by rw [parts t member (insideArgs t member)]
    · simp only [Fields.mapValues, List.mem_map, exists_exists_and_eq_and]
      exact exists_congr fun field => and_congr_right fun member => by
        rw [fields field member (insideNamed field member)]

private theorem captures_erase {body : Term} (transparent : Transparent body) (m : Renaming) (params : List VarId) :
    captures m params [body.erase] = captures m params [body] := by
  simp only [captures, occursFreeArgs, occursFree_erase transparent]

private theorem rename_plain (m : Renaming) (plain : role op args named = .plain) :
    rename m (.call op args named) =
      (renameArgs m args).bind fun args => (renameNamed m named).map (.call op args) := by
  ext t'
  rw [rename_plain_eq_some_iff plain]
  simp only [Option.bind_eq_some_iff, Option.map_eq_some_iff, renameArgs_eq_some_iff, renameNamed_eq_some_iff]
  constructor
  · rintro ⟨args', named', rfl, parts, fields⟩
    exact ⟨args', parts, named', fields, rfl⟩
  · rintro ⟨args', parts, named', fields, rfl⟩
    exact ⟨args', named', rfl, parts, fields⟩

private theorem renameArgs_erase {m : Renaming} (each : ∀ t ∈ args, rename m t.erase = (rename m t).map erase) :
    renameArgs m (args.map erase) = (renameArgs m args).map (List.map erase) := by
  induction args with
  | nil => rfl
  | cons t rest ih =>
    obtain ⟨here, others⟩ := List.forall_mem_cons.mp each
    rw [List.map_cons, renameArgs, renameArgs, here, ih others]
    cases rename m t <;> cases renameArgs m rest <;> rfl

private theorem renameNamed_erase {m : Renaming}
    (each : ∀ field ∈ named, rename m field.2.erase = (rename m field.2).map erase) :
    renameNamed m (Fields.mapValues erase named) = (renameNamed m named).map (Fields.mapValues erase) := by
  induction named with
  | nil => rfl
  | cons field rest ih =>
    obtain ⟨here, others⟩ := List.forall_mem_cons.mp each
    rw [Fields.mapValues_cons, renameNamed, renameNamed, here, ih others]
    cases rename m field.2 <;> cases renameNamed m rest <;> rfl

/-- Labels can be dropped before or after a renaming, and it is refused in both cases or in none. -/
theorem rename_erase {t : Term} (transparent : Transparent t) (m : Renaming) :
    rename m t.erase = (rename m t).map erase := by
  induction t using formInduction generalizing m with
  | literal d => simp
  | annotated note inner ih =>
    rw [erase_annotated, rename_annotated, ih transparent.inner, Option.map_map]
    rfl
  | reference v => simp [rename_var]
  | function params body ih =>
    have inside := Transparent.func_iff.mp transparent
    rw [erase_func, rename_func, rename_func, captures_erase inside, ih inside]
    split
    · rfl
    · rw [Option.map_map, Option.map_map]
      rfl
  | plain op args named plain parts fields =>
    obtain ⟨erased, insideArgs, insideNamed⟩ := (Transparent.plain_iff plain).mp transparent
    rw [erase_call, rename_plain m erased, rename_plain m plain,
      renameArgs_erase fun t member => parts t member (insideArgs t member) m,
      renameNamed_erase fun field member => fields field member (insideNamed field member) m]
    cases renameArgs m args with
    | none => rfl
    | some args' =>
      cases renameNamed m named with
      | none => rfl
      | some named' => exact congrArg some erase_call.symm

theorem Transparent.rename {m : Renaming} {t t' : Term} (transparent : Transparent t)
    (renamed : Term.rename m t = some t') : Transparent t' := by
  induction t using formInduction generalizing m t' with
  | literal d =>
    obtain rfl := Option.some.inj ((rename_literal m d).symm.trans renamed)
    exact .literal d
  | annotated note inner ih =>
    rw [rename_annotated, Option.map_eq_some_iff] at renamed
    obtain ⟨inner', renamed, rfl⟩ := renamed
    exact .annotated note (ih transparent.inner renamed)
  | reference v =>
    obtain rfl := Option.some.inj ((rename_var m v).symm.trans renamed)
    exact .var _
  | function params body ih =>
    obtain ⟨_, body', bodyRenamed, rfl⟩ := rename_func_eq_some_iff.mp renamed
    exact func_iff.mpr (ih (func_iff.mp transparent) bodyRenamed)
  | plain op args named plain parts fields =>
    obtain ⟨erased, insideArgs, insideNamed⟩ := (plain_iff plain).mp transparent
    obtain ⟨args', named', rfl, partsRenamed, fieldsRenamed⟩ := (rename_plain_eq_some_iff plain).mp renamed
    have erasedParts : List.Forall₂ (fun t t' => Term.rename m t = some t') (args.map erase) (args'.map erase) := by
      rw [List.forall₂_map_left_iff, List.forall₂_map_right_iff]
      exact ((List.forall₂_and_left _ _).mpr ⟨insideArgs, partsRenamed⟩).imp fun t t' both => by
        rw [rename_erase both.1, both.2, Option.map_some]
    have erasedFields : List.Forall₂ (fun f f' => f.1 = f'.1 ∧ Term.rename m f.2 = some f'.2)
        (Fields.mapValues erase named) (Fields.mapValues erase named') := by
      rw [Fields.mapValues, Fields.mapValues, List.forall₂_map_left_iff, List.forall₂_map_right_iff]
      exact ((List.forall₂_and_left _ _).mpr ⟨insideNamed, fieldsRenamed⟩).imp fun f f' both => by
        rw [rename_erase both.1, both.2.2, Option.map_some]
        exact ⟨both.2.1, rfl⟩
    refine (plain_iff (role_renamed_plain plain partsRenamed fieldsRenamed)).mpr
      ⟨role_renamed_plain erased erasedParts erasedFields, fun t' member => ?_, fun field' member => ?_⟩
    · obtain ⟨t, inside, renamed⟩ := exists_of_mem_right partsRenamed member
      exact parts t inside (insideArgs t inside) renamed
    · obtain ⟨field, inside, _, renamed⟩ := exists_of_mem_right fieldsRenamed member
      exact fields field inside (insideNamed field inside) renamed

private theorem asVar?_erase {t : Term} (transparent : Transparent t) : t.erase.asVar? = t.asVar? := by
  induction t using formInduction with
  | literal d => rw [erase_literal]
  | annotated note inner ih =>
    rw [erase_annotated, ih transparent.inner]
    rfl
  | reference v => rw [erase_var]
  | function params body => rw [erase_func]; rfl
  | plain op args named plain =>
    obtain ⟨erased, _⟩ := (Transparent.plain_iff plain).mp transparent
    rw [erase_call, (role_eq_plain_iff.mp erased).1, (role_eq_plain_iff.mp plain).1]

private theorem funcParts?_erase {t : Term} (transparent : Transparent t) :
    t.erase.funcParts? = t.funcParts?.map fun parts => (parts.1, parts.2.erase) := by
  induction t using formInduction with
  | literal d => rw [erase_literal]; rfl
  | annotated note inner ih =>
    rw [erase_annotated, ih transparent.inner]
    rfl
  | reference v => rw [erase_var]; rfl
  | function params body =>
    have parts (body : Term) : (func params body).funcParts? = some (params, body) := funcParts?_eq_some_iff.mpr rfl
    rw [erase_func, parts, parts, Option.map_some]
  | plain op args named plain =>
    obtain ⟨erased, _⟩ := (Transparent.plain_iff plain).mp transparent
    rw [erase_call, (role_eq_plain_iff.mp erased).2, (role_eq_plain_iff.mp plain).2, Option.map_none]

private theorem mapM_asVar?_erase {actuals : List Term} (each : ∀ t ∈ actuals, Transparent t) :
    (actuals.map erase).mapM asVar? = actuals.mapM asVar? := by
  induction actuals with
  | nil => rfl
  | cons t rest ih =>
    obtain ⟨here, others⟩ := List.forall_mem_cons.mp each
    rw [List.map_cons, List.mapM_cons, List.mapM_cons, asVar?_erase here, ih others]

theorem Transparent.body {t body : Term} {params : List VarId} (transparent : Transparent t)
    (parts : t.funcParts? = some (params, body)) : Transparent body := by
  induction t using formInduction with
  | annotated note inner ih => exact ih transparent.inner parts
  | literal d => cases parts
  | reference v => cases parts
  | function ps b =>
    obtain ⟨rfl, rfl⟩ := func_inj.mp (funcParts?_eq_some_iff.mp parts)
    exact func_iff.mp transparent
  | plain op args named plain =>
    rw [(role_eq_plain_iff.mp plain).2] at parts
    cases parts

/-- A call is inlined with labels on its parts exactly if it is inlined without them, and binds the same. -/
theorem inlineCall?_erase (each : ∀ t ∈ args, Transparent t) :
    inlineCall? (args.map erase) = (inlineCall? args).map fun inlined => (inlined.1, inlined.2.erase) := by
  cases args with
  | nil => rfl
  | cons function actuals =>
    obtain ⟨here, others⟩ := List.forall_mem_cons.mp each
    rw [List.map_cons, inlineCall?, inlineCall?, funcParts?_erase here, mapM_asVar?_erase others, List.length_map]
    cases parts : function.funcParts? with
    | none => rfl
    | some found =>
      obtain ⟨params, body⟩ := found
      simp only [Option.map_some, Option.bind_eq_bind, Option.bind_some]
      split
      · cases actuals.mapM asVar? with
        | none => rfl
        | some targets =>
          simp only [Option.bind_some, rename_erase (here.body parts)]
          cases rename (params.zip targets) body <;> rfl
      · rfl

theorem inlined?_erase (each : ∀ t ∈ args, Transparent t) :
    inlined? op (args.map erase) (Fields.mapValues erase named) =
      (inlined? op args named).map fun inlined => (inlined.1, inlined.2.erase) := by
  rw [inlined?, inlined?, Fields.mapValues, List.isEmpty_map, inlineCall?_erase each]
  split <;> rfl

theorem makeCall_erase (each : ∀ t ∈ args, Transparent t) :
    makeCall op (args.map erase) (Fields.mapValues erase named) = (makeCall op args named).erase := by
  rw [makeCall, makeCall, inlined?_erase each]
  cases inlined? op args named with
  | none => exact erase_call.symm
  | some inlined => rfl

theorem Transparent.makeCall (notVar : op ≠ .var) (notFunc : op ≠ .func) (each : ∀ t ∈ args, Transparent t)
    (eachNamed : ∀ field ∈ named, Transparent field.2) : Transparent (Term.makeCall op args named) := by
  unfold Term.makeCall
  split
  next found =>
    obtain ⟨_, _, function, actuals, body, targets, rfl, parts, _, _, _, renamed⟩ := inlined?_eq_some_iff.mp found
    have inside := (each function List.mem_cons_self).body (funcParts?_eq_some_iff.mpr parts)
    exact inside.rename renamed
  next => exact .call_of_ne notVar notFunc each eachNamed

end Term

end QueryTerms
