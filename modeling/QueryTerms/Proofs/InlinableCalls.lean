import QueryTerms.Proofs.VariableMaps
import Mathlib.Data.List.Nodup

/-! Calls that could be inlined. Where all functions bind variables of their own, which are free nowhere, no
renaming is refused: every call of the right form is inlined, none comes into being elsewhere, and inlining
goes along with every map that keeps the bound variables apart. -/

namespace QueryTerms

namespace Term

/-- A function is called without named arguments on as many references as it has parameters, all seen through
labels. -/
def Inlinable (op : Operator) (args : List Term) (named : List (String × Term)) : Prop :=
  op = .funcall ∧ named = [] ∧ ∃ function actuals params body, args = function :: actuals ∧
    function.funcParts? = some (params, body) ∧ actuals.length = params.length ∧
    ∀ t ∈ actuals, ∃ v, t.asVar? = some v

/-- No call in the term could be inlined. -/
def Settled (t : Term) : Prop :=
  ∀ p op args named, t.at? p = some (.call op args named) → ¬ Inlinable op args named

variable {op : Operator} {args : List Term} {named : List (String × Term)} {f : VarId → VarId}

theorem inlinable_iff :
    Inlinable op args named ↔ op = .funcall ∧ named = [] ∧ ∃ function actuals params body targets,
      args = function :: actuals ∧ function.stripNotes = func params body ∧ params.length = actuals.length ∧
      List.Forall₂ (fun t w => t.stripNotes = var w) actuals targets := by
  refine and_congr_right fun _ => and_congr_right fun _ => ?_
  constructor
  · intro ⟨function, actuals, params, body, same, parts, full, refer⟩
    obtain ⟨targets, refers⟩ := Proofs.RenamingExact.forall₂_of_exists actuals refer
    exact ⟨function, actuals, params, body, targets, same, funcParts?_eq_some_iff.mp parts, full.symm,
      refers.imp fun _ _ => asVar?_eq_some_iff.mp⟩
  · intro ⟨function, actuals, params, body, targets, same, parts, full, refers⟩
    refine ⟨function, actuals, params, body, same, funcParts?_eq_some_iff.mpr parts, full.symm, fun t member => ?_⟩
    obtain ⟨w, _, refer⟩ := exists_of_mem_right refers.flip member
    exact ⟨w, asVar?_eq_some_iff.mpr refer⟩

private theorem inlinable_of_inlined {result : List VarId × Term} (found : inlined? op args named = some result) :
    Inlinable op args named := by
  obtain ⟨rfl, rfl, function, actuals, body, targets, same, parts, _, full, refers, _⟩ :=
    inlined?_eq_some_iff.mp found
  exact inlinable_iff.mpr ⟨rfl, rfl, function, actuals, _, body, targets, same, parts, full, refers⟩

/-- A map of the variables turns no other call into one that could be inlined. -/
private theorem inlinable_of_mapVars
    (inlinable : Inlinable op (args.map (mapVars f)) (Fields.mapValues (mapVars f) named)) :
    Inlinable op args named := by
  obtain ⟨rfl, unnamed, function', actuals', params', body', targets', same, parts, full, refers⟩ :=
    inlinable_iff.mp inlinable
  obtain ⟨function, actuals, rfl, rfl, rfl⟩ := List.map_eq_cons_iff.mp same
  rw [stripNotes_mapVars] at parts
  obtain ⟨params, body, bare, rfl, rfl⟩ := mapVars_eq_func parts
  refine ⟨rfl, List.map_eq_nil_iff.mp unnamed, function, actuals, params, body, rfl,
    funcParts?_eq_some_iff.mpr bare, by simpa using full.symm, fun t member => ?_⟩
  obtain ⟨w, _, refer⟩ := exists_of_mem_right refers.flip (List.mem_map_of_mem member)
  rw [stripNotes_mapVars] at refer
  obtain ⟨v, bare, _⟩ := mapVars_eq_var refer
  exact ⟨v, asVar?_eq_some_iff.mpr bare⟩

namespace Settled

theorem literal (d : Datum) : Settled (.literal d) := by
  intro p op args named found
  exact absurd found at?_literal_ne_call

theorem child {t c : Term} (settled : Settled t) (step : Step) (child : t.child? step = some c) : Settled c := by
  intro p op args named found
  exact settled (step :: p) op args named (at?_cons.mpr ⟨c, child, found⟩)

theorem annotated {note : String} {inner : Term} (settled : Settled inner) : Settled (.annotated note inner) := by
  intro p op args named found
  cases p with
  | nil => simp [at?] at found
  | cons step p =>
    obtain ⟨c, child, found⟩ := at?_cons.mp found
    cases step with
    | label =>
      obtain rfl := Option.some.inj child
      exact settled p op args named found
    | arg i => cases child
    | field i => cases child

theorem call_iff :
    Settled (.call op args named) ↔
      ¬ Inlinable op args named ∧ ∀ t ∈ args ++ named.map Prod.snd, Settled t := by
  have parts : (∀ t ∈ args ++ named.map Prod.snd, Settled t) ↔
      ∀ step c, (Term.call op args named).child? step = some c → Settled c := by
    constructor
    · intro each step c child
      apply each
      rw [List.mem_append, List.mem_map]
      exact exists_child?_call.mp ⟨step, child⟩
    · intro each t member
      rw [List.mem_append, List.mem_map] at member
      obtain ⟨step, child⟩ : ∃ step, (Term.call op args named).child? step = some t := exists_child?_call.mpr member
      exact each step t child
  rw [parts]
  constructor
  · intro settled
    exact ⟨settled [] op args named rfl, fun step c child => settled.child step child⟩
  · intro ⟨here, below⟩ p op' args' named' found
    cases p with
    | nil =>
      obtain ⟨rfl, rfl, rfl⟩ := call.inj (Option.some.inj found)
      exact here
    | cons step p =>
      obtain ⟨c, child, found⟩ := at?_cons.mp found
      exact below step c child p op' args' named' found

theorem var (v : VarId) : Settled (.var v) := by
  refine call_iff.mpr ⟨fun inlinable => ?_, by simp [literal]⟩
  cases inlinable.1

theorem func_iff {params : List VarId} {body : Term} : Settled (.func params body) ↔ Settled body := by
  constructor
  · intro settled
    exact settled.child (.arg 1) rfl
  · intro settled
    refine call_iff.mpr ⟨fun inlinable => ?_, by simp [literal, settled]⟩
    cases inlinable.1

theorem stripNotes {t : Term} (settled : Settled t) : Settled t.stripNotes := by
  induction t using formInduction with
  | annotated note inner ih => exact ih (settled.child .label rfl)
  | literal d => exact settled
  | reference v => exact settled
  | function params body => exact settled
  | plain op args named => exact settled

theorem mapVars {t : Term} (settled : Settled t) (f : VarId → VarId) : Settled (t.mapVars f) := by
  induction t using formInduction with
  | literal d => simpa using literal d
  | annotated note inner ih =>
    rw [mapVars_annotated]
    exact (ih (settled.child .label rfl)).annotated
  | reference v =>
    rw [mapVars_var]
    exact var (f v)
  | function params body ih =>
    rw [mapVars_func]
    exact func_iff.mpr (ih (func_iff.mp settled))
  | plain op args named plain parts fields =>
    obtain ⟨here, below⟩ := call_iff.mp settled
    rw [mapVars_plain plain]
    refine call_iff.mpr ⟨fun inlinable => here (inlinable_of_mapVars inlinable), fun t member => ?_⟩
    rcases List.mem_append.mp member with part | value
    · obtain ⟨t, inside, rfl⟩ := List.mem_map.mp part
      exact parts t inside (below t (List.mem_append_left _ inside))
    · obtain ⟨field', member', rfl⟩ := List.mem_map.mp value
      obtain ⟨field, inside, rfl⟩ := List.mem_map.mp member'
      exact fields field inside (below field.2 (List.mem_append_right _ (List.mem_map_of_mem inside)))

end Settled

theorem Data.settled {t : Term} (data : Data t) : Settled t := by
  induction data with
  | literal d => exact .literal d
  | call _ _ notCalled _ ih => exact Settled.call_iff.mpr ⟨fun inlinable => notCalled inlinable.1, ih⟩

/-- The functions in the terms bind distinct variables, and none of them is free in the terms. -/
structure Apart (ts : List Term) : Prop where
  distinct : (ts.flatMap binders).Nodup
  fresh : ∀ t ∈ ts, ∀ v, occursFree v t = true → v ∉ ts.flatMap binders

/-- The map takes a variable that is bound in the terms to where it takes no other variable of them. -/
def Separates (f : VarId → VarId) (ts : List Term) : Prop :=
  ∀ b ∈ ts.flatMap binders, ∀ v, (v ∈ ts.flatMap binders ∨ ∃ t ∈ ts, occursFree v t = true) → f v = f b → v = b

theorem Apart.mapVars {ts : List Term} (apart : Apart ts) (separates : Separates f ts) :
    Apart (ts.map (Term.mapVars f)) := by
  have bound : (ts.map (Term.mapVars f)).flatMap binders = (ts.flatMap binders).map f := by
    simp only [List.flatMap_map, List.map_flatMap, binders_mapVars]
  refine ⟨?_, ?_⟩
  · rw [bound]
    exact List.Nodup.map_on (fun v here w there same => separates w there v (.inl here) same) apart.distinct
  · intro t' mapped w freeMapped inside
    obtain ⟨t, member, rfl⟩ := List.mem_map.mp mapped
    obtain ⟨v, free, rfl⟩ := occursFree_of_mapVars freeMapped
    rw [bound] at inside
    obtain ⟨b, inside, same⟩ := List.mem_map.mp inside
    obtain rfl := separates b inside v (.inr ⟨t, member, free⟩) same.symm
    exact apart.fresh t member v free inside

/-- What the parameters of a called function are replaced by. -/
def actual (params targets : List VarId) (v : VarId) : VarId :=
  ((params.zip targets).lookup v).getD v

theorem actual_of_not_mem {params targets : List VarId} {v : VarId} (outside : v ∉ params) :
    actual params targets v = v := by
  have missing : (params.zip targets).lookup v = none := by
    rw [List.lookup_eq_none_iff]
    intro entry member
    have param : entry.1 ∈ params := (List.of_mem_zip member).1
    simpa using fun same : v = entry.1 => outside (same ▸ param)
  rw [actual, missing, Option.getD_none]

/-- Where the functions keep apart, a call of the right form is inlined: its body takes the variables of the
arguments. -/
theorem Apart.inlined {function body : Term} {actuals : List Term} {params targets : List VarId}
    (apart : Apart (function :: actuals)) (parts : function.stripNotes = func params body)
    (full : params.length = actuals.length)
    (refers : List.Forall₂ (fun t w => t.stripNotes = Term.var w) actuals targets) :
    inlined? .funcall (function :: actuals) [] = some (params, body.mapVars (actual params targets)) := by
  have own : function.binders = params ++ body.binders := by
    rw [← binders_stripNotes, parts, binders_func]
  have distinct : (params ++ body.binders).Nodup := by
    have all := apart.distinct
    rw [List.flatMap_cons, own] at all
    exact (List.nodup_append.mp all).1
  obtain ⟨distinctParams, _, disjoint⟩ := List.nodup_append.mp distinct
  have renamed : rename (params.zip targets) body = some (body.mapVars (actual params targets)) := by
    apply rename_eq_mapVars
    · intro b bound
      cases found : (params.zip targets).lookup b with
      | none => rfl
      | some w =>
        have param := (List.of_mem_zip (Renaming.mem_of_lookup found)).1
        exact absurd rfl (disjoint b param b bound)
    · intro v w found bound
      obtain ⟨t, member, bare⟩ := exists_of_mem_right refers (List.of_mem_zip (Renaming.mem_of_lookup found)).2
      have free : occursFree w t = true := by
        rw [← occursFree_stripNotes, bare]
        simp
      apply apart.fresh t (List.mem_cons_of_mem _ member) w free
      rw [List.flatMap_cons, own]
      exact List.mem_append_left _ (List.mem_append_right _ bound)
  exact inlined?_eq_some_iff.mpr
    ⟨rfl, rfl, function, actuals, body, targets, rfl, parts, distinctParams, full, refers, renamed⟩

theorem Apart.exists_inlined (apart : Apart (args ++ named.map Prod.snd)) (inlinable : Inlinable op args named) :
    ∃ params body, inlined? op args named = some (params, body) := by
  obtain ⟨rfl, rfl, function, actuals, params, body, targets, rfl, parts, full, refers⟩ := inlinable_iff.mp inlinable
  rw [List.map_nil, List.append_nil] at apart
  exact ⟨params, _, apart.inlined parts full refers⟩

/-- What becomes of a call whose parts keep apart. -/
private theorem Apart.makeCall_cases (op : Operator) (apart : Apart (args ++ named.map Prod.snd)) :
    (¬ Inlinable op args named ∧ makeCall op args named = .call op args named) ∨
    ∃ function actuals params body targets, op = .funcall ∧ named = [] ∧ args = function :: actuals ∧
      function.stripNotes = func params body ∧ params.length = actuals.length ∧
      List.Forall₂ (fun t w => t.stripNotes = Term.var w) actuals targets ∧
      makeCall op args named = body.mapVars (actual params targets) := by
  by_cases inlinable : Inlinable op args named
  · obtain ⟨rfl, rfl, function, actuals, params, body, targets, rfl, parts, full, refers⟩ :=
      inlinable_iff.mp inlinable
    rw [List.map_nil, List.append_nil] at apart
    refine .inr ⟨function, actuals, params, body, targets, rfl, rfl, rfl, parts, full, refers, ?_⟩
    simp only [makeCall, apart.inlined parts full refers]
  · have kept : inlined? op args named = none := by
      cases found : inlined? op args named with
      | none => rfl
      | some result => exact absurd (inlinable_of_inlined found) inlinable
    refine .inl ⟨inlinable, ?_⟩
    simp only [makeCall, kept]

theorem Apart.settled_makeCall (apart : Apart (args ++ named.map Prod.snd))
    (each : ∀ t ∈ args ++ named.map Prod.snd, Settled t) : Settled (makeCall op args named) := by
  rcases apart.makeCall_cases op with ⟨notInlinable, made⟩ |
    ⟨function, actuals, params, body, targets, rfl, rfl, rfl, parts, _, _, made⟩
  · rw [made]
    exact Settled.call_iff.mpr ⟨notInlinable, each⟩
  · have settled : Settled (func params body) := parts ▸ (each function (by simp)).stripNotes
    rw [made]
    exact (Settled.func_iff.mp settled).mapVars _

/-- The targets can be mapped before or after they take the place of the parameters. -/
private theorem actual_map {params targets : List VarId} {v : VarId} (separate : ∀ p ∈ params, f v = f p → v = p) :
    actual (params.map f) (targets.map f) (f v) = f (actual params targets v) := by
  induction params generalizing targets with
  | nil => rfl
  | cons p params ih =>
    cases targets with
    | nil => rfl
    | cons w targets =>
      have later : actual (params.map f) (targets.map f) (f v) = f (actual params targets v) :=
        ih fun q member => separate q (List.mem_cons_of_mem _ member)
      simp only [actual, List.map_cons, List.zip_cons_cons, List.lookup_cons] at later ⊢
      by_cases same : v = p
      · simp [same]
      · have moved : f v ≠ f p := fun equal => same (separate p List.mem_cons_self equal)
        rw [beq_eq_false_iff_ne.mpr same, beq_eq_false_iff_ne.mpr moved]
        exact later

/-- Inlining goes along with a map that keeps the bound variables apart. -/
theorem Apart.mapVars_makeCall (apart : Apart (args ++ named.map Prod.snd))
    (separates : Separates f (args ++ named.map Prod.snd)) (notVar : op ≠ .var) (notFunc : op ≠ .func) :
    makeCall op (args.map (Term.mapVars f)) (Fields.mapValues (Term.mapVars f) named) =
      (makeCall op args named).mapVars f := by
  have values : (Fields.mapValues (Term.mapVars f) named).map Prod.snd = (named.map Prod.snd).map (Term.mapVars f) := by
    simp [Fields.mapValues, Function.comp_def]
  have apart' : Apart (args.map (Term.mapVars f) ++ (Fields.mapValues (Term.mapVars f) named).map Prod.snd) := by
    rw [values, ← List.map_append]
    exact apart.mapVars separates
  rcases apart.makeCall_cases op with ⟨notInlinable, made⟩ |
    ⟨function, actuals, params, body, targets, rfl, rfl, rfl, parts, full, refers, made⟩
  · rcases apart'.makeCall_cases op with ⟨_, made'⟩ | ⟨_, _, _, _, _, called, unnamed, same, parts, full, refers, _⟩
    · rw [made, made', mapVars_plain (role_of_ne notVar notFunc)]
    · have inlinable := inlinable_iff.mpr ⟨called, unnamed, _, _, _, _, _, same, parts, full, refers⟩
      exact absurd (inlinable_of_mapVars inlinable) notInlinable
  · have parts' : (function.mapVars f).stripNotes = func (params.map f) (body.mapVars f) := by
      rw [stripNotes_mapVars, parts, mapVars_func]
    have refers' :
        List.Forall₂ (fun t w => t.stripNotes = Term.var w) (actuals.map (Term.mapVars f)) (targets.map f) := by
      rw [List.forall₂_map_left_iff, List.forall₂_map_right_iff]
      exact refers.imp fun t w bare => by rw [stripNotes_mapVars, bare, mapVars_var]
    rw [List.map_nil, List.append_nil] at separates
    rw [values, List.map_nil, List.map_nil, List.append_nil, List.map_cons] at apart'
    have inlined' := apart'.inlined parts' (by simpa using full) refers'
    have made' : makeCall .funcall ((function :: actuals).map (Term.mapVars f)) (Fields.mapValues (Term.mapVars f) []) =
        (body.mapVars f).mapVars (actual (params.map f) (targets.map f)) := by
      simp only [makeCall, List.map_cons, Fields.mapValues, List.map_nil, inlined']
    rw [made, made', mapVars_mapVars, mapVars_mapVars]
    apply mapVars_congr
    intro v known
    apply actual_map
    intro p param same
    have own : function.binders = params ++ body.binders := by
      rw [← binders_stripNotes, parts, binders_func]
    have among (u : VarId) (inside : u ∈ params ++ body.binders) : u ∈ (function :: actuals).flatMap binders := by
      rw [List.flatMap_cons, own]
      exact List.mem_append_left _ inside
    apply separates p (among p (List.mem_append_left _ param)) v _ same
    rcases known with bound | free
    · exact .inl (among v (List.mem_append_right _ bound))
    · by_cases isParam : v ∈ params
      · exact .inl (among v (List.mem_append_left _ isParam))
      · refine .inr ⟨function, List.mem_cons_self, ?_⟩
        rw [← occursFree_stripNotes, parts]
        exact occursFree_func.mpr ⟨isParam, free⟩

end Term

end QueryTerms
