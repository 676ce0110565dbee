import QueryTerms.Proofs.Binders
import QueryTerms.Expr.Basic
import Mathlib.Data.List.Flatten
import Mathlib.Data.List.Perm.Subperm
import Mathlib.Logic.Function.Iterate

/-! The variables that a build draws. What was built keeps to the variables drawn for it, and there is one rule
for each way to put builds together: a build extends what is held when it starts, so that terms built one
after the other never share a bound variable. -/

namespace QueryTerms
open Term

/-- The functions in the terms bind distinct variables, numbered above `low` and up to `high`, and every variable
free in the terms is allowed. -/
structure Clean (allowed : VarId → Prop) (low high : Nat) (ts : List Term) : Prop where
  distinct : (ts.flatMap binders).Nodup
  drawn : ∀ v ∈ ts.flatMap binders, low < v.toNat ∧ v.toNat ≤ high
  free : ∀ t ∈ ts, ∀ v, occursFree v t = true → allowed v

namespace Clean

variable {allowed : VarId → Prop} {low mid high : Nat} {ts us : List Term}

theorem nil : Clean allowed low high [] :=
  ⟨by simp, by simp, by simp⟩

theorem bare {t : Term} (bare : t.binders = []) (free : ∀ v, occursFree v t = true → allowed v) :
    Clean allowed low high [t] :=
  ⟨by simp [bare], by simp [bare], by simpa using free⟩

theorem ground {t : Term} (ground : Ground t) : Clean allowed low high [t] :=
  .bare ground.bare (by simp [ground.closed])

theorem var {v : VarId} (inside : allowed v) : Clean allowed low high [Term.var v] := by
  refine .bare (binders_var v) fun w free => ?_
  rw [← occursFree_var.mp free]
  exact inside

theorem append (first : Clean allowed low mid ts) (second : Clean allowed mid high us) (lower : low ≤ mid)
    (upper : mid ≤ high) : Clean allowed low high (ts ++ us) := by
  refine ⟨?_, ?_, ?_⟩
  · rw [List.flatMap_append, List.nodup_append]
    refine ⟨first.distinct, second.distinct, fun v here w there same => ?_⟩
    have before := first.drawn v here
    have after := second.drawn w there
    rw [same] at before
    omega
  · intro v member
    rw [List.flatMap_append, List.mem_append] at member
    rcases member with here | there
    · have before := first.drawn v here
      omega
    · have after := second.drawn v there
      omega
  · intro t member
    rcases List.mem_append.mp member with here | there
    · exact first.free t here
    · exact second.free t there

/-- Terms that bind no more than others do and in which no more is free. -/
private theorem of_subperm (clean : Clean allowed low high ts)
    (fewer : (us.flatMap binders).Subperm (ts.flatMap binders))
    (within : ∀ u ∈ us, ∀ v, occursFree v u = true → ∃ t ∈ ts, occursFree v t = true) :
    Clean allowed low high us := by
  refine ⟨?_, fun v member => clean.drawn v (fewer.subset member), ?_⟩
  · obtain ⟨ids, perm, sub⟩ := fewer
    exact perm.nodup_iff.mp (sub.nodup clean.distinct)
  · intro u member v free
    obtain ⟨t, member, free⟩ := within u member v free
    exact clean.free t member v free

private theorem subperm (clean : Clean allowed low high ts) (fewer : us.Subperm ts) : Clean allowed low high us := by
  apply clean.of_subperm
  · obtain ⟨vs, perm, sub⟩ := fewer
    exact ((perm.flatMap_right binders).symm.subperm).trans (sub.flatMap binders).subperm
  · intro u member v free
    exact ⟨u, fewer.subset member, free⟩

theorem mono {allowed' : VarId → Prop} (clean : Clean allowed low high ts) (wider : ∀ v, allowed v → allowed' v) :
    Clean allowed' low high ts :=
  ⟨clean.distinct, clean.drawn, fun t member v free => wider v (clean.free t member v free)⟩

theorem annotated {t : Term} (clean : Clean allowed low high [t]) (note : String) :
    Clean allowed low high [.annotated note t] := by
  apply clean.of_subperm
  · rw [List.flatMap_singleton, List.flatMap_singleton, binders_annotated]
  · simp

theorem makeCall {op : Operator} {args : List Term} {named : List (String × Term)} (notVar : op ≠ .var)
    (notFunc : op ≠ .func) (clean : Clean allowed low high (args ++ named.map Prod.snd)) :
    Clean allowed low high [Term.makeCall op args named] := by
  apply clean.of_subperm
  · rw [List.flatMap_singleton]
    exact (binders_makeCall notVar notFunc).subperm
  · intro t member v free
    rw [List.mem_singleton.mp member] at free
    exact occursFree_of_makeCall notVar notFunc free

/-- A function binds variables below those of its body and is closed by them. -/
theorem func {params : List VarId} {body : Term} (distinct : params.Nodup)
    (drawn : ∀ v ∈ params, low < v.toNat ∧ v.toNat ≤ mid) (lower : low ≤ mid) (upper : mid ≤ high)
    (clean : Clean (fun v => v ∈ params ∨ allowed v) mid high [body]) :
    Clean allowed low high [Term.func params body] := by
  have inBody (v : VarId) (member : v ∈ body.binders) := clean.drawn v (by simpa using member)
  refine ⟨?_, ?_, ?_⟩
  · rw [List.flatMap_singleton, binders_func, List.nodup_append]
    refine ⟨distinct, by simpa using clean.distinct, fun v here w there same => ?_⟩
    have before := drawn v here
    have after := inBody w there
    rw [same] at before
    omega
  · intro v member
    rw [List.flatMap_singleton, binders_func, List.mem_append] at member
    rcases member with here | there
    · have before := drawn v here
      omega
    · have after := inBody v there
      omega
  · intro t member v free
    rw [List.mem_singleton.mp member] at free
    obtain ⟨outside, free⟩ := occursFree_func.mp free
    exact (clean.free body List.mem_cons_self v free).resolve_left outside

end Clean

/-- Started with the terms that are held, the build draws `k` variables and leaves the terms that are read off its
result. It may count on the allowed variables being in use and on enough numbers being left. -/
def Build.Draws (allowed : VarId → Prop) (k : Nat) (held : List Term) (terms : α → List Term) (x : Build α) : Prop :=
  ∀ (context : Context) (low : Nat), (∀ v, allowed v → v.toNat ≤ context.allocated.toNat) →
    low ≤ context.allocated.toNat → context.allocated.toNat + k < UInt64.size →
    Clean allowed low context.allocated.toNat held →
    (x context).context.allocated.toNat = context.allocated.toNat + k ∧
      Clean allowed low (context.allocated.toNat + k) (terms (x context).result)

/-- A handle that draws `k` variables at each use. -/
abbrev Handle.Draws (allowed : VarId → Prop) (k : Nat) (h : Handle) : Prop :=
  Build.Draws allowed k [] (fun t => [t]) h

namespace Build.Draws

variable {allowed : VarId → Prop} {k n : Nat} {held : List Term} {terms : α → List Term}

theorem pure {a : α} (clean : ∀ low high, Clean allowed low high held → Clean allowed low high (terms a)) :
    Draws allowed 0 held terms (Pure.pure a : Build α) :=
  fun _ low _ _ _ before => ⟨rfl, clean low _ before⟩

theorem bind {x : Build α} {f : α → Build β} {later : β → List Term} (first : Draws allowed k held terms x)
    (next : ∀ a, Draws allowed n (terms a) later (f a)) : Draws allowed (k + n) held later (x >>= f) := by
  intro context low used lower room before
  obtain ⟨moved, between⟩ := first context low used lower (by omega) before
  rw [← moved] at between
  obtain ⟨movedAgain, after⟩ := next (x context).result (x context).context low
    (fun v inside => by have bound := used v inside; omega) (by omega) (by omega) between
  rw [moved, Nat.add_assoc] at movedAgain after
  exact ⟨movedAgain, after⟩

/-- What is held besides stays as it is. -/
theorem frame {x : Build α} (draws : Draws allowed k [] terms x) (held : List Term) :
    Draws allowed k held (fun a => held ++ terms a) x := by
  intro context low used lower room before
  obtain ⟨moved, after⟩ := draws context context.allocated.toNat used (Nat.le_refl _) room .nil
  exact ⟨moved, before.append after lower (by omega)⟩

private theorem weaken {x : Build α} {held' : List Term} (draws : Draws allowed k held terms x)
    (clean : ∀ low high, Clean allowed low high held' → Clean allowed low high held) :
    Draws allowed k held' terms x :=
  fun context low used lower room before => draws context low used lower room (clean low _ before)

theorem mono {x : Build α} {allowed' : VarId → Prop} (draws : Draws allowed k [] terms x)
    (wider : ∀ v, allowed v → allowed' v) : Draws allowed' k [] terms x := by
  intro context low used lower room _
  obtain ⟨moved, after⟩ := draws context low (fun v inside => used v (wider v inside)) lower room .nil
  exact ⟨moved, after.mono wider⟩

end Build.Draws

variable {allowed : VarId → Prop} {k n : Nat}

theorem Handle.constant_draws {t : Term} (clean : ∀ low high, Clean allowed low high [t]) :
    Handle.Draws allowed 0 (.constant t) :=
  Build.Draws.pure fun low high _ => clean low high

theorem Handle.refused_draws (fault : Fault) : Handle.Draws allowed 0 (.refused fault) := by
  have silent : Build.Draws allowed 0 [] (fun _ => []) (Build.report (.refused fault)) :=
    fun _ _ _ _ _ _ => ⟨rfl, .nil⟩
  exact silent.bind fun _ => Handle.constant_draws fun _ _ => .ground (.literal .null)

theorem Handle.note_draws {h : Handle} (draws : h.Draws allowed k) (label : String) :
    Handle.Draws allowed k (h.note label) :=
  Build.Draws.bind draws fun _ => Build.Draws.pure fun _ _ clean => clean.annotated label

theorem Handle.assemble_eq (op : Operator) (args : List Term) (named : Fields Term) (context : Context) :
    Handle.assemble op args named context =
      ⟨Term.makeCall op args named, context,
        (((Term.inlined? op args named).map Prod.fst).map Notice.inlined).toList⟩ := by
  cases found : Term.inlined? op args named with
  | none => simp only [Handle.assemble, Term.makeCall, found]; rfl
  | some inlined => simp only [Handle.assemble, Term.makeCall, found]; rfl

theorem Handle.assemble_run (op : Operator) (args : List Term) (named : Fields Term) (context : Context) :
    (Handle.assemble op args named context).context = context ∧
      (Handle.assemble op args named context).result = Term.makeCall op args named := by
  rw [Handle.assemble_eq]
  exact ⟨rfl, rfl⟩

theorem Build.sequence_cons (x : Build α) (rest : List (Build α)) (context : Context) :
    let first := x.run context
    let others := (sequence rest).run first.context
    (sequence (x :: rest)).run context =
      ⟨first.result :: others.result, others.context, first.notices ++ others.notices⟩ := by
  intro first others
  have ran : (sequence (x :: rest)).run context =
      ⟨first.result :: others.result, others.context, first.notices ++ (others.notices ++ [])⟩ := rfl
  rw [ran, List.append_nil]

/-- A call of anything but a function is kept: its arguments are built first and then its options. -/
theorem Handle.call_of_ne {op : Operator} (notCall : op ≠ .funcall) (args : List Handle) (options : OptionList Handle)
    (context : Context) :
    let parts := (Build.sequence args).run context
    let named := options.build.run parts.context
    (Handle.call op args options).run context =
      ⟨.call op parts.result named.result, named.context, parts.notices ++ named.notices⟩ := by
  intro parts named
  have kept : Term.inlined? op parts.result named.result = none := if_neg fun called => notCall called.1
  have assembled : Handle.assemble op parts.result named.result named.context =
      ⟨.call op parts.result named.result, named.context, []⟩ := by
    rw [Handle.assemble_eq, Term.makeCall, kept]
    rfl
  have ran : (Handle.call op args options).run context =
      let last := Handle.assemble op parts.result named.result named.context
      (⟨last.result, last.context, parts.notices ++ (named.notices ++ last.notices)⟩ : Built Term) := rfl
  simp only [ran, assembled, List.append_nil]

private theorem Handle.assemble_draws {op : Operator} (notVar : op ≠ .var) (notFunc : op ≠ .func) (args : List Term)
    (named : Fields Term) :
    Build.Draws allowed 0 (args ++ named.map Prod.snd) (fun t => [t]) (Handle.assemble op args named) := by
  intro context low _ _ _ before
  obtain ⟨unmoved, made⟩ := Handle.assemble_run op args named context
  rw [unmoved, made]
  exact ⟨rfl, before.makeCall notVar notFunc⟩

theorem Build.allocate_drawn (context : Context) (room : context.allocated.toNat + 1 < UInt64.size) :
    (allocate context).result.toNat = context.allocated.toNat + 1 ∧
    (allocate context).context.allocated.toNat = context.allocated.toNat + 1 := by
  have next : (context.allocated + 1).toNat = context.allocated.toNat + 1 := by
    rw [UInt64.toNat_add]
    exact Nat.mod_eq_of_lt room
  exact ⟨next, next⟩

/-- Variables drawn together are distinct and numbered from the counter on. -/
theorem Build.allocateMany_drawn (n : Nat) (context : Context) (room : context.allocated.toNat + n < UInt64.size) :
    (allocateMany n context).result.length = n ∧
    (allocateMany n context).context.allocated.toNat = context.allocated.toNat + n ∧
    (allocateMany n context).result.Nodup ∧
    ∀ v ∈ (allocateMany n context).result,
      context.allocated.toNat < v.toNat ∧ v.toNat ≤ context.allocated.toNat + n := by
  induction n generalizing context with
  | zero => exact ⟨rfl, rfl, .nil, fun v member => by cases member⟩
  | succ n ih =>
    obtain ⟨next, movedOnce⟩ := allocate_drawn context (by omega)
    obtain ⟨full, moved, distinct, drawn⟩ := ih (allocate context).context (by omega)
    refine ⟨congrArg Nat.succ full, ?_, ?_, ?_⟩
    · have total : (allocateMany (n + 1) context).context = (allocateMany n (allocate context).context).context := rfl
      rw [total]
      omega
    · refine List.nodup_cons.mpr ⟨fun repeated => ?_, distinct⟩
      have above := drawn _ repeated
      omega
    · intro v member
      rcases List.mem_cons.mp member with same | later
      · rw [same]
        omega
      · have above := drawn v later
        omega

theorem Handle.func_draws {arity : Nat} {body : List VarId → Handle}
    (inner : ∀ ids, ids.length = arity → Handle.Draws (fun v => v ∈ ids ∨ allowed v) k (body ids)) :
    Handle.Draws allowed (arity + k) (.func arity body) := by
  intro context low used lower room _
  obtain ⟨full, moved, distinct, drawn⟩ := Build.allocateMany_drawn arity context (by omega)
  have usedInside : ∀ v, v ∈ (Build.allocateMany arity context).result ∨ allowed v →
      v.toNat ≤ (Build.allocateMany arity context).context.allocated.toNat := by
    intro v known
    rcases known with parameter | inside
    · have bound := drawn v parameter
      omega
    · have bound := used v inside
      omega
  obtain ⟨movedAgain, clean⟩ := inner _ full (Build.allocateMany arity context).context
    (Build.allocateMany arity context).context.allocated.toNat usedInside (Nat.le_refl _) (by omega) .nil
  rw [moved, Nat.add_assoc] at movedAgain clean
  refine ⟨movedAgain, Clean.func distinct ?_ (by omega) (by omega) clean⟩
  intro v member
  have bound := drawn v member
  omega

/-- Handles that draw so many variables in all when each is used once. -/
inductive AllDraw (allowed : VarId → Prop) : Nat → List Handle → Prop where
  | nil : AllDraw allowed 0 []
  | cons {k n : Nat} {h : Handle} {hs : List Handle} :
    h.Draws allowed k → AllDraw allowed n hs → AllDraw allowed (k + n) (h :: hs)

theorem Build.sequence_draws {hs : List Handle} (all : AllDraw allowed k hs) :
    Build.Draws allowed k [] id (sequence hs) := by
  induction all with
  | nil => exact Draws.pure fun _ _ clean => clean
  | cons first _ ih => exact first.bind fun t => (ih.frame [t]).bind fun ts => Draws.pure fun _ _ clean => clean

private theorem Fields.values_insert (key : String) (a : α) (fields : Fields α) :
    ((insert key a fields).map Prod.snd).Subperm (fields.map Prod.snd ++ [a]) := by
  induction fields with
  | nil => exact .refl _
  | cons field rest ih =>
    obtain ⟨k, b⟩ := field
    simp only [insert, List.map_cons, List.cons_append]
    split
    · exact ((List.perm_append_singleton a (b :: rest.map Prod.snd)).symm).subperm
    · split
      · have moved := (List.perm_append_singleton a (rest.map Prod.snd)).symm.subperm
        exact moved.trans (List.sublist_cons_self b _).subperm
      · exact (List.subperm_cons b).mpr ih

/-- A value that is replaced leaves the others. -/
private theorem Build.fieldsFrom_draws {entries : List (String × Handle)}
    (all : AllDraw allowed k (entries.map Prod.snd)) (fields : Fields Term) :
    Build.Draws allowed k (fields.map Prod.snd) (fun fields => fields.map Prod.snd) (fieldsFrom fields entries) := by
  induction entries generalizing k fields with
  | nil =>
    cases all
    exact Draws.pure fun _ _ clean => clean
  | cons entry rest ih =>
    cases all with
    | cons first others =>
      refine (first.frame (fields.map Prod.snd)).bind fun t => (ih others _).weaken fun _ _ clean => ?_
      exact clean.subperm (Fields.values_insert entry.1 t fields)

theorem Build.fields_draws {entries : List (String × Handle)} (all : AllDraw allowed k (entries.map Prod.snd)) :
    Build.Draws allowed k [] (fun fields => fields.map Prod.snd) (fields entries) :=
  fieldsFrom_draws all []

theorem Handle.call_draws {op : Operator} (notVar : op ≠ .var) (notFunc : op ≠ .func) {args : List Handle}
    {options : OptionList Handle} (argsDraw : AllDraw allowed k args)
    (optionsDraw : AllDraw allowed n (options.entries.map Prod.snd)) :
    Handle.Draws allowed (k + n) (.call op args options) :=
  (Build.sequence_draws argsDraw).bind fun ts => ((Build.fields_draws optionsDraw).frame ts).bind fun fields =>
    Handle.assemble_draws notVar notFunc ts fields

theorem Handle.record_draws {entries : List (String × Handle)} (all : AllDraw allowed k (entries.map Prod.snd)) :
    Handle.Draws allowed k (do return .call .makeObj [] (← Build.fields entries)) := by
  refine (Build.fields_draws all).bind fun fields => Build.Draws.pure fun low high clean => ?_
  have record : Clean allowed low high [Term.makeCall .makeObj [] fields] :=
    Clean.makeCall (by decide) (by decide) clean
  exact record

theorem Handle.mapping_draws {kind : MapKind} {entries : List (String × Handle)}
    (all : AllDraw allowed k ((kind.visit entries).map Prod.snd)) : Handle.Draws allowed k (.mapping kind entries) :=
  Handle.record_draws all

theorem Handle.object_draws {attributes : List (Attribute Handle)}
    (pairs : AllDraw allowed k (Attribute.pairs attributes))
    (fields : ∀ fields, Attribute.fields? attributes = some fields → AllDraw allowed k (fields.map Prod.snd)) :
    Handle.Draws allowed k (.object attributes) := by
  unfold Handle.object
  split
  next found => exact Handle.record_draws (fields _ found)
  next =>
    refine (Build.sequence_draws pairs).bind fun ts => Build.Draws.pure fun low high clean => ?_
    have object : Clean allowed low high [Term.makeCall .object ts []] :=
      Clean.makeCall (by decide) (by decide) (by simpa using clean)
    exact object

theorem Handle.table_data (database : Option String) (name : String) (context : Context) :
    (Handle.table database name context).result.Data := by
  have inner : Data (Term.database (database.getD context.database)) :=
    .call (by decide) (by decide) (by decide) (by simp [Data.literal])
  refine .call (by decide) (by decide) (by decide) fun t member => ?_
  rcases List.mem_append.mp member with part | flag
  · rcases List.mem_cons.mp part with rfl | rest
    · exact inner
    · rw [List.mem_singleton.mp rest]
      exact .literal _
  · cases set : context.useOutdated with
    | none => simp [Build.context, set] at flag
    | some on =>
      simp only [Build.context, set, List.map_cons, List.map_nil, List.mem_singleton] at flag
      exact flag ▸ .literal _

theorem Handle.table_draws (database : Option String) (name : String) :
    Handle.Draws allowed 0 (.table database name) :=
  fun context _ _ _ _ _ => ⟨rfl, .ground (Handle.table_data database name context).ground⟩

theorem Handle.iterate_draws {step : Handle → Handle} {count : Nat → Nat} {start : Handle}
    (one : ∀ k h, Handle.Draws allowed k h → Handle.Draws allowed (count k) (step h))
    (first : start.Draws allowed k) (times : Nat) :
    Handle.Draws allowed (Nat.iterate count times k) (Handle.iterate step times start) := by
  induction times with
  | zero => exact first
  | succ times ih =>
    rw [Function.iterate_succ_apply']
    exact one _ _ ih

end QueryTerms
