import QueryTerms.Proofs.FreshVariables
import QueryTerms.Proofs.SortedEntries
import QueryTerms.Expr.Operators

/-! Hygiene of whole builds. An expression without raw references builds a term whose functions bind distinct
variables, all drawn in that build, and in which only the variables of the handles from outside are free.
Shared handles are built anew at each use and calls are inlined on the way; neither disturbs this. -/

namespace QueryTerms

open Term in
mutual
theorem Datum.lift_data : (d : Datum) → Data d.lift
  | .null => .literal _
  | .bool _ => .literal _
  | .number _ => .literal _
  | .string _ => .literal _
  | .array items => .call (by decide) (by decide) (by decide) (by simpa using Datum.liftItems_data items)
  | .object fields => .call (by decide) (by decide) (by decide) (by simpa using Datum.liftFields_data fields)

private theorem Datum.liftItems_data : (items : List Datum) → ∀ t ∈ Datum.liftItems items, Data t
  | [] => fun _ member => by cases member
  | d :: rest => List.forall_mem_cons.mpr ⟨Datum.lift_data d, Datum.liftItems_data rest⟩

private theorem Datum.liftFields_data : (fields : List (String × Datum)) →
    ∀ t ∈ (Datum.liftFields fields).map Prod.snd, Data t
  | [] => fun _ member => by cases member
  | (_, d) :: rest => List.forall_mem_cons.mpr ⟨Datum.lift_data d, Datum.liftFields_data rest⟩
end

namespace HostValue
open Term

private theorem epochTerm_data (t : Instant) : Data (epochTerm t) :=
  .call (by decide) (by decide) (by decide) (by simp [Data.literal])

private theorem clockTerm_data (t : CivilTime) (offset : Int) : Data (clockTerm t offset) :=
  .call (by decide) (by decide) (by decide) (by simp [Data.literal])

private theorem dateTerm_data (day : CivilDate) : Data (dateTerm day) :=
  .call (by decide) (by decide) (by decide) (by simp [Data.literal])

private theorem instantTerm_data (t : Instant) (offset : Int) : Data (instantTerm t offset) := by
  unfold instantTerm
  split
  · exact clockTerm_data _ _
  · exact epochTerm_data _

private theorem eq_of_guarded {c : Prop} [Decidable c] {a t : Term} {fault : Fault}
    (made : (if c then .ok a else .error fault : Except Fault Term) = .ok t) : a = t := by
  split at made
  · exact Except.ok.inj made
  · cases made

theorem toTerm_data {v : HostValue} {t : Term} (made : v.toTerm = .ok t) : Data t := by
  cases v with
  | datum d =>
    obtain rfl := Except.ok.inj made
    exact d.lift_data
  | integer type n =>
    obtain rfl := eq_of_guarded made
    exact .literal _
  | double x =>
    obtain rfl := Except.ok.inj made
    exact .literal _
  | single x =>
    obtain rfl := Except.ok.inj made
    exact .literal _
  | char s =>
    cases chars : s.toList with
    | nil => simp [toTerm, chars] at made
    | cons c rest =>
      rw [toTerm, chars] at made
      obtain rfl := Except.ok.inj made
      exact .literal _
  | keyed type entries =>
    cases keyed : keyedDatum type entries with
    | error fault => simp [toTerm, keyed, Except.map] at made
    | ok d =>
      rw [toTerm, keyed] at made
      obtain rfl := Except.ok.inj made
      exact d.lift_data
  | utc t =>
    obtain rfl := eq_of_guarded made
    exact epochTerm_data _
  | instant t offset =>
    obtain rfl := eq_of_guarded made
    exact instantTerm_data _ _
  | clock t offset =>
    obtain rfl := eq_of_guarded made
    exact instantTerm_data _ _
  | date day =>
    obtain rfl := eq_of_guarded made
    exact dateTerm_data _

end HostValue

namespace Expr

mutual
/-- The expression holds no raw reference: every term in it is ground, and references and functions are not
called into being. -/
def Hygienic : Expr → Prop
  | .value _ | .handle _ | .table _ _ => True
  | .term t => t.Ground
  | .share bindings body => HygienicNamed bindings ∧ Hygienic body
  | .iterate _ _ step start => Hygienic step ∧ Hygienic start
  | .func _ body => Hygienic body
  | .note _ inner => Hygienic inner
  | .call op args options => op ≠ .var ∧ op ≠ .func ∧ HygienicArgs args ∧ HygienicNamed options
  | .object attributes => HygienicAttributes attributes
  | .mapping _ entries => HygienicNamed entries
  | .unsupported _ operand => Hygienic operand

def HygienicArgs : List Expr → Prop
  | [] => True
  | e :: rest => Hygienic e ∧ HygienicArgs rest

def HygienicNamed : List (String × Expr) → Prop
  | [] => True
  | (_, e) :: rest => Hygienic e ∧ HygienicNamed rest

def HygienicAttributes : List (Attribute Expr) → Prop
  | [] => True
  | .field _ e :: rest => Hygienic e ∧ HygienicAttributes rest
  | .computed key e :: rest => Hygienic key ∧ Hygienic e ∧ HygienicAttributes rest
  | .absent :: rest => HygienicAttributes rest
end

mutual
/-- The names of the handles that the expression takes from outside. -/
def freeNames : Expr → List String
  | .value _ | .term _ | .table _ _ => []
  | .handle name => [name]
  | .share bindings body => freeNamesNamed bindings ++ (freeNames body).filter (· ∉ bindings.map Prod.fst)
  | .iterate _ name step start => freeNames start ++ (freeNames step).filter (· ≠ name)
  | .func params body => (freeNames body).filter (· ∉ params)
  | .note _ inner => freeNames inner
  | .call _ args options => freeNamesArgs args ++ freeNamesNamed options
  | .object attributes => freeNamesAttributes attributes
  | .mapping _ entries => freeNamesNamed entries
  | .unsupported _ operand => freeNames operand

def freeNamesArgs : List Expr → List String
  | [] => []
  | e :: rest => freeNames e ++ freeNamesArgs rest

def freeNamesNamed : List (String × Expr) → List String
  | [] => []
  | (_, e) :: rest => freeNames e ++ freeNamesNamed rest

def freeNamesAttributes : List (Attribute Expr) → List String
  | [] => []
  | .field _ e :: rest => freeNames e ++ freeNamesAttributes rest
  | .computed key e :: rest => freeNames key ++ freeNames e ++ freeNamesAttributes rest
  | .absent :: rest => freeNamesAttributes rest
end

/-- The counts with those of several names set; of two equal names the later one counts. -/
def countAll (entries : List (String × Nat)) (counts : String → Nat) : String → Nat :=
  entries.foldl (fun counts (name, k) => Function.update counts name k) counts

/-- The sum of named numbers. -/
def total : List (String × Nat) → Nat
  | [] => 0
  | (_, k) :: rest => k + total rest

mutual
/-- How many variables a build of the expression draws, if a use of a name draws as many as counted for it. An
option or an entry of a map that is replaced is not built, an attribute is. -/
def allocations (counts : String → Nat) : Expr → Nat
  | .value _ | .term _ | .table _ _ | .unsupported _ _ => 0
  | .handle name => counts name
  | .share bindings body => allocations (countAll (allocationsNamed counts bindings) counts) body
  | .iterate count name step start =>
    Nat.iterate (fun k => allocations (Function.update counts name k) step) count (allocations counts start)
  | .func params body =>
    match fault? body with
    | none => params.length + allocations (countAll (params.map (·, 0)) counts) body
    | some _ => params.length
  | .note _ inner => allocations counts inner
  | .call _ args options =>
    allocationsArgs counts args + total (OptionList.ofEntries (allocationsNamed counts options)).entries
  | .object attributes => allocationsAttributes counts attributes
  | .mapping _ entries => total (Fields.ofEntries (allocationsNamed counts entries))

def allocationsArgs (counts : String → Nat) : List Expr → Nat
  | [] => 0
  | e :: rest => allocations counts e + allocationsArgs counts rest

def allocationsNamed (counts : String → Nat) : List (String × Expr) → List (String × Nat)
  | [] => []
  | (key, e) :: rest => (key, allocations counts e) :: allocationsNamed counts rest

def allocationsAttributes (counts : String → Nat) : List (Attribute Expr) → Nat
  | [] => 0
  | .field _ e :: rest => allocations counts e + allocationsAttributes counts rest
  | .computed key e :: rest => allocations counts key + (allocations counts e + allocationsAttributes counts rest)
  | .absent :: rest => allocationsAttributes counts rest
end

end Expr

/-- Named handles beside the numbers of variables that they draw. -/
abbrev EntriesDraw (allowed : VarId → Prop) : List (String × Nat) → List (String × Handle) → Prop :=
  List.Forall₂ fun counted entry => counted.1 = entry.1 ∧ entry.2.Draws allowed counted.2

section Entries

variable {allowed : VarId → Prop} {counted : List (String × Nat)} {entries : List (String × Handle)}

theorem EntriesDraw.all (related : EntriesDraw allowed counted entries) :
    AllDraw allowed (Expr.total counted) (entries.map Prod.snd) := by
  induction related with
  | nil => exact .nil
  | cons first _ ih => exact .cons first.2 ih

theorem EntriesDraw.fields (related : EntriesDraw allowed counted entries) :
    EntriesDraw allowed (Fields.ofEntries counted) (Fields.ofEntries entries) :=
  Fields.Related.ofEntries related

theorem EntriesDraw.options (related : EntriesDraw allowed counted entries) :
    EntriesDraw allowed (OptionList.ofEntries counted).entries (OptionList.ofEntries entries).entries :=
  OptionList.ofEntries_related related

private theorem Scope.bindAll_draws {name : String} {scope : Scope} {counts : String → Nat}
    (related : EntriesDraw allowed counted entries)
    (outer : name ∉ entries.map Prod.fst → (scope name).Draws allowed (counts name)) :
    Handle.Draws allowed (Expr.countAll counted counts name) (scope.bindAll entries name) := by
  induction related generalizing scope counts with
  | nil => exact outer (by simp)
  | @cons c entry counted entries first _ ih =>
    refine @ih (scope.bind entry.1 entry.2) (Function.update counts c.1 c.2) fun absent => ?_
    by_cases same : name = entry.1
    · simpa [Scope.bind, Function.update_apply, first.1, same] using first.2
    · simpa [Scope.bind, Function.update_apply, first.1, same] using outer (by simp [same, absent])

end Entries

namespace Expr

private theorem keys_denoteNamed (scope : Scope) (entries : List (String × Expr)) :
    (denoteNamed scope entries).map Prod.fst = entries.map Prod.fst := by
  induction entries with
  | nil => rfl
  | cons entry rest ih => exact congrArg (entry.1 :: ·) ih

private theorem params_draw {params : List String} {ids : List VarId} (full : ids.length = params.length)
    {allowed : VarId → Prop} (inside : ∀ v ∈ ids, allowed v) :
    EntriesDraw allowed (params.map (·, 0)) (params.zip (ids.map Handle.var)) := by
  induction params generalizing ids with
  | nil => exact .nil
  | cons name params ih =>
    cases ids with
    | nil => simp at full
    | cons v ids =>
      refine .cons ⟨rfl, Handle.constant_draws fun _ _ => .var (inside v List.mem_cons_self)⟩ ?_
      exact ih (by simpa using full) fun w member => inside w (List.mem_cons_of_mem _ member)

mutual
theorem denote_draws {allowed : VarId → Prop} {counts : String → Nat} {scope : Scope} :
    (e : Expr) → e.Hygienic → (∀ name ∈ e.freeNames, (scope name).Draws allowed (counts name)) →
      (e.denote scope).Draws allowed (e.allocations counts)
  | .value v, _, _ => by
    rw [denote, allocations]
    split
    next made => exact Handle.constant_draws fun _ _ => .ground ((HostValue.toTerm_data made).ground)
    next => exact Handle.constant_draws fun _ _ => .ground (.literal .null)
  | .term t, ground, _ => Handle.constant_draws fun _ _ => .ground ground
  | .handle name, _, outer => outer name (by simp [freeNames])
  | .share bindings body, hygienic, outer => by
    have bound : EntriesDraw allowed (allocationsNamed counts bindings) (denoteNamed scope bindings) :=
      denoteNamed_draws bindings hygienic.1 fun name free => outer name (List.mem_append_left _ free)
    refine denote_draws body hygienic.2 fun name free => Scope.bindAll_draws bound fun absent => ?_
    rw [keys_denoteNamed] at absent
    exact outer name (List.mem_append_right _ (List.mem_filter.mpr ⟨free, decide_eq_true absent⟩))
  | .iterate count name step start, hygienic, outer => by
    have first := denote_draws start hygienic.2 fun name free => outer name (List.mem_append_left _ free)
    refine Handle.iterate_draws (fun k h draws => denote_draws step hygienic.1 fun other free => ?_) first count
    by_cases same : other = name
    · simpa [Scope.bind, same] using draws
    · have left := outer other (List.mem_append_right _ (List.mem_filter.mpr ⟨free, decide_eq_true same⟩))
      simpa [Scope.bind, same] using left
  | .func params body, hygienic, outer => by
    rw [denote, allocations]
    cases body.fault? with
    | none =>
      refine Handle.func_draws fun ids full => denote_draws body hygienic fun name free => ?_
      refine Scope.bindAll_draws (params_draw full fun v member => .inl member) fun absent => ?_
      rw [List.map_fst_zip (by simp [full])] at absent
      exact (outer name (List.mem_filter.mpr ⟨free, decide_eq_true absent⟩)).mono fun v inside => .inr inside
    | some fault => exact Handle.func_draws fun ids _ => Handle.refused_draws fault
  | .note label inner, hygienic, outer => Handle.note_draws (denote_draws inner hygienic outer) label
  | .table database name, _, _ => Handle.table_draws database name
  | .call op args options, ⟨notVar, notFunc, inArgs, inOptions⟩, outer =>
    Handle.call_draws notVar notFunc
      (denoteArgs_draws args inArgs fun name free => outer name (List.mem_append_left _ free))
      (denoteNamed_draws options inOptions fun name free => outer name (List.mem_append_right _ free)).options.all
  | .object attributes, hygienic, outer =>
    have drawn := denoteAttributes_draws attributes hygienic outer
    Handle.object_draws drawn.1 drawn.2
  | .mapping kind entries, hygienic, outer => by
    apply Handle.mapping_draws
    rw [kind.visit_eq]
    exact (denoteNamed_draws entries hygienic outer).fields.all
  | .unsupported _ _, _, _ => Handle.constant_draws fun _ _ => .ground (.literal .null)

theorem denoteArgs_draws {allowed : VarId → Prop} {counts : String → Nat} {scope : Scope} :
    (args : List Expr) → HygienicArgs args → (∀ name ∈ freeNamesArgs args, (scope name).Draws allowed (counts name)) →
      AllDraw allowed (allocationsArgs counts args) (denoteArgs scope args)
  | [], _, _ => .nil
  | e :: rest, hygienic, outer => .cons
    (denote_draws e hygienic.1 fun name free => outer name (List.mem_append_left _ free))
    (denoteArgs_draws rest hygienic.2 fun name free => outer name (List.mem_append_right _ free))

theorem denoteNamed_draws {allowed : VarId → Prop} {counts : String → Nat} {scope : Scope} :
    (entries : List (String × Expr)) → HygienicNamed entries →
      (∀ name ∈ freeNamesNamed entries, (scope name).Draws allowed (counts name)) →
      EntriesDraw allowed (allocationsNamed counts entries) (denoteNamed scope entries)
  | [], _, _ => .nil
  | (_, e) :: rest, hygienic, outer => .cons
    ⟨rfl, denote_draws e hygienic.1 fun name free => outer name (List.mem_append_left _ free)⟩
    (denoteNamed_draws rest hygienic.2 fun name free => outer name (List.mem_append_right _ free))

private theorem denoteAttributes_draws {allowed : VarId → Prop} {counts : String → Nat} {scope : Scope} :
    (attributes : List (Attribute Expr)) → HygienicAttributes attributes →
      (∀ name ∈ freeNamesAttributes attributes, (scope name).Draws allowed (counts name)) →
      AllDraw allowed (allocationsAttributes counts attributes) (Attribute.pairs (denoteAttributes scope attributes)) ∧
      ∀ fields, Attribute.fields? (denoteAttributes scope attributes) = some fields →
        AllDraw allowed (allocationsAttributes counts attributes) (fields.map Prod.snd)
  | [], _, _ => ⟨.nil, fun _ found => Option.some.inj found ▸ .nil⟩
  | .field key e :: rest, hygienic, outer => by
    have first := denote_draws e hygienic.1 fun name free => outer name (List.mem_append_left _ free)
    obtain ⟨pairs, fields⟩ := denoteAttributes_draws rest hygienic.2 fun name free =>
      outer name (List.mem_append_right _ free)
    refine ⟨?_, fun all found => ?_⟩
    · have named : AllDraw allowed (0 + (allocations counts e + allocationsAttributes counts rest)) _ :=
        .cons (Handle.constant_draws fun _ _ => .ground (.literal (.string key))) (.cons first pairs)
      rwa [Nat.zero_add] at named
    · obtain ⟨others, foundRest, rfl⟩ := Option.map_eq_some_iff.mp found
      exact .cons first (fields others foundRest)
  | .computed key e :: rest, hygienic, outer => by
    have first := denote_draws key hygienic.1 fun name free =>
      outer name (List.mem_append_left _ (List.mem_append_left _ free))
    have second := denote_draws e hygienic.2.1 fun name free =>
      outer name (List.mem_append_left _ (List.mem_append_right _ free))
    obtain ⟨pairs, _⟩ := denoteAttributes_draws rest hygienic.2.2 fun name free =>
      outer name (List.mem_append_right _ free)
    exact ⟨.cons first (.cons second pairs), fun all found => by cases found⟩
  | .absent :: rest, hygienic, outer => denoteAttributes_draws rest hygienic outer
end

end Expr

namespace Proofs.BuildHygiene
open Term

/-- Built with handles from outside that stand for variables in use, an expression draws as many variables as are
counted for it. Its functions bind distinct ones among these, and only the variables from outside stay free. -/
theorem denote_hygienic {e : Expr} (hygienic : e.Hygienic) (scope : Scope) (ids : String → VarId)
    (outer : ∀ name ∈ e.freeNames, scope name = Handle.var (ids name)) (context : Context)
    (used : ∀ name ∈ e.freeNames, ids name ≤ context.allocated)
    (room : context.allocated.toNat + e.allocations (fun _ => 0) < UInt64.size) :
    let built := (e.denote scope).run context
    built.context.allocated.toNat = context.allocated.toNat + e.allocations (fun _ => 0) ∧
    context.allocated ≤ built.context.allocated ∧
    built.result.binders.Nodup ∧
    (∀ v ∈ built.result.binders, context.allocated < v ∧ v ≤ built.context.allocated) ∧
    ∀ v, occursFree v built.result = true → ∃ name ∈ e.freeNames, ids name = v := by
  intro built
  have draws : (e.denote scope).Draws (fun v => ∃ name ∈ e.freeNames, ids name = v) (e.allocations fun _ => 0) := by
    refine Expr.denote_draws e hygienic fun name free => ?_
    rw [outer name free]
    exact Handle.constant_draws fun _ _ => .var ⟨name, free, rfl⟩
  have inUse : ∀ v, (∃ name ∈ e.freeNames, ids name = v) → v.toNat ≤ context.allocated.toNat := by
    intro v ⟨name, free, same⟩
    exact same ▸ UInt64.le_iff_toNat_le.mp (used name free)
  obtain ⟨moved, clean⟩ : _ ∧ Clean _ _ _ [built.result] := draws context _ inUse (Nat.le_refl _) room .nil
  refine ⟨moved, UInt64.le_iff_toNat_le.mpr (moved ▸ Nat.le_add_right _ _), by simpa using clean.distinct, ?_, ?_⟩
  · intro v member
    obtain ⟨above, upTo⟩ := clean.drawn v (by simpa using member)
    exact ⟨UInt64.lt_iff_toNat_lt.mpr above, UInt64.le_iff_toNat_le.mpr (moved ▸ upTo)⟩
  · exact clean.free _ List.mem_cons_self

theorem denote_hygienic_shared :
    let f : Expr := .func ["x"] (.plain .map [.handle "x", .func ["z"] (.plain .sub [.handle "z", .handle "x"])])
    let e : Expr := .share [("f", f)] (.plain .makeArray [.apply (.handle "f") [.handle "y"], .handle "f"])
    let built := (e.denote fun _ => Handle.var 5).run { allocated := 7 }
    e.Hygienic ∧ e.freeNames = ["y"] ∧ e.allocations (fun _ => 0) = 4 ∧ built.result.binders = [9, 10, 11] ∧
      built.result.binders.Nodup ∧ (∀ v ∈ built.result.binders, 7 < v ∧ v ≤ built.context.allocated) ∧
      ∀ v, occursFree v built.result = true → ∃ name ∈ e.freeNames, 5 = v := by
  intro f e built
  have hygienic : e.Hygienic := by
    simp [e, f, Expr.plain, Expr.apply, Expr.Hygienic, Expr.HygienicArgs, Expr.HygienicNamed]
  have names : e.freeNames = ["y"] := by decide
  have drawn : e.allocations (fun _ => 0) = 4 := by decide
  obtain ⟨_, _, distinct, range, free⟩ := denote_hygienic hygienic (fun _ => Handle.var 5) (fun _ => 5)
    (fun _ _ => rfl) { allocated := 7 } (fun _ _ => by decide) (by rw [drawn]; decide)
  exact ⟨hygienic, names, drawn, by decide, distinct, range, free⟩

end Proofs.BuildHygiene

end QueryTerms
