import QueryTerms.Proofs.TwinBuilds

/-! Expressions that are built twice, with handles from outside that are twins. A relation that is carried on
by all ways to put terms together, and that holds of the raw terms of the expression, holds of the two results.
The maps of variables are such a relation, and so is that no call is left which could be inlined. -/

namespace QueryTerms
open Term

namespace Expr

mutual
/-- The terms that the expression takes as they are. -/
def rawTerms : Expr → List Term
  | .value _ | .handle _ | .table _ _ => []
  | .term t => [t]
  | .share bindings body => rawTermsNamed bindings ++ rawTerms body
  | .iterate _ _ step start => rawTerms start ++ rawTerms step
  | .func _ body => rawTerms body
  | .note _ inner => rawTerms inner
  | .call _ args options => rawTermsArgs args ++ rawTermsNamed options
  | .object attributes => rawTermsAttributes attributes
  | .mapping _ entries => rawTermsNamed entries
  | .unsupported _ operand => rawTerms operand

def rawTermsArgs : List Expr → List Term
  | [] => []
  | e :: rest => rawTerms e ++ rawTermsArgs rest

def rawTermsNamed : List (String × Expr) → List Term
  | [] => []
  | (_, e) :: rest => rawTerms e ++ rawTermsNamed rest

def rawTermsAttributes : List (Attribute Expr) → List Term
  | [] => []
  | .field _ e :: rest => rawTerms e ++ rawTermsAttributes rest
  | .computed key e :: rest => rawTerms key ++ rawTerms e ++ rawTermsAttributes rest
  | .absent :: rest => rawTermsAttributes rest
end

theorem denoteNamed_eq (scope : Scope) (entries : List (String × Expr)) :
    denoteNamed scope entries = Fields.mapValues (denote scope) entries := by
  induction entries with
  | nil => rfl
  | cons entry rest ih => rw [denoteNamed, ih]; rfl

theorem allocationsNamed_eq (counts : String → Nat) (entries : List (String × Expr)) :
    allocationsNamed counts entries = Fields.mapValues (allocations counts) entries := by
  induction entries with
  | nil => rfl
  | cons entry rest ih => rw [allocationsNamed, ih]; rfl

end Expr

variable {f : VarId → VarId} {R : Term → Term → Prop} {allowed : VarId → Prop}

section Entries

variable {count : α → Nat} {first second : α → Handle} {entries : List (String × α)}

private theorem EntriesTwins.of_forall
    (each : ∀ entry ∈ entries, Handle.Twins f R allowed (count entry.2) (first entry.2) (second entry.2)) :
    EntriesTwins f R allowed (Expr.total (Fields.mapValues count entries)) (Fields.mapValues first entries)
      (Fields.mapValues second entries) := by
  induction entries with
  | nil => exact .nil
  | cons entry rest ih =>
    obtain ⟨here, others⟩ := List.forall_mem_cons.mp each
    exact .cons ⟨rfl, here⟩ (ih others)

/-- The handles that a name stands for in two scopes are twins, if all that is bound and what was there are. -/
private theorem Scope.bindAll_twins {name : String} {scope scope' : Scope} {counts : String → Nat}
    (each : ∀ entry ∈ entries, Handle.Twins f R allowed (count entry.2) (first entry.2) (second entry.2))
    (outer : name ∉ entries.map Prod.fst → Handle.Twins f R allowed (counts name) (scope name) (scope' name)) :
    Handle.Twins f R allowed (Expr.countAll (Fields.mapValues count entries) counts name)
      (scope.bindAll (Fields.mapValues first entries) name)
      (scope'.bindAll (Fields.mapValues second entries) name) := by
  induction entries generalizing scope scope' counts with
  | nil => exact outer (by simp)
  | cons entry rest ih =>
    obtain ⟨here, others⟩ := List.forall_mem_cons.mp each
    refine @ih (scope.bind entry.1 (first entry.2)) (scope'.bind entry.1 (second entry.2))
      (Function.update counts entry.1 (count entry.2)) others fun absent => ?_
    by_cases same : name = entry.1
    · simpa [Scope.bind, Function.update_apply, same] using here
    · simpa [Scope.bind, Function.update_apply, same] using outer (by simp [same, absent])

end Entries

theorem Handle.var_twins (carried : Carried f R) {v w : VarId} (image : f v = w) (inside : allowed v) :
    Handle.Twins f R allowed 0 (.var v) (.var w) :=
  Handle.constant_twins (fun _ _ => .var inside) (image ▸ carried.reference v)

theorem Scope.bindParams_twins (carried : Carried f R) {params : List String} {ids ids' : List VarId}
    (full : ids.length = params.length) (images : ids.map f = ids') (inside : ∀ v ∈ ids, allowed v) {name : String}
    {scope scope' : Scope} {counts : String → Nat}
    (outer : name ∉ params → Handle.Twins f R allowed (counts name) (scope name) (scope' name)) :
    Handle.Twins f R allowed (Expr.countAll (params.map (·, 0)) counts name)
      (scope.bindAll (params.zip (ids.map Handle.var)) name)
      (scope'.bindAll (params.zip (ids'.map Handle.var)) name) := by
  have names : (params.zip ids).map Prod.fst = params := List.map_fst_zip (by omega)
  have zeros : params.map (·, 0) = Fields.mapValues (fun _ => 0) (params.zip ids) := by
    rw [← names, List.map_map, names]
    rfl
  rw [zeros, ← images, List.zip_map_right, List.map_map, List.zip_map_right]
  refine Scope.bindAll_twins (fun entry member => ?_) fun absent => ?_
  · exact Handle.var_twins carried rfl (inside _ (List.of_mem_zip member).2)
  · rw [names] at absent
    exact outer absent

namespace Expr

mutual
theorem denote_twins (carried : Carried f R) {allowed : VarId → Prop} {counts : String → Nat} {scope scope' : Scope} :
    (e : Expr) → e.Hygienic → (∀ t ∈ e.rawTerms, t.Ground → R t t) →
      (∀ name ∈ e.freeNames, Handle.Twins f R allowed (counts name) (scope name) (scope' name)) →
      Handle.Twins f R allowed (e.allocations counts) (e.denote scope) (e.denote scope')
  | .value v, _, _, _ => by
    rw [denote, denote, allocations]
    split
    next made =>
      have data := HostValue.toTerm_data made
      exact Handle.constant_twins (fun _ _ => .ground data.ground) (carried.data data)
    next => exact Handle.constant_twins (fun _ _ => .ground (.literal .null)) (carried.data (.literal .null))
  | .term t, ground, raw, _ => Handle.constant_twins (fun _ _ => .ground ground) (raw t (by simp [rawTerms]) ground)
  | .handle name, _, _, outer => outer name (by simp [freeNames])
  | .share bindings body, hygienic, raw, outer => by
    obtain ⟨rawBindings, rawBody⟩ := List.forall_mem_append.mp raw
    have bound := denoteNamed_twins carried bindings hygienic.1 rawBindings fun name free =>
      outer name (List.mem_append_left _ free)
    rw [denote, denote, allocations, denoteNamed_eq, denoteNamed_eq, allocationsNamed_eq]
    refine denote_twins carried body hygienic.2 rawBody fun name free => Scope.bindAll_twins bound fun absent => ?_
    exact outer name (List.mem_append_right _ (List.mem_filter.mpr ⟨free, decide_eq_true absent⟩))
  | .iterate count name step start, hygienic, raw, outer => by
    obtain ⟨rawStart, rawStep⟩ := List.forall_mem_append.mp raw
    have first := denote_twins carried start hygienic.2 rawStart fun name free =>
      outer name (List.mem_append_left _ free)
    refine Handle.iterate_twins (fun k h h' twins => ?_) first count
    refine denote_twins carried step hygienic.1 rawStep fun other free => ?_
    by_cases same : other = name
    · simpa [Scope.bind, same] using twins
    · have left := outer other (List.mem_append_right _ (List.mem_filter.mpr ⟨free, decide_eq_true same⟩))
      simpa [Scope.bind, same] using left
  | .func params body, hygienic, raw, outer => by
    refine ⟨denote_draws _ hygienic fun name free => (outer name free).draws, ?_⟩
    rw [denote, denote, allocations]
    cases body.fault? with
    | none =>
      refine Handle.func_paired carried fun ids full => ?_
      refine (denote_twins carried body hygienic raw fun name free => ?_).paired
      refine Scope.bindParams_twins carried full rfl (fun v member => .inl member) fun absent => ?_
      exact (outer name (List.mem_filter.mpr ⟨free, decide_eq_true absent⟩)).mono fun v inside => .inr inside
    | some fault => exact Handle.func_paired (k := 0) carried fun ids _ => Handle.refused_paired carried fault
  | .note label inner, hygienic, raw, outer => by
    have twins := denote_twins carried inner hygienic raw outer
    exact ⟨Handle.note_draws twins.draws label, Handle.note_paired carried twins.paired label⟩
  | .table database name, _, _, _ =>
    ⟨Handle.table_draws database name, Handle.table_paired carried database name⟩
  | .call op args options, hygienic, raw, outer => by
    refine ⟨denote_draws _ hygienic fun name free => (outer name free).draws, ?_⟩
    obtain ⟨notVar, notFunc, inArgs, inOptions⟩ := hygienic
    obtain ⟨rawArgs, rawOptions⟩ := List.forall_mem_append.mp raw
    have argsTwins := denoteArgs_twins carried args inArgs rawArgs fun name free =>
      outer name (List.mem_append_left _ free)
    have each := denoteNamed_twins carried options inOptions rawOptions fun name free =>
      outer name (List.mem_append_right _ free)
    rw [denote, denote, allocations, denoteNamed_eq, denoteNamed_eq, allocationsNamed_eq]
    refine Handle.call_paired carried notVar notFunc argsTwins ?_
    rw [← OptionList.mapValues_ofEntries, ← OptionList.mapValues_ofEntries, ← OptionList.mapValues_ofEntries]
    exact EntriesTwins.of_forall fun entry member => each entry (OptionList.mem_of_mem_ofEntries member)
  | .object attributes, hygienic, raw, outer => by
    refine ⟨denote_draws _ hygienic fun name free => (outer name free).draws, ?_⟩
    obtain ⟨pairs, fields⟩ := denoteAttributes_twins carried attributes hygienic raw outer
    exact Handle.object_paired carried pairs fields
  | .mapping kind entries, hygienic, raw, outer => by
    refine ⟨denote_draws _ hygienic fun name free => (outer name free).draws, ?_⟩
    have each := denoteNamed_twins carried entries hygienic raw outer
    rw [denote, denote, allocations, denoteNamed_eq, denoteNamed_eq, allocationsNamed_eq]
    refine Handle.record_paired carried ?_
    rw [kind.visit_eq, kind.visit_eq, ← Fields.mapValues_ofEntries, ← Fields.mapValues_ofEntries,
      ← Fields.mapValues_ofEntries]
    exact EntriesTwins.of_forall fun entry member => each entry (Fields.mem_of_mem_ofEntries member)
  | .unsupported _ _, _, _, _ =>
    Handle.constant_twins (fun _ _ => .ground (.literal .null)) (carried.data (.literal .null))

theorem denoteArgs_twins (carried : Carried f R) {allowed : VarId → Prop} {counts : String → Nat}
    {scope scope' : Scope} :
    (args : List Expr) → HygienicArgs args → (∀ t ∈ rawTermsArgs args, t.Ground → R t t) →
      (∀ name ∈ freeNamesArgs args, Handle.Twins f R allowed (counts name) (scope name) (scope' name)) →
      AllTwins f R allowed (allocationsArgs counts args) (denoteArgs scope args) (denoteArgs scope' args)
  | [], _, _, _ => .nil
  | e :: rest, hygienic, raw, outer => by
    obtain ⟨rawFirst, rawRest⟩ := List.forall_mem_append.mp raw
    exact .cons
      (denote_twins carried e hygienic.1 rawFirst fun name free => outer name (List.mem_append_left _ free))
      (denoteArgs_twins carried rest hygienic.2 rawRest fun name free => outer name (List.mem_append_right _ free))

theorem denoteNamed_twins (carried : Carried f R) {allowed : VarId → Prop} {counts : String → Nat}
    {scope scope' : Scope} :
    (entries : List (String × Expr)) → HygienicNamed entries → (∀ t ∈ rawTermsNamed entries, t.Ground → R t t) →
      (∀ name ∈ freeNamesNamed entries, Handle.Twins f R allowed (counts name) (scope name) (scope' name)) →
      ∀ entry ∈ entries,
        Handle.Twins f R allowed (entry.2.allocations counts) (entry.2.denote scope) (entry.2.denote scope')
  | [], _, _, _ => fun _ member => by cases member
  | (_, e) :: rest, hygienic, raw, outer => by
    obtain ⟨rawFirst, rawRest⟩ := List.forall_mem_append.mp raw
    refine List.forall_mem_cons.mpr ⟨?_, ?_⟩
    · exact denote_twins carried e hygienic.1 rawFirst fun name free => outer name (List.mem_append_left _ free)
    · exact denoteNamed_twins carried rest hygienic.2 rawRest fun name free =>
        outer name (List.mem_append_right _ free)

private theorem denoteAttributes_twins (carried : Carried f R) {allowed : VarId → Prop} {counts : String → Nat}
    {scope scope' : Scope} :
    (attributes : List (Attribute Expr)) → HygienicAttributes attributes →
      (∀ t ∈ rawTermsAttributes attributes, t.Ground → R t t) →
      (∀ name ∈ freeNamesAttributes attributes, Handle.Twins f R allowed (counts name) (scope name) (scope' name)) →
      AllTwins f R allowed (allocationsAttributes counts attributes)
        (Attribute.pairs (denoteAttributes scope attributes))
        (Attribute.pairs (denoteAttributes scope' attributes)) ∧
      Option.Rel (EntriesTwins f R allowed (allocationsAttributes counts attributes))
        (Attribute.fields? (denoteAttributes scope attributes)) (Attribute.fields? (denoteAttributes scope' attributes))
  | [], _, _, _ => ⟨.nil, .some .nil⟩
  | .field key e :: rest, hygienic, raw, outer => by
    obtain ⟨rawFirst, rawRest⟩ := List.forall_mem_append.mp raw
    have first := denote_twins carried e hygienic.1 rawFirst fun name free => outer name (List.mem_append_left _ free)
    obtain ⟨pairs, fields⟩ := denoteAttributes_twins carried rest hygienic.2 rawRest fun name free =>
      outer name (List.mem_append_right _ free)
    refine ⟨?_, ?_⟩
    · have literal : Data (.literal (.string key)) := .literal _
      have named : AllTwins f R allowed (0 + (allocations counts e + allocationsAttributes counts rest)) _ _ :=
        .cons (Handle.constant_twins (fun _ _ => .ground literal.ground) (carried.data literal)) (.cons first pairs)
      rwa [Nat.zero_add] at named
    · simp only [denoteAttributes, Attribute.fields?, allocationsAttributes]
      generalize Attribute.fields? (denoteAttributes scope rest) = found at fields ⊢
      generalize Attribute.fields? (denoteAttributes scope' rest) = found' at fields ⊢
      cases fields with
      | some others => exact .some (.cons ⟨rfl, first⟩ others)
      | none => exact .none
  | .computed key e :: rest, hygienic, raw, outer => by
    obtain ⟨rawFirst, rawRest⟩ := List.forall_mem_append.mp raw
    obtain ⟨rawKey, rawValue⟩ := List.forall_mem_append.mp rawFirst
    have first := denote_twins carried key hygienic.1 rawKey fun name free =>
      outer name (List.mem_append_left _ (List.mem_append_left _ free))
    have second := denote_twins carried e hygienic.2.1 rawValue fun name free =>
      outer name (List.mem_append_left _ (List.mem_append_right _ free))
    obtain ⟨pairs, _⟩ := denoteAttributes_twins carried rest hygienic.2.2 rawRest fun name free =>
      outer name (List.mem_append_right _ free)
    exact ⟨.cons first (.cons second pairs), .none⟩
  | .absent :: rest, hygienic, raw, outer => denoteAttributes_twins carried rest hygienic raw outer
end

end Expr

/-- The second term is the image of the first one. -/
abbrev Term.Mapped (f : VarId → VarId) (t t' : Term) : Prop := t.mapVars f = t'

theorem carried_mapped (f : VarId → VarId) : Carried f (Mapped f) where
  data data := data.ground.mapVars_eq f
  reference v := mapVars_var f v
  annotated note t t' same := by rw [← same, Mapped, mapVars_annotated]
  function params body body' same := by rw [← same, Mapped, mapVars_func]
  call op args args' named named' notVar notFunc apart separates sameArgs sameNamed := by
    have mappedArgs : args.map (mapVars f) = args' := by
      rw [← List.forall₂_eq_eq_eq]
      exact List.forall₂_map_left_iff.mpr sameArgs
    have mappedNamed : Fields.mapValues (mapVars f) named = named' := by
      rw [← List.forall₂_eq_eq_eq]
      exact List.forall₂_map_left_iff.mpr (sameNamed.imp fun _ _ same => Prod.ext same.1 same.2)
    rw [← mappedArgs, ← mappedNamed]
    exact (apart.mapVars_makeCall separates notVar notFunc).symm

theorem carried_settled : Carried id fun t _ => t.Settled where
  data data := data.settled
  reference v := .var v
  annotated note _ _ settled := settled.annotated
  function params _ _ settled := Settled.func_iff.mpr settled
  call op args args' named named' _ _ apart _ inArgs inNamed := by
    refine apart.settled_makeCall fun t member => ?_
    rcases List.mem_append.mp member with part | value
    · obtain ⟨_, _, settled⟩ := exists_of_mem_right inArgs.flip part
      exact settled
    · obtain ⟨field, inside, rfl⟩ := List.mem_map.mp value
      obtain ⟨_, _, settled⟩ := exists_of_mem_right inNamed.flip inside
      exact settled.2

end QueryTerms
