import QueryTerms.Proofs.ObjectForms
import QueryTerms.Proofs.Renumbering
import QueryTerms.Proofs.SortedEntries

/-! The order in which named parts are given. It decides which variables each part draws and nothing else: an object or
a call whose parts are given in another order is the same up to the names of bound variables, and leaves the same
context. -/

namespace QueryTerms
open Term

/-- Built after any number of other variables were drawn, the handle draws `k` of its own and yields an equivalent
term. -/
def Handle.Movable (context : Context) (k : Nat) (h : Handle) : Prop :=
  ∀ j, context.allocated.toNat + j + k < UInt64.size →
    (h.run (context.advance j)).context = context.advance (j + k) ∧
      AlphaEquiv (h.run context).result (h.run (context.advance j)).result

/-- A handle that draws nothing at the start draws nothing later on. -/
theorem Handle.Movable.idle {context : Context} {k j : Nat} {h : Handle} (movable : h.Movable context k)
    (room : context.allocated.toNat + j + k < UInt64.size)
    (idle : (h.run context).context.allocated = context.allocated) :
    (h.run (context.advance j)).context = context.advance j := by
  obtain ⟨here, _⟩ := movable 0 (by omega)
  have counted : (context.advance k).allocated.toNat = context.allocated.toNat + k := Context.advance_toNat (by omega)
  rw [Context.advance_zero, Nat.zero_add] at here
  rw [← here, idle] at counted
  obtain rfl : k = 0 := by omega
  exact (movable j room).1

theorem Expr.denote_movable {e : Expr} (hygienic : e.Hygienic) {scope : Scope} {ids : String → VarId}
    (outer : ∀ name ∈ e.freeNames, scope name = Handle.var (ids name)) {context : Context}
    (used : ∀ name ∈ e.freeNames, (ids name).toNat ≤ context.allocated.toNat) :
    (e.denote scope).Movable context (e.allocations fun _ => 0) := by
  intro j room
  have moved : (context.advance j).allocated.toNat = context.allocated.toNat + j := Context.advance_toNat (by omega)
  have later : context.allocated ≤ (context.advance j).allocated := UInt64.le_iff_toNat_le.mpr (by omega)
  let up := shift context.allocated ((context.advance j).allocated - context.allocated)
  have twins : Handle.Twins up (Mapped up) (· ≤ context.allocated) (e.allocations fun _ => 0) (e.denote scope)
      (e.denote scope) := by
    refine Expr.denote_twins (carried_mapped up) e hygienic (fun t _ ground => ground.mapVars_eq up) fun name free => ?_
    have inside := UInt64.le_iff_toNat_le.mpr (used name free)
    rw [outer name free]
    exact Handle.var_twins (carried_mapped up) (shift_of_le inside) inside
  have inUse (v : VarId) (inside : v ≤ context.allocated) : v.toNat ≤ context.allocated.toNat :=
    UInt64.le_iff_toNat_le.mp inside
  have twin : Twin up (· ≤ context.allocated) context (context.advance j) := ⟨rfl, rfl, inUse, .of_shift later⟩
  obtain ⟨_, left, same⟩ := twins.paired context _ twin (by omega) (by omega)
  obtain ⟨_, clean⟩ := twins.draws context _ inUse (Nat.le_refl _) (by omega) .nil
  refine ⟨left.trans (context.advance_advance j _), ?_⟩
  simp only [Build.run]
  rw [← same]
  apply alphaEquiv_mapVars (twin.separates (by omega) clean)
  intro v free
  exact shift_of_le (clean.free _ List.mem_cons_self v free)

private theorem Expr.total_perm {counted counted' : List (String × Nat)} (reordered : counted.Perm counted') :
    total counted = total counted' := by
  induction reordered with
  | nil => rfl
  | cons entry _ ih => simp only [total, ih]
  | swap first second rest =>
    simp only [total]
    omega
  | trans _ _ ih ih' => exact ih.trans ih'

theorem Expr.le_total {count : α → Nat} {entries : List (String × α)} {entry : String × α} (member : entry ∈ entries) :
    count entry.2 ≤ total (Fields.mapValues count entries) := by
  induction member with
  | head => exact Nat.le_add_right _ _
  | tail _ _ ih => exact Nat.le_add_left_of_le ih

section Entries

variable {α : Type} {count : α → Nat} {build : α → Handle} {context : Context} {entries entries' : List (String × α)}

/-- Each part yields what it would yield at the start, but for the names of bound variables. -/
private theorem Build.results_nameless (movable : ∀ entry ∈ entries, (build entry.2).Movable context (count entry.2))
    (j : Nat) (room : context.allocated.toNat + j + Expr.total (Fields.mapValues count entries) < UInt64.size) :
    Fields.mapValues (nameless []) (results (Fields.mapValues build entries) (context.advance j)) =
        Fields.mapValues (fun a => ((build a).run context).result.nameless []) entries ∧
      contextAfter (Fields.mapValues build entries) (context.advance j) =
        context.advance (j + Expr.total (Fields.mapValues count entries)) := by
  induction entries generalizing j with
  | nil => exact ⟨rfl, rfl⟩
  | cons entry rest ih =>
    obtain ⟨here, others⟩ := List.forall_mem_cons.mp movable
    simp only [Fields.mapValues_cons, Expr.total] at room ⊢
    obtain ⟨left, same⟩ := here j (by omega)
    obtain ⟨ihResults, ihContext⟩ := ih others (j + count entry.2) (by omega)
    rw [← Nat.add_assoc, ← ihContext, ← ihResults, ← left]
    refine ⟨?_, rfl⟩
    simp only [results, Fields.mapValues_cons]
    rw [show nameless [] _ = nameless [] _ from same]

theorem Build.fields_nameless_perm (distinct : (Fields.keys entries).Nodup) (reordered : entries.Perm entries')
    (movable : ∀ entry ∈ entries, (build entry.2).Movable context (count entry.2))
    (room : context.allocated.toNat + Expr.total (Fields.mapValues count entries) < UInt64.size) :
    let built := (fields (Fields.mapValues build entries)).run context
    let rebuilt := (fields (Fields.mapValues build entries')).run context
    Fields.mapValues (nameless []) built.result = Fields.mapValues (nameless []) rebuilt.result ∧
      built.context = rebuilt.context := by
  intro built rebuilt
  have movable' : ∀ entry ∈ entries', (build entry.2).Movable context (count entry.2) :=
    fun entry member => movable entry (reordered.mem_iff.mpr member)
  have sameTotal : Expr.total (Fields.mapValues count entries) = Expr.total (Fields.mapValues count entries') :=
    Expr.total_perm (reordered.map _)
  obtain ⟨results, left⟩ := Build.results_nameless movable 0 (by omega)
  obtain ⟨results', left'⟩ := Build.results_nameless movable' 0 (by omega)
  rw [Context.advance_zero] at results results' left left'
  obtain ⟨made, after⟩ := Build.fields_run (Fields.mapValues build entries) context
  obtain ⟨made', after'⟩ := Build.fields_run (Fields.mapValues build entries') context
  constructor
  · rw [made, made', Fields.mapValues_ofEntries, Fields.mapValues_ofEntries, results, results',
      ← Fields.mapValues_ofEntries, ← Fields.mapValues_ofEntries, Fields.ofEntries_eq_of_perm distinct reordered]
  · rw [after, after', left, left', sameTotal]

/-- Parts that draw no variables do not depend on each other at all. -/
private theorem Build.results_of_idle (idle : ∀ entry ∈ entries, ((build entry.2).run context).context = context) :
    results (Fields.mapValues build entries) context =
      Fields.mapValues (fun a => ((build a).run context).result) entries := by
  induction entries with
  | nil => rfl
  | cons entry rest ih =>
    obtain ⟨here, others⟩ := List.forall_mem_cons.mp idle
    simp only [Fields.mapValues_cons, results, here, ih others]

theorem Build.fields_perm_of_idle (distinct : (Fields.keys entries).Nodup) (reordered : entries.Perm entries')
    (idle : ∀ entry ∈ entries, ((build entry.2).run context).context = context) :
    ((fields (Fields.mapValues build entries)).run context).result =
      ((fields (Fields.mapValues build entries')).run context).result := by
  have idle' : ∀ entry ∈ entries', ((build entry.2).run context).context = context :=
    fun entry member => idle entry (reordered.mem_iff.mpr member)
  rw [(fields_run _ context).1, (fields_run _ context).1, results_of_idle idle, results_of_idle idle',
    ← Fields.mapValues_ofEntries, ← Fields.mapValues_ofEntries, Fields.ofEntries_eq_of_perm distinct reordered]

end Entries

theorem Term.alphaEquiv_named {op : Operator} (notVar : op ≠ .var) (notFunc : op ≠ .func) {args : List Term}
    {named named' : Fields Term} (same : Fields.mapValues (nameless []) named = Fields.mapValues (nameless []) named') :
    AlphaEquiv (.call op args named) (.call op args named') := by
  rw [AlphaEquiv, nameless_plain _ (role_of_ne notVar notFunc), nameless_plain _ (role_of_ne notVar notFunc), same]

/-- Attributes with known keys. -/
def Attribute.ofEntries (entries : List (String × α)) : List (Attribute α) :=
  entries.map fun entry => .field entry.1 entry.2

private theorem Attribute.fields?_ofEntries (entries : List (String × α)) :
    fields? (ofEntries entries) = some entries := by
  induction entries with
  | nil => rfl
  | cons entry rest ih => exact congrArg (Option.map (entry :: ·)) ih

namespace Expr

private theorem denoteAttributes_ofEntries (scope : Scope) (entries : List (String × Expr)) :
    denoteAttributes scope (Attribute.ofEntries entries) = Attribute.ofEntries (denoteNamed scope entries) := by
  induction entries with
  | nil => rfl
  | cons entry rest ih => exact congrArg (Attribute.field entry.1 (denote scope entry.2) :: ·) ih

private theorem hygienicAttributes_ofEntries (entries : List (String × Expr)) :
    HygienicAttributes (Attribute.ofEntries entries) = HygienicNamed entries := by
  induction entries with
  | nil => rfl
  | cons entry rest ih => exact congrArg (Hygienic entry.2 ∧ ·) ih

private theorem freeNamesAttributes_ofEntries (entries : List (String × Expr)) :
    freeNamesAttributes (Attribute.ofEntries entries) = freeNamesNamed entries := by
  induction entries with
  | nil => rfl
  | cons entry rest ih => exact congrArg (freeNames entry.2 ++ ·) ih

private theorem allocationsAttributes_ofEntries (counts : String → Nat) (entries : List (String × Expr)) :
    allocationsAttributes counts (Attribute.ofEntries entries) =
      total (Fields.mapValues (allocations counts) entries) := by
  induction entries with
  | nil => rfl
  | cons entry rest ih => exact congrArg (allocations counts entry.2 + ·) ih

private theorem hygienicNamed_mem {entries : List (String × Expr)} (hygienic : HygienicNamed entries) :
    ∀ entry ∈ entries, entry.2.Hygienic := by
  induction entries with
  | nil => simp
  | cons entry rest ih => exact List.forall_mem_cons.mpr ⟨hygienic.1, ih hygienic.2⟩

private theorem mem_freeNamesNamed {entries : List (String × Expr)} {entry : String × Expr} (member : entry ∈ entries)
    {name : String} (free : name ∈ entry.2.freeNames) : name ∈ freeNamesNamed entries := by
  induction entries with
  | nil => cases member
  | cons first rest ih =>
    cases member with
    | head => exact List.mem_append_left _ free
    | tail _ later => exact List.mem_append_right _ (ih later)

/-- Objects, or calls of one operator on the same arguments, whose named parts are given in these two orders. -/
inductive Rearranged (entries entries' : List (String × Expr)) : Expr → Expr → Prop where
  | object :
    Rearranged entries entries' (.object (Attribute.ofEntries entries)) (.object (Attribute.ofEntries entries'))
  | call {op : Operator} (notCall : op ≠ .funcall) (args : List Expr) :
    Rearranged entries entries' (.call op args entries) (.call op args entries')

section Parts

variable {scope : Scope} {ids : String → VarId} {context : Context}

private theorem sequence_advance {args : List Expr} (hygienic : HygienicArgs args)
    (outer : ∀ name ∈ freeNamesArgs args, scope name = Handle.var (ids name))
    (used : ∀ name ∈ freeNamesArgs args, (ids name).toNat ≤ context.allocated.toNat)
    (room : context.allocated.toNat + allocationsArgs (fun _ => 0) args < UInt64.size) :
    ((Build.sequence (denoteArgs scope args)).run context).context =
      context.advance (allocationsArgs (fun _ => 0) args) := by
  have twins : AllTwins id (Mapped id) (fun v => v.toNat ≤ context.allocated.toNat) (allocationsArgs (fun _ => 0) args)
      (denoteArgs scope args) (denoteArgs scope args) := by
    refine denoteArgs_twins (carried_mapped id) args hygienic (fun t _ ground => ground.mapVars_eq id) ?_
    intro name free
    rw [outer name free]
    exact Handle.var_twins (carried_mapped id) rfl (used name free)
  exact (Build.sequence_paired twins context context ⟨rfl, rfl, fun _ inside => inside, .refl _⟩ room room).1

/-- Parts that are built in two orders, after some other variables were drawn. -/
theorem fields_rearranged {entries entries' : List (String × Expr)} (distinct : (Fields.keys entries).Nodup)
    (reordered : entries.Perm entries') (hygienic : HygienicNamed entries)
    (outer : ∀ name ∈ freeNamesNamed entries, scope name = Handle.var (ids name))
    (used : ∀ name ∈ freeNamesNamed entries, (ids name).toNat ≤ context.allocated.toNat) (k : Nat)
    (room : context.allocated.toNat + k + total (Fields.mapValues (allocations fun _ => 0) entries) < UInt64.size) :
    let built := (Build.fields (denoteNamed scope entries)).run (context.advance k)
    let rebuilt := (Build.fields (denoteNamed scope entries')).run (context.advance k)
    Fields.mapValues (nameless []) built.result = Fields.mapValues (nameless []) rebuilt.result ∧
      built.context = rebuilt.context ∧
      ((∀ entry ∈ entries, ((entry.2.denote scope).run context).context.allocated = context.allocated) →
        built.result = rebuilt.result) := by
  have moved : (context.advance k).allocated.toNat = context.allocated.toNat + k := Context.advance_toNat (by omega)
  have movable {start : Context} (later : context.allocated.toNat ≤ start.allocated.toNat) (entry : String × Expr)
      (member : entry ∈ entries) : (entry.2.denote scope).Movable start (entry.2.allocations fun _ => 0) := by
    refine denote_movable (hygienicNamed_mem hygienic entry member)
      (fun name free => outer name (mem_freeNamesNamed member free)) fun name free => ?_
    have bound := used name (mem_freeNamesNamed member free)
    omega
  simp only [denoteNamed_eq]
  obtain ⟨same, left⟩ :=
    Build.fields_nameless_perm distinct reordered (@movable (context.advance k) (by omega)) (by omega)
  refine ⟨same, left, fun idle => Build.fields_perm_of_idle distinct reordered fun entry member => ?_⟩
  have bound : entry.2.allocations (fun _ => 0) ≤ total (Fields.mapValues (allocations fun _ => 0) entries) :=
    le_total member
  exact (@movable context (Nat.le_refl _) entry member).idle (by omega) (idle entry member)

end Parts

end Expr

namespace Proofs.PartOrder

/-- An object, or a call of anything but a function, whose named parts are given in another order is the same up to the
names of bound variables and leaves the same context. If none of the parts draws a variable it is sent as the same. -/
theorem rearranged_alphaEquiv {entries entries' : List (String × Expr)} {e e' : Expr}
    (rearranged : Expr.Rearranged entries entries' e e') (distinct : (Fields.keys entries).Nodup)
    (reordered : entries.Perm entries') (hygienic : e.Hygienic) (scope : Scope) (ids : String → VarId)
    (outer : ∀ name ∈ e.freeNames, scope name = Handle.var (ids name)) (context : Context)
    (used : ∀ name ∈ e.freeNames, ids name ≤ context.allocated)
    (room : context.allocated.toNat + e.allocations (fun _ => 0) < UInt64.size) :
    let built := (e.denote scope).run context
    let rebuilt := (e'.denote scope).run context
    AlphaEquiv built.result rebuilt.result ∧ built.context = rebuilt.context ∧
    ((∀ entry ∈ entries, ((entry.2.denote scope).run context).context.allocated = context.allocated) →
      built.result.encode = rebuilt.result.encode) := by
  intro built rebuilt
  have inUse (name : String) (free : name ∈ e.freeNames) : (ids name).toNat ≤ context.allocated.toNat :=
    UInt64.le_iff_toNat_le.mp (used name free)
  cases rearranged with
  | object =>
    simp only [Expr.Hygienic, Expr.freeNames, Expr.allocations, Expr.hygienicAttributes_ofEntries,
      Expr.freeNamesAttributes_ofEntries, Expr.allocationsAttributes_ofEntries] at hygienic outer inUse room
    obtain ⟨same, left, equal⟩ := Expr.fields_rearranged distinct reordered hygienic outer inUse 0 (by omega)
    rw [Context.advance_zero] at same left equal
    have ran (entries : List (String × Expr)) :
        ((Expr.object (Attribute.ofEntries entries)).denote scope).run context =
          let fields := (Build.fields (Expr.denoteNamed scope entries)).run context
          ⟨.call .makeObj [] fields.result, fields.context, fields.notices⟩ := by
      simp only [Expr.denote, Expr.denoteAttributes_ofEntries, Handle.object, Attribute.fields?_ofEntries]
      exact Build.run_map (Term.call .makeObj []) _ context
    simp only [built, rebuilt, ran]
    exact ⟨alphaEquiv_named (by decide) (by decide) same, left, fun idle => by rw [equal idle]⟩
  | @call op notCall args =>
    obtain ⟨notVar, notFunc, inArgs, inEntries⟩ := hygienic
    obtain ⟨outerArgs, outerEntries⟩ := List.forall_mem_append.mp outer
    obtain ⟨usedArgs, usedEntries⟩ := List.forall_mem_append.mp inUse
    have named (entries : List (String × Expr)) (distinct : (Fields.keys entries).Nodup) :
        (OptionList.ofEntries (Expr.denoteNamed scope entries)).build =
          Build.fields (Expr.denoteNamed scope entries) := by
      rw [OptionList.build, OptionList.entries_of_nodup]
      rwa [Expr.denoteNamed_eq, Fields.keys_mapValues]
    rw [Expr.allocations, Expr.allocationsNamed_eq, OptionList.entries_of_nodup (by rwa [Fields.keys_mapValues]),
      ← Nat.add_assoc] at room
    have moved := Expr.sequence_advance inArgs outerArgs usedArgs (by omega)
    obtain ⟨same, left, equal⟩ :=
      Expr.fields_rearranged distinct reordered inEntries outerEntries usedEntries _ room
    have distinct' := (Fields.keys_perm reordered).nodup_iff.mp distinct
    simp only [built, rebuilt, Expr.denote, Handle.call_of_ne notCall, named entries distinct, named entries' distinct',
      moved]
    exact ⟨alphaEquiv_named notVar notFunc same, left, fun idle => by rw [equal idle]⟩

theorem rearranged_alphaEquiv_functions :
    let called : Expr := .func ["x"] (.apply (.func ["u"] (.plain .sub [.handle "u", .handle "y"])) [.handle "x"])
    let pair : Expr := .func ["v", "w"] (.handle "w")
    let same : Expr := .func ["z"] (.handle "z")
    let scope : Scope := fun _ => Handle.var 5
    let call (entries : List (String × Expr)) :=
      ((Expr.call .filter [same] entries).denote scope).run { allocated := 7 }
    let object (entries : List (String × Expr)) :=
      ((Expr.object (Attribute.ofEntries entries)).denote scope).run { allocated := 7 }
    let built := call [("b", called), ("a", pair)]
    let rebuilt := call [("a", pair), ("b", called)]
    built.result = .call .filter [.func [8] (.var 8)]
      [("a", .func [11, 12] (.var 12)), ("b", .func [9] (.call .sub [.var 9, .var 5] []))] ∧
    rebuilt.result = .call .filter [.func [8] (.var 8)]
      [("a", .func [9, 10] (.var 10)), ("b", .func [11] (.call .sub [.var 11, .var 5] []))] ∧
    AlphaEquiv built.result rebuilt.result ∧ built.context = rebuilt.context ∧
    (object [("b", .handle "y"), ("a", .null)]).result.encode =
      (object [("a", .null), ("b", .handle "y")]).result.encode := by
  intro called pair same scope call object built rebuilt
  have hygienic : (Expr.call .filter [same] [("b", called), ("a", pair)]).Hygienic := by
    simp [called, pair, same, Expr.plain, Expr.apply, Expr.Hygienic, Expr.HygienicArgs, Expr.HygienicNamed]
  have drawn : (Expr.call .filter [same] [("b", called), ("a", pair)]).allocations (fun _ => 0) = 5 := by decide
  obtain ⟨equivalent, left, _⟩ := rearranged_alphaEquiv (.call (by decide) [same]) (by decide) (.swap _ _ []) hygienic
    scope (fun _ => 5) (fun _ _ => rfl) { allocated := 7 } (fun _ _ => by decide) (by rw [drawn]; decide)
  have plain : (Expr.object (Attribute.ofEntries [("b", .handle "y"), ("a", .null)])).Hygienic := by
    simp [Attribute.ofEntries, Expr.null, Expr.datum, Expr.Hygienic, Expr.HygienicAttributes]
  obtain ⟨_, _, sent⟩ := rearranged_alphaEquiv .object (by decide) (.swap _ _ []) plain scope (fun _ => 5)
    (fun _ _ => rfl) { allocated := 7 } (fun _ _ => by decide) (by decide)
  refine ⟨rfl, rfl, equivalent, left, sent fun entry member => ?_⟩
  rcases List.mem_cons.mp member with rfl | later
  · rfl
  · rw [List.mem_singleton.mp later]
    rfl

end Proofs.PartOrder

end QueryTerms
