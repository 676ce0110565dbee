import QueryTerms.Proofs.BuildHygiene
import QueryTerms.Proofs.InlinableCalls

/-! Two builds side by side. The second one numbers its variables by a map of the numbers of the first one:
variables in use go to variables in use, and fresh ones to fresh ones in the same order. There is one rule for
each way to put builds together, for any relation between terms that goes along with it. -/

namespace QueryTerms
open Term

/-- Variables up to `low` go to variables up to `low'`. Those above go on from there in step, as far as there are
numbers. -/
structure Renumbers (f : VarId → VarId) (low low' : Nat) : Prop where
  old : ∀ v : VarId, v.toNat ≤ low → (f v).toNat ≤ low'
  fresh : ∀ (v : VarId) (k : Nat), v.toNat = low + k → 0 < k → low' + k < UInt64.size → (f v).toNat = low' + k

namespace Renumbers

variable {f : VarId → VarId} {low low' : Nat}

theorem refl (low : Nat) : Renumbers id low low :=
  ⟨fun _ bound => bound, fun _ _ position _ _ => position⟩

theorem advance (renumbers : Renumbers f low low') {k : Nat} (room : low' + k < UInt64.size) :
    Renumbers f (low + k) (low' + k) := by
  constructor
  · intro v bound
    by_cases inUse : v.toNat ≤ low
    · have image := renumbers.old v inUse
      omega
    · have image := renumbers.fresh v (v.toNat - low) (by omega) (by omega) (by omega)
      omega
  · intro v n same positive room
    have image := renumbers.fresh v (k + n) (by omega) (by omega) (by omega)
    omega

/-- A fresh variable goes where no other variable goes. -/
theorem separate (renumbers : Renumbers f low low') {k : Nat} (room : low' + k < UInt64.size) {v b : VarId}
    (fresh : low < b.toNat) (upTo : b.toNat ≤ low + k) (bound : v.toNat ≤ low + k) (same : f v = f b) : v = b := by
  have image := renumbers.fresh b (b.toNat - low) (by omega) (by omega) (by omega)
  rw [← same] at image
  by_cases inUse : v.toNat ≤ low
  · have below := renumbers.old v inUse
    omega
  · have above := renumbers.fresh v (v.toNat - low) (by omega) (by omega) (by omega)
    exact UInt64.toNat_inj.mp (by omega)

end Renumbers

namespace Context

/-- The context after so many more variables were drawn. -/
def advance (context : Context) (k : Nat) : Context :=
  { context with allocated := context.allocated + UInt64.ofNat k }

@[simp] theorem advance_zero (context : Context) : context.advance 0 = context := by
  simp [advance]

@[simp] theorem advance_advance (context : Context) (k n : Nat) :
    (context.advance k).advance n = context.advance (k + n) := by
  simp [advance, UInt64.ofNat_add, UInt64.add_assoc]

theorem advance_toNat {context : Context} {k : Nat} (room : context.allocated.toNat + k < UInt64.size) :
    (context.advance k).allocated.toNat = context.allocated.toNat + k := by
  have small : k < UInt64.size := by omega
  simp only [advance, UInt64.toNat_add, UInt64.toNat_ofNat_of_lt' small]
  exact Nat.mod_eq_of_lt room

end Context

/-- Two contexts in which tables are written alike and variables are numbered by the map. The allowed variables are
in use in the first one. -/
structure Twin (f : VarId → VarId) (allowed : VarId → Prop) (context context' : Context) : Prop where
  database : context'.database = context.database
  useOutdated : context'.useOutdated = context.useOutdated
  used : ∀ v, allowed v → v.toNat ≤ context.allocated.toNat
  numbers : Renumbers f context.allocated.toNat context'.allocated.toNat

section Rules

variable {f : VarId → VarId} {R : Term → Term → Prop} {allowed : VarId → Prop} {k n : Nat}

theorem Twin.advance {context context' : Context} (twin : Twin f allowed context context')
    (room : context.allocated.toNat + k < UInt64.size) (room' : context'.allocated.toNat + k < UInt64.size) :
    Twin f allowed (context.advance k) (context'.advance k) := by
  refine ⟨twin.database, twin.useOutdated, ?_, ?_⟩
  · intro v inside
    have bound := twin.used v inside
    rw [Context.advance_toNat room]
    omega
  · rw [Context.advance_toNat room, Context.advance_toNat room']
    exact twin.numbers.advance room'

/-- Started in twin contexts, both builds draw `k` variables and leave related results. -/
def Build.Paired (f : VarId → VarId) (allowed : VarId → Prop) (k : Nat) (related : α → β → Prop) (x : Build α)
    (y : Build β) : Prop :=
  ∀ context context', Twin f allowed context context' → context.allocated.toNat + k < UInt64.size →
    context'.allocated.toNat + k < UInt64.size →
    (x context).context = context.advance k ∧ (y context').context = context'.advance k ∧
      related (x context).result (y context').result

namespace Build.Paired

variable {related : α → β → Prop}

theorem pure {a : α} {b : β} (holds : related a b) :
    Paired f allowed 0 related (Pure.pure a : Build α) (Pure.pure b : Build β) :=
  fun context context' _ _ _ => ⟨context.advance_zero.symm, context'.advance_zero.symm, holds⟩

theorem bind {γ δ : Type} {later : γ → δ → Prop} {x : Build α} {y : Build β} {g : α → Build γ} {g' : β → Build δ}
    (first : Paired f allowed k related x y)
    (next : ∀ a b, related a b → Paired f allowed n later (g a) (g' b)) :
    Paired f allowed (k + n) later (x >>= g) (y >>= g') := by
  intro context context' twin room room'
  obtain ⟨moved, moved', holds⟩ := first context context' twin (by omega) (by omega)
  have between : Twin f allowed (x context).context (y context').context := by
    rw [moved, moved']
    exact twin.advance (by omega) (by omega)
  have counted : (x context).context.allocated.toNat = context.allocated.toNat + k := by
    rw [moved, Context.advance_toNat (by omega)]
  have counted' : (y context').context.allocated.toNat = context'.allocated.toNat + k := by
    rw [moved', Context.advance_toNat (by omega)]
  obtain ⟨movedOn, movedOn', result⟩ := next _ _ holds _ _ between (by omega) (by omega)
  refine ⟨movedOn.trans ?_, movedOn'.trans ?_, result⟩
  · rw [moved, Context.advance_advance]
  · rw [moved', Context.advance_advance]

theorem map {γ δ : Type} {later : γ → δ → Prop} {x : Build α} {y : Build β} {g : α → γ} {g' : β → δ}
    (first : Paired f allowed k related x y) (next : ∀ a b, related a b → later (g a) (g' b)) :
    Paired f allowed k later (do return g (← x)) (do return g' (← y)) :=
  first.bind fun a b holds => pure (next a b holds)

theorem mono {x : Build α} {y : Build β} {allowed' : VarId → Prop} (paired : Paired f allowed k related x y)
    (wider : ∀ v, allowed v → allowed' v) : Paired f allowed' k related x y :=
  fun context context' twin => paired context context'
    ⟨twin.database, twin.useOutdated, fun v inside => twin.used v (wider v inside), twin.numbers⟩

end Build.Paired

private theorem Build.allocate_paired : Build.Paired f allowed 1 (fun v v' => v' = f v) allocate allocate := by
  intro context context' twin room room'
  refine ⟨rfl, rfl, UInt64.toNat_inj.mp ?_⟩
  rw [(allocate_drawn context' room').1]
  exact (twin.numbers.fresh _ 1 (allocate_drawn context room).1 Nat.one_pos room').symm

theorem Build.allocateMany_context (n : Nat) (context : Context) :
    (allocateMany n context).context = context.advance n := by
  induction n generalizing context with
  | zero => exact context.advance_zero.symm
  | succ n ih =>
    rw [Nat.add_comm n 1, ← Context.advance_advance, ← ih (context.advance 1), Nat.add_comm 1 n]
    rfl

theorem Build.allocateMany_paired (n : Nat) :
    Build.Paired f allowed n (fun ids ids' => ids' = ids.map f) (allocateMany n) (allocateMany n) := by
  induction n with
  | zero => exact .pure rfl
  | succ n ih =>
    have both : Build.Paired f allowed (1 + n) (fun ids ids' => ids' = ids.map f) (allocateMany (n + 1))
        (allocateMany (n + 1)) :=
      allocate_paired.bind fun v v' first => ih.map fun ids ids' rest => by rw [first, rest, List.map_cons]
    rwa [Nat.add_comm 1 n] at both

/-- A relation between the terms of two builds that is carried on by every way to put terms together. -/
structure Carried (f : VarId → VarId) (R : Term → Term → Prop) : Prop where
  data : ∀ {t : Term}, t.Data → R t t
  reference : ∀ v, R (.var v) (.var (f v))
  annotated : ∀ note {t t' : Term}, R t t' → R (.annotated note t) (.annotated note t')
  function : ∀ params {body body' : Term}, R body body' → R (.func params body) (.func (params.map f) body')
  call : ∀ (op : Operator) {args args' : List Term} {named named' : Fields Term}, op ≠ .var → op ≠ .func →
    Apart (args ++ named.map Prod.snd) → Separates f (args ++ named.map Prod.snd) → List.Forall₂ R args args' →
    Fields.Related R named named' → R (makeCall op args named) (makeCall op args' named')

/-- Two handles that draw `k` variables at each use and build related terms. -/
structure Handle.Twins (f : VarId → VarId) (R : Term → Term → Prop) (allowed : VarId → Prop) (k : Nat)
    (h h' : Handle) : Prop where
  draws : h.Draws allowed k
  paired : Build.Paired f allowed k R h h'

theorem Handle.Twins.mono {h h' : Handle} {allowed' : VarId → Prop} (twins : Handle.Twins f R allowed k h h')
    (wider : ∀ v, allowed v → allowed' v) : Handle.Twins f R allowed' k h h' :=
  ⟨twins.draws.mono wider, twins.paired.mono wider⟩

/-- Lists that are related member by member, with the sum of the members' numbers. -/
inductive Summed (S : Nat → α → β → Prop) : Nat → List α → List β → Prop where
  | nil : Summed S 0 [] []
  | cons {k n : Nat} {a : α} {b : β} {as : List α} {bs : List β} :
    S k a b → Summed S n as bs → Summed S (k + n) (a :: as) (b :: bs)

abbrev AllTwins (f : VarId → VarId) (R : Term → Term → Prop) (allowed : VarId → Prop) :
    Nat → List Handle → List Handle → Prop :=
  Summed (Handle.Twins f R allowed)

abbrev EntriesTwins (f : VarId → VarId) (R : Term → Term → Prop) (allowed : VarId → Prop) :
    Nat → List (String × Handle) → List (String × Handle) → Prop :=
  Summed fun k entry entry' => entry.1 = entry'.1 ∧ Handle.Twins f R allowed k entry.2 entry'.2

theorem AllTwins.draws {hs hs' : List Handle} (all : AllTwins f R allowed k hs hs') : AllDraw allowed k hs := by
  induction all with
  | nil => exact .nil
  | cons first _ ih => exact .cons first.draws ih

theorem EntriesTwins.draws {entries entries' : List (String × Handle)}
    (all : EntriesTwins f R allowed k entries entries') : AllDraw allowed k (entries.map Prod.snd) := by
  induction all with
  | nil => exact .nil
  | cons first _ ih => exact .cons first.2.draws ih

theorem Build.sequence_paired {hs hs' : List Handle} (all : AllTwins f R allowed k hs hs') :
    Build.Paired f allowed k (List.Forall₂ R) (sequence hs) (sequence hs') := by
  induction all with
  | nil => exact .pure .nil
  | cons first _ ih => exact first.paired.bind fun t t' holds => ih.map fun ts ts' rest => .cons holds rest

private theorem Build.fieldsFrom_paired {entries entries' : List (String × Handle)}
    (all : EntriesTwins f R allowed k entries entries') {fields fields' : Fields Term}
    (before : Fields.Related R fields fields') :
    Build.Paired f allowed k (Fields.Related R) (fieldsFrom fields entries) (fieldsFrom fields' entries') := by
  induction all generalizing fields fields' with
  | nil => exact .pure before
  | cons first _ ih => exact first.2.paired.bind fun t t' holds => ih (before.insert first.1 holds)

theorem Build.fields_paired {entries entries' : List (String × Handle)}
    (all : EntriesTwins f R allowed k entries entries') :
    Build.Paired f allowed k (Fields.Related R) (fields entries) (fields entries') :=
  fieldsFrom_paired all .nil

theorem Clean.apart {low high : Nat} {ts : List Term} (clean : Clean allowed low high ts)
    (used : ∀ v, allowed v → v.toNat ≤ low) : Apart ts := by
  refine ⟨clean.distinct, fun t member v free bound => ?_⟩
  have inUse := used v (clean.free t member v free)
  have drawn := clean.drawn v bound
  omega

/-- The map keeps the variables apart that were drawn since the first context. -/
theorem Twin.separates {context context' : Context} (twin : Twin f allowed context context')
    (room' : context'.allocated.toNat + k < UInt64.size) {ts : List Term}
    (clean : Clean allowed context.allocated.toNat (context.allocated.toNat + k) ts) : Separates f ts := by
  intro b bound v known same
  have drawn := clean.drawn b bound
  refine twin.numbers.separate room' drawn.1 drawn.2 ?_ same
  rcases known with other | ⟨t, member, free⟩
  · exact (clean.drawn v other).2
  · have inUse := twin.used v (clean.free t member v free)
    omega

/-- The parts of a call, built in their order. -/
def Handle.parts (args : List Handle) (options : OptionList Handle) : Build (List Term × Fields Term) := do
  let args ← Build.sequence args
  let named ← options.build
  return (args, named)

/-- A call is assembled in the context that its parts have left. -/
theorem Handle.call_run (op : Operator) (args : List Handle) (options : OptionList Handle) (context : Context) :
    (Handle.call op args options context).context = (Handle.parts args options context).context ∧
      (Handle.call op args options context).result =
        makeCall op (Handle.parts args options context).result.1 (Handle.parts args options context).result.2 :=
  Handle.assemble_run op _ _ (Handle.parts args options context).context

theorem Handle.parts_draws {args : List Handle} {options : OptionList Handle} (argsDraw : AllDraw allowed k args)
    (optionsDraw : AllDraw allowed n (options.entries.map Prod.snd)) :
    Build.Draws allowed (k + n) [] (fun parts => parts.1 ++ parts.2.map Prod.snd) (Handle.parts args options) :=
  (Build.sequence_draws argsDraw).bind fun ts => ((Build.fields_draws optionsDraw).frame ts).bind fun _ =>
    Build.Draws.pure fun _ _ clean => clean

theorem Handle.call_paired (carried : Carried f R) {op : Operator} (notVar : op ≠ .var) (notFunc : op ≠ .func)
    {args args' : List Handle} {options options' : OptionList Handle} (argsTwins : AllTwins f R allowed k args args')
    (optionsTwins : EntriesTwins f R allowed n options.entries options'.entries) :
    Build.Paired f allowed (k + n) R (Handle.call op args options) (Handle.call op args' options') := by
  have parts : Build.Paired f allowed (k + n)
      (fun parts parts' => List.Forall₂ R parts.1 parts'.1 ∧ Fields.Related R parts.2 parts'.2)
      (Handle.parts args options) (Handle.parts args' options') :=
    (Build.sequence_paired argsTwins).bind fun ts ts' first =>
      (Build.fields_paired optionsTwins).map fun fields fields' rest => ⟨first, rest⟩
  intro context context' twin room room'
  obtain ⟨moved, moved', argsRelated, namedRelated⟩ := parts context context' twin room room'
  obtain ⟨_, clean⟩ :=
    Handle.parts_draws argsTwins.draws optionsTwins.draws context _ twin.used (Nat.le_refl _) room .nil
  obtain ⟨left, made⟩ := Handle.call_run op args options context
  obtain ⟨left', made'⟩ := Handle.call_run op args' options' context'
  refine ⟨left.trans moved, left'.trans moved', ?_⟩
  rw [made, made']
  exact carried.call op notVar notFunc (clean.apart twin.used) (twin.separates room' clean) argsRelated namedRelated

theorem Handle.record_paired (carried : Carried f R) {entries entries' : List (String × Handle)}
    (all : EntriesTwins f R allowed k entries entries') :
    Build.Paired f allowed k R (do return Term.call .makeObj [] (← Build.fields entries))
      (do return Term.call .makeObj [] (← Build.fields entries')) := by
  intro context context' twin room room'
  obtain ⟨moved, moved', related⟩ := Build.fields_paired all context context' twin room room'
  obtain ⟨_, clean⟩ := Build.fields_draws all.draws context _ twin.used (Nat.le_refl _) room .nil
  refine ⟨moved, moved', ?_⟩
  exact carried.call .makeObj (by decide) (by decide) (clean.apart twin.used) (twin.separates room' clean) .nil related

theorem Handle.object_paired (carried : Carried f R) {attributes attributes' : List (Attribute Handle)}
    (pairs : AllTwins f R allowed k (Attribute.pairs attributes) (Attribute.pairs attributes'))
    (fields : Option.Rel (EntriesTwins f R allowed k) (Attribute.fields? attributes) (Attribute.fields? attributes')) :
    Build.Paired f allowed k R (Handle.object attributes) (Handle.object attributes') := by
  unfold Handle.object
  revert fields
  generalize Attribute.fields? attributes = found
  generalize Attribute.fields? attributes' = found'
  intro fields
  cases fields with
  | some all => exact Handle.record_paired carried all
  | none =>
    intro context context' twin room room'
    obtain ⟨moved, moved', related⟩ := Build.sequence_paired pairs context context' twin room room'
    obtain ⟨_, clean⟩ := Build.sequence_draws pairs.draws context _ twin.used (Nat.le_refl _) room .nil
    rw [← List.append_nil (id _)] at clean
    refine ⟨moved, moved', ?_⟩
    exact carried.call .object (by decide) (by decide) (clean.apart twin.used) (twin.separates room' clean) related .nil

theorem Handle.constant_twins {t t' : Term} (clean : ∀ low high, Clean allowed low high [t]) (holds : R t t') :
    Handle.Twins f R allowed 0 (.constant t) (.constant t') :=
  ⟨Handle.constant_draws clean, Build.Paired.pure holds⟩

theorem Handle.table_paired (carried : Carried f R) (database : Option String) (name : String) :
    Build.Paired f allowed 0 R (Handle.table database name) (Handle.table database name) := by
  intro context context' twin _ _
  have same : (Handle.table database name context').result = (Handle.table database name context).result := by
    simp only [Handle.table, bind, pure, Build.context, twin.database, twin.useOutdated]
  refine ⟨context.advance_zero.symm, context'.advance_zero.symm, ?_⟩
  rw [same]
  exact carried.data (Handle.table_data database name context)

theorem Handle.note_paired (carried : Carried f R) {h h' : Handle} (paired : Build.Paired f allowed k R h h')
    (label : String) : Build.Paired f allowed k R (h.note label) (h'.note label) :=
  paired.map fun _ _ holds => carried.annotated label holds

theorem Handle.refused_paired (carried : Carried f R) (fault : Fault) :
    Build.Paired f allowed 0 R (Handle.refused fault) (Handle.refused fault) :=
  fun context context' _ _ _ =>
    ⟨context.advance_zero.symm, context'.advance_zero.symm, carried.data (.literal .null)⟩

/-- The second function draws the images of the parameters of the first one. -/
theorem Handle.func_paired (carried : Carried f R) {arity : Nat} {body body' : List VarId → Handle}
    (inner : ∀ ids, ids.length = arity →
      Build.Paired f (fun v => v ∈ ids ∨ allowed v) k R (body ids) (body' (ids.map f))) :
    Build.Paired f allowed (arity + k) R (Handle.func arity body) (Handle.func arity body') := by
  intro context context' twin room room'
  obtain ⟨full, counted, _, drawn⟩ := Build.allocateMany_drawn arity context (by omega)
  obtain ⟨moved, moved', same⟩ := Build.allocateMany_paired arity context context' twin (by omega) (by omega)
  have counted' : (Build.allocateMany arity context').context.allocated.toNat = context'.allocated.toNat + arity := by
    rw [moved', Context.advance_toNat (by omega)]
  have between : Twin f (fun v => v ∈ (Build.allocateMany arity context).result ∨ allowed v)
      (Build.allocateMany arity context).context (Build.allocateMany arity context').context := by
    have later := twin.advance (k := arity) (by omega) (by omega)
    rw [← moved, ← moved'] at later
    refine ⟨later.database, later.useOutdated, ?_, later.numbers⟩
    intro v known
    rcases known with parameter | inside
    · have bound := drawn v parameter
      omega
    · exact later.used v inside
  obtain ⟨movedOn, movedOn', holds⟩ := inner _ full _ _ between (by omega) (by omega)
  rw [← same] at movedOn' holds
  refine ⟨movedOn.trans ?_, movedOn'.trans ?_, ?_⟩
  · rw [moved, Context.advance_advance]
  · rw [moved', Context.advance_advance]
  · have function := carried.function (Build.allocateMany arity context).result holds
    rw [← same] at function
    exact function

theorem Handle.iterate_twins {step step' : Handle → Handle} {count : Nat → Nat} {start start' : Handle}
    (one : ∀ k h h', Handle.Twins f R allowed k h h' → Handle.Twins f R allowed (count k) (step h) (step' h'))
    (first : Handle.Twins f R allowed k start start') (times : Nat) :
    Handle.Twins f R allowed (Nat.iterate count times k) (Handle.iterate step times start)
      (Handle.iterate step' times start') := by
  induction times with
  | zero => exact first
  | succ times ih =>
    rw [Function.iterate_succ_apply']
    exact one _ _ _ ih

end Rules

end QueryTerms
