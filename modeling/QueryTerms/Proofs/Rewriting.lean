import QueryTerms.Proofs.TwinExpressions

/-! Expressions whose leaves and labels are rewritten. Two builds run in step if they draw the same variables, report
the same notices and leave all of their contexts but the counter as it was. A rewriting whose own results run in
step with what they replace takes an expression to one that does, for any relation between terms that goes along
with the calls of the expression. -/

namespace QueryTerms
open Term

/-- Started at one counter, the builds end at one counter and report the same. Their results are related, and nothing
but the counter changes in their contexts. -/
def Build.InStep (base base' : Context) (related : α → β → Prop) (x : Build α) (y : Build β) : Prop :=
  ∀ n : VarId, ∃ m a b notices, related a b ∧
    x { base with allocated := n } = ⟨a, { base with allocated := m }, notices⟩ ∧
    y { base' with allocated := n } = ⟨b, { base' with allocated := m }, notices⟩

section Rules

variable {base base' : Context} {R : Term → Term → Prop}

namespace Build.InStep

theorem pure {related : α → β → Prop} {a : α} {b : β} (holds : related a b) :
    InStep base base' related (Pure.pure a : Build α) (Pure.pure b : Build β) :=
  fun n => ⟨n, a, b, [], holds, rfl, rfl⟩

theorem bind {related : α → β → Prop} {later : γ → δ → Prop} {x : Build α} {y : Build β} {f : α → Build γ}
    {g : β → Build δ} (first : InStep base base' related x y)
    (next : ∀ a b, related a b → InStep base base' later (f a) (g b)) :
    InStep base base' later (x >>= f) (y >>= g) := by
  intro n
  obtain ⟨m, a, b, notices, holds, ran, ran'⟩ := first n
  obtain ⟨k, c, d, more, result, ranOn, ranOn'⟩ := next a b holds m
  refine ⟨k, c, d, notices ++ more, result, ?_, ?_⟩
  · simp only [Bind.bind, ran, ranOn]
  · simp only [Bind.bind, ran', ranOn']

theorem map {related : α → β → Prop} {later : γ → δ → Prop} {x : Build α} {y : Build β} {f : α → γ} {g : β → δ}
    (first : InStep base base' related x y) (next : ∀ a b, related a b → later (f a) (g b)) :
    InStep base base' later (do return f (← x)) (do return g (← y)) :=
  first.bind fun a b holds => pure (next a b holds)

theorem report (notice : Notice) : InStep base base' Eq (Build.report notice) (Build.report notice) :=
  fun n => ⟨n, (), (), [notice], rfl, rfl, rfl⟩

theorem allocateMany (count : Nat) : InStep base base' Eq (Build.allocateMany count) (Build.allocateMany count) := by
  induction count with
  | zero => exact pure rfl
  | succ count ih =>
    have one : InStep base base' Eq Build.allocate Build.allocate := fun n => ⟨n + 1, n + 1, n + 1, [], rfl, rfl, rfl⟩
    exact one.bind fun id _ first => ih.map fun ids _ rest => by rw [first, rest]

theorem sequence {related : α → β → Prop} {xs : List (Build α)} {ys : List (Build β)}
    (all : List.Forall₂ (InStep base base' related) xs ys) :
    InStep base base' (List.Forall₂ related) (Build.sequence xs) (Build.sequence ys) := by
  induction all with
  | nil => exact pure .nil
  | cons first _ ih => exact first.bind fun a b holds => ih.map fun as bs rest => .cons holds rest

theorem fieldsFrom {related : α → β → Prop} {entries : List (String × Build α)} {entries' : List (String × Build β)}
    (all : Fields.Related (InStep base base' related) entries entries') {fields : Fields α} {fields' : Fields β}
    (before : Fields.Related related fields fields') :
    InStep base base' (Fields.Related related) (Build.fieldsFrom fields entries)
      (Build.fieldsFrom fields' entries') := by
  induction all generalizing fields fields' with
  | nil => exact pure before
  | cons first _ ih => exact first.2.bind fun a b holds => ih (before.insert first.1 holds)

theorem fields {related : α → β → Prop} {entries : List (String × Build α)} {entries' : List (String × Build β)}
    (all : Fields.Related (InStep base base' related) entries entries') :
    InStep base base' (Fields.Related related) (Build.fields entries) (Build.fields entries') :=
  fieldsFrom all .nil

end Build.InStep

/-- A relation between terms that goes along with functions and with calls of the given operators. Of two related
calls both are inlined or none, and the functions that vanish have the same parameters. -/
structure Congruent (R : Term → Term → Prop) (callable : Operator → Prop) : Prop where
  data : ∀ {t : Term}, t.Data → R t t
  reference : ∀ v, R (.var v) (.var v)
  function : ∀ params {body body' : Term}, R body body' → R (.func params body) (.func params body')
  objects : callable .makeObj ∧ callable .object
  call : ∀ {op : Operator} {args args' : List Term} {named named' : Fields Term}, callable op →
    List.Forall₂ R args args' → Fields.Related R named named' → R (makeCall op args named) (makeCall op args' named') ∧
      (inlined? op args named).map Prod.fst = (inlined? op args' named').map Prod.fst

variable {callable : Operator → Prop}

private theorem Handle.assemble_inStep (congruent : Congruent R callable) {op : Operator} (allowed : callable op)
    {args args' : List Term} {named named' : Fields Term} (parts : List.Forall₂ R args args')
    (fields : Fields.Related R named named') :
    Build.InStep base base' R (Handle.assemble op args named) (Handle.assemble op args' named') := by
  obtain ⟨made, vanished⟩ := congruent.call allowed parts fields
  intro n
  refine ⟨n, _, _, _, made, Handle.assemble_eq op args named _, ?_⟩
  rw [Handle.assemble_eq, vanished]

theorem Handle.call_inStep (congruent : Congruent R callable) {op : Operator} (allowed : callable op)
    {args args' : List Handle} {options options' : OptionList Handle}
    (parts : List.Forall₂ (Build.InStep base base' R) args args')
    (fields : Fields.Related (Build.InStep base base' R) options.entries options'.entries) :
    Build.InStep base base' R (Handle.call op args options) (Handle.call op args' options') := by
  apply (Build.InStep.sequence parts).bind
  intro ts ts' partsRelated
  apply (Build.InStep.fields fields).bind
  intro named named' fieldsRelated
  exact Handle.assemble_inStep congruent allowed partsRelated fieldsRelated

theorem Handle.record_inStep (congruent : Congruent R callable) {entries entries' : List (String × Handle)}
    (fields : Fields.Related (Build.InStep base base' R) entries entries') :
    Build.InStep base base' R (do return Term.call .makeObj [] (← Build.fields entries))
      (do return Term.call .makeObj [] (← Build.fields entries')) :=
  (Build.InStep.fields fields).map fun _ _ related => (congruent.call congruent.objects.1 .nil related).1

theorem Handle.func_inStep (congruent : Congruent R callable) (arity : Nat) {body body' : List VarId → Handle}
    (inner : ∀ ids, Build.InStep base base' R (body ids) (body' ids)) :
    Build.InStep base base' R (Handle.func arity body) (Handle.func arity body') := by
  apply (Build.InStep.allocateMany arity).bind
  rintro ids _ rfl
  exact (inner ids).map fun _ _ related => congruent.function ids related

theorem Handle.refused_inStep (congruent : Congruent R callable) (fault : Fault) :
    Build.InStep base base' R (Handle.refused fault) (Handle.refused fault) :=
  (Build.InStep.report _).bind fun _ _ _ => .pure (congruent.data (.literal .null))

theorem Handle.iterate_inStep {step step' : Handle → Handle} {start start' : Handle}
    (one : ∀ h h', Build.InStep base base' R h h' → Build.InStep base base' R (step h) (step' h'))
    (first : Build.InStep base base' R start start') (times : Nat) :
    Build.InStep base base' R (Handle.iterate step times start) (Handle.iterate step' times start') := by
  induction times with
  | zero => exact first
  | succ times ih => exact one _ _ ih

private theorem Scope.bindAll_inStep {bindings bindings' : List (String × Handle)} {scope scope' : Scope}
    (bound : Fields.Related (Build.InStep base base' R) bindings bindings')
    (outer : ∀ name, Build.InStep base base' R (scope name) (scope' name)) (name : String) :
    Build.InStep base base' R (scope.bindAll bindings name) (scope'.bindAll bindings' name) := by
  induction bound generalizing scope scope' with
  | nil => exact outer name
  | @cons entry entry' rest rest' first _ ih =>
    apply @ih (scope.bind entry.1 entry.2) (scope'.bind entry'.1 entry'.2)
    intro other
    rw [← first.1]
    by_cases same : other = entry.1
    · simpa [Scope.bind, same] using first.2
    · simpa [Scope.bind, same] using outer other

private theorem Scope.bindParams_inStep (congruent : Congruent R callable) (params : List String) (ids : List VarId)
    {scope scope' : Scope} (outer : ∀ name, Build.InStep base base' R (scope name) (scope' name)) (name : String) :
    Build.InStep base base' R (scope.bindAll (params.zip (ids.map Handle.var)) name)
      (scope'.bindAll (params.zip (ids.map Handle.var)) name) := by
  refine Scope.bindAll_inStep (List.forall₂_same.mpr fun entry member => ⟨rfl, ?_⟩) outer name
  obtain ⟨v, _, same⟩ := List.mem_map.mp (List.of_mem_zip member).2
  rw [← same]
  exact .pure (congruent.reference v)

/-- Attributes of one shape with related parts. -/
inductive Attribute.Related (S : α → β → Prop) : Attribute α → Attribute β → Prop where
  | field (key : String) {a : α} {b : β} : S a b → Related S (.field key a) (.field key b)
  | computed {k a : α} {l b : β} : S k l → S a b → Related S (.computed k a) (.computed l b)
  | absent : Related S .absent .absent

private theorem Attribute.pairs_inStep (congruent : Congruent R callable)
    {attributes attributes' : List (Attribute Handle)}
    (all : List.Forall₂ (Attribute.Related (Build.InStep base base' R)) attributes attributes') :
    List.Forall₂ (Build.InStep base base' R) (Attribute.pairs attributes) (Attribute.pairs attributes') := by
  induction all with
  | nil => exact .nil
  | cons first _ ih =>
    cases first with
    | field key value => exact .cons (.pure (congruent.data (.literal (.string key)))) (.cons value ih)
    | computed key value => exact .cons key (.cons value ih)
    | absent => exact ih

private theorem Attribute.fields?_related {S : α → β → Prop} {attributes : List (Attribute α)}
    {attributes' : List (Attribute β)} (all : List.Forall₂ (Attribute.Related S) attributes attributes') :
    Option.Rel (Fields.Related S) (Attribute.fields? attributes) (Attribute.fields? attributes') := by
  induction all with
  | nil => exact .some .nil
  | @cons _ _ rest rest' first _ ih =>
    cases first with
    | field key value =>
      simp only [Attribute.fields?]
      generalize Attribute.fields? rest = found at ih ⊢
      generalize Attribute.fields? rest' = found' at ih ⊢
      cases ih with
      | some others => exact .some (.cons ⟨rfl, value⟩ others)
      | none => exact .none
    | computed key value => exact .none
    | absent => exact ih

theorem Handle.object_inStep (congruent : Congruent R callable) {attributes attributes' : List (Attribute Handle)}
    (all : List.Forall₂ (Attribute.Related (Build.InStep base base' R)) attributes attributes') :
    Build.InStep base base' R (Handle.object attributes) (Handle.object attributes') := by
  have fields := Attribute.fields?_related all
  unfold Handle.object
  generalize Attribute.fields? attributes = found at fields ⊢
  generalize Attribute.fields? attributes' = found' at fields ⊢
  cases fields with
  | some related => exact Handle.record_inStep congruent related
  | none =>
    apply (Build.InStep.sequence (Attribute.pairs_inStep congruent all)).map
    intro ts ts' related
    exact (congruent.call congruent.objects.2 related .nil).1

end Rules

namespace Expr

/-- What takes the place of a table and of a label. -/
structure Rewriting where
  table : Option String → String → Expr
  note : String → Expr → Expr

mutual
/-- The expression with its tables and labels replaced, the innermost labels first. -/
def rewrite (r : Rewriting) : Expr → Expr
  | .value v => .value v
  | .term t => .term t
  | .handle name => .handle name
  | .share bindings body => .share (rewriteNamed r bindings) (rewrite r body)
  | .iterate count name step start => .iterate count name (rewrite r step) (rewrite r start)
  | .func params body => .func params (rewrite r body)
  | .note label inner => r.note label (rewrite r inner)
  | .table database name => r.table database name
  | .call op args options => .call op (rewriteArgs r args) (rewriteNamed r options)
  | .object attributes => .object (rewriteAttributes r attributes)
  | .mapping kind entries => .mapping kind (rewriteNamed r entries)
  | .unsupported operator operand => .unsupported operator (rewrite r operand)

def rewriteArgs (r : Rewriting) : List Expr → List Expr
  | [] => []
  | e :: rest => rewrite r e :: rewriteArgs r rest

def rewriteNamed (r : Rewriting) : List (String × Expr) → List (String × Expr)
  | [] => []
  | (key, e) :: rest => (key, rewrite r e) :: rewriteNamed r rest

def rewriteAttributes (r : Rewriting) : List (Attribute Expr) → List (Attribute Expr)
  | [] => []
  | .field key e :: rest => .field key (rewrite r e) :: rewriteAttributes r rest
  | .computed key e :: rest => .computed (rewrite r key) (rewrite r e) :: rewriteAttributes r rest
  | .absent :: rest => .absent :: rewriteAttributes r rest
end

mutual
/-- The operators that the expression calls by name. -/
def operators : Expr → List Operator
  | .value _ | .term _ | .handle _ | .table _ _ => []
  | .share bindings body => operatorsNamed bindings ++ operators body
  | .iterate _ _ step start => operators start ++ operators step
  | .func _ body => operators body
  | .note _ inner => operators inner
  | .call op args options => op :: (operatorsArgs args ++ operatorsNamed options)
  | .object attributes => operatorsAttributes attributes
  | .mapping _ entries => operatorsNamed entries
  | .unsupported _ operand => operators operand

def operatorsArgs : List Expr → List Operator
  | [] => []
  | e :: rest => operators e ++ operatorsArgs rest

def operatorsNamed : List (String × Expr) → List Operator
  | [] => []
  | (_, e) :: rest => operators e ++ operatorsNamed rest

def operatorsAttributes : List (Attribute Expr) → List Operator
  | [] => []
  | .field _ e :: rest => operators e ++ operatorsAttributes rest
  | .computed key e :: rest => operators key ++ operators e ++ operatorsAttributes rest
  | .absent :: rest => operatorsAttributes rest
end

/-- What replaces a table or a label evaluates like it. -/
structure Rewriting.Evaluates (r : Rewriting) : Prop where
  table : ∀ database name, (r.table database name).fault? = none
  note : ∀ label e, (r.note label e).fault? = e.fault?

mutual
theorem fault?_rewrite {r : Rewriting} (evaluates : r.Evaluates) : (e : Expr) → (e.rewrite r).fault? = e.fault?
  | .value _ | .term _ | .handle _ => rfl
  | .share bindings body => by
    simp only [rewrite, fault?, fault?_rewrite evaluates body, faultNamed?_rewrite evaluates bindings]
  | .iterate _ _ step start => by
    simp only [rewrite, fault?, fault?_rewrite evaluates step, fault?_rewrite evaluates start]
  | .func _ _ => rfl
  | .note label inner => by simp only [rewrite, fault?, evaluates.note, fault?_rewrite evaluates inner]
  | .table database name => evaluates.table database name
  | .call _ args options => by
    simp only [rewrite, fault?, faultArgs?_rewrite evaluates args, faultNamed?_rewrite evaluates options]
  | .object attributes => by simp only [rewrite, fault?, faultAttributes?_rewrite evaluates attributes]
  | .mapping _ entries => by simp only [rewrite, fault?, faultNamed?_rewrite evaluates entries]
  | .unsupported _ operand => by simp only [rewrite, fault?, fault?_rewrite evaluates operand]

private theorem faultArgs?_rewrite {r : Rewriting} (evaluates : r.Evaluates) :
    (args : List Expr) → faultArgs? (rewriteArgs r args) = faultArgs? args
  | [] => rfl
  | e :: rest => by
    simp only [rewriteArgs, faultArgs?, fault?_rewrite evaluates e, faultArgs?_rewrite evaluates rest]

private theorem faultNamed?_rewrite {r : Rewriting} (evaluates : r.Evaluates) :
    (entries : List (String × Expr)) → faultNamed? (rewriteNamed r entries) = faultNamed? entries
  | [] => rfl
  | (_, e) :: rest => by
    simp only [rewriteNamed, faultNamed?, fault?_rewrite evaluates e, faultNamed?_rewrite evaluates rest]

private theorem faultAttributes?_rewrite {r : Rewriting} (evaluates : r.Evaluates) :
    (attributes : List (Attribute Expr)) →
      faultAttributes? (rewriteAttributes r attributes) = faultAttributes? attributes
  | [] => rfl
  | .field _ e :: rest => by
    simp only [rewriteAttributes, faultAttributes?, fault?_rewrite evaluates e, faultAttributes?_rewrite evaluates rest]
  | .computed key e :: rest => by
    simp only [rewriteAttributes, faultAttributes?, fault?_rewrite evaluates key, fault?_rewrite evaluates e,
      faultAttributes?_rewrite evaluates rest]
  | .absent :: rest => faultAttributes?_rewrite evaluates rest
end

/-- What replaces a table or a label also builds in step with it. -/
structure Rewriting.Respects (r : Rewriting) (base base' : Context) (R : Term → Term → Prop) : Prop extends
    r.Evaluates where
  builtTable : ∀ database name scope,
    Build.InStep base base' R (Handle.table database name) ((r.table database name).denote scope)
  builtNote : ∀ label {h : Handle} {e : Expr} {scope : Scope}, Build.InStep base base' R h (e.denote scope) →
    Build.InStep base base' R (h.note label) ((r.note label e).denote scope)

variable {base base' : Context} {R : Term → Term → Prop} {callable : Operator → Prop} {r : Rewriting}

mutual
theorem denote_inStep (congruent : Congruent R callable) (respects : r.Respects base base' R) {scope scope' : Scope} :
    (e : Expr) → (∀ op ∈ e.operators, callable op) → (∀ t ∈ e.rawTerms, R t t) →
      (∀ name, Build.InStep base base' R (scope name) (scope' name)) →
      Build.InStep base base' R (e.denote scope) ((e.rewrite r).denote scope')
  | .value v, _, _, _ => by
    rw [rewrite, denote, denote]
    split
    next made => exact .pure (congruent.data (HostValue.toTerm_data made))
    next => exact .pure (congruent.data (.literal .null))
  | .term t, _, raw, _ => .pure (raw t (by simp [rawTerms]))
  | .handle name, _, _, outer => outer name
  | .share bindings body, called, raw, outer => by
    obtain ⟨calledBindings, calledBody⟩ := List.forall_mem_append.mp called
    obtain ⟨rawBindings, rawBody⟩ := List.forall_mem_append.mp raw
    have bound := denoteNamed_inStep congruent respects bindings calledBindings rawBindings outer
    exact denote_inStep congruent respects body calledBody rawBody (Scope.bindAll_inStep bound outer)
  | .iterate count name step start, called, raw, outer => by
    obtain ⟨calledStart, calledStep⟩ := List.forall_mem_append.mp called
    obtain ⟨rawStart, rawStep⟩ := List.forall_mem_append.mp raw
    have first := denote_inStep congruent respects start calledStart rawStart outer
    refine Handle.iterate_inStep (fun h h' related => ?_) first count
    have bound : Fields.Related (Build.InStep base base' R) [(name, h)] [(name, h')] := .cons ⟨rfl, related⟩ .nil
    exact denote_inStep congruent respects step calledStep rawStep (Scope.bindAll_inStep bound outer)
  | .func params body, called, raw, outer => by
    rw [rewrite, denote, denote, fault?_rewrite respects.toEvaluates]
    cases body.fault? with
    | none =>
      refine Handle.func_inStep congruent params.length fun ids => ?_
      exact denote_inStep congruent respects body called raw (Scope.bindParams_inStep congruent params ids outer)
    | some fault => exact Handle.func_inStep congruent params.length fun _ => Handle.refused_inStep congruent fault
  | .note label inner, called, raw, outer =>
    respects.builtNote label (denote_inStep congruent respects inner called raw outer)
  | .table database name, _, _, _ => respects.builtTable database name scope'
  | .call op args options, called, raw, outer => by
    obtain ⟨allowed, calledParts⟩ := List.forall_mem_cons.mp called
    obtain ⟨calledArgs, calledOptions⟩ := List.forall_mem_append.mp calledParts
    obtain ⟨rawArgs, rawOptions⟩ := List.forall_mem_append.mp raw
    have parts := denoteArgs_inStep congruent respects args calledArgs rawArgs outer
    have fields := denoteNamed_inStep congruent respects options calledOptions rawOptions outer
    exact Handle.call_inStep congruent allowed parts (OptionList.ofEntries_related fields)
  | .object attributes, called, raw, outer =>
    Handle.object_inStep congruent (denoteAttributes_inStep congruent respects attributes called raw outer)
  | .mapping kind entries, called, raw, outer => by
    apply Handle.record_inStep congruent
    rw [kind.visit_eq, kind.visit_eq]
    exact (denoteNamed_inStep congruent respects entries called raw outer).ofEntries
  | .unsupported _ _, _, _, _ => .pure (congruent.data (.literal .null))

private theorem denoteArgs_inStep (congruent : Congruent R callable) (respects : r.Respects base base' R)
    {scope scope' : Scope} :
    (args : List Expr) → (∀ op ∈ operatorsArgs args, callable op) → (∀ t ∈ rawTermsArgs args, R t t) →
      (∀ name, Build.InStep base base' R (scope name) (scope' name)) →
      List.Forall₂ (Build.InStep base base' R) (denoteArgs scope args) (denoteArgs scope' (rewriteArgs r args))
  | [], _, _, _ => .nil
  | e :: rest, called, raw, outer => by
    obtain ⟨calledFirst, calledRest⟩ := List.forall_mem_append.mp called
    obtain ⟨rawFirst, rawRest⟩ := List.forall_mem_append.mp raw
    exact .cons (denote_inStep congruent respects e calledFirst rawFirst outer)
      (denoteArgs_inStep congruent respects rest calledRest rawRest outer)

theorem denoteNamed_inStep (congruent : Congruent R callable) (respects : r.Respects base base' R)
    {scope scope' : Scope} :
    (entries : List (String × Expr)) → (∀ op ∈ operatorsNamed entries, callable op) →
      (∀ t ∈ rawTermsNamed entries, R t t) → (∀ name, Build.InStep base base' R (scope name) (scope' name)) →
      Fields.Related (Build.InStep base base' R) (denoteNamed scope entries)
        (denoteNamed scope' (rewriteNamed r entries))
  | [], _, _, _ => .nil
  | (_, e) :: rest, called, raw, outer => by
    obtain ⟨calledFirst, calledRest⟩ := List.forall_mem_append.mp called
    obtain ⟨rawFirst, rawRest⟩ := List.forall_mem_append.mp raw
    exact .cons ⟨rfl, denote_inStep congruent respects e calledFirst rawFirst outer⟩
      (denoteNamed_inStep congruent respects rest calledRest rawRest outer)

private theorem denoteAttributes_inStep (congruent : Congruent R callable) (respects : r.Respects base base' R)
    {scope scope' : Scope} :
    (attributes : List (Attribute Expr)) → (∀ op ∈ operatorsAttributes attributes, callable op) →
      (∀ t ∈ rawTermsAttributes attributes, R t t) → (∀ name, Build.InStep base base' R (scope name) (scope' name)) →
      List.Forall₂ (Attribute.Related (Build.InStep base base' R)) (denoteAttributes scope attributes)
        (denoteAttributes scope' (rewriteAttributes r attributes))
  | [], _, _, _ => .nil
  | .field key e :: rest, called, raw, outer => by
    obtain ⟨calledFirst, calledRest⟩ := List.forall_mem_append.mp called
    obtain ⟨rawFirst, rawRest⟩ := List.forall_mem_append.mp raw
    exact .cons (.field key (denote_inStep congruent respects e calledFirst rawFirst outer))
      (denoteAttributes_inStep congruent respects rest calledRest rawRest outer)
  | .computed key e :: rest, called, raw, outer => by
    obtain ⟨calledFirst, calledRest⟩ := List.forall_mem_append.mp called
    obtain ⟨calledKey, calledValue⟩ := List.forall_mem_append.mp calledFirst
    obtain ⟨rawFirst, rawRest⟩ := List.forall_mem_append.mp raw
    obtain ⟨rawKey, rawValue⟩ := List.forall_mem_append.mp rawFirst
    exact .cons (.computed (denote_inStep congruent respects key calledKey rawKey outer)
        (denote_inStep congruent respects e calledValue rawValue outer))
      (denoteAttributes_inStep congruent respects rest calledRest rawRest outer)
  | .absent :: rest, called, raw, outer =>
    .cons .absent (denoteAttributes_inStep congruent respects rest called raw outer)
end

end Expr

end QueryTerms
