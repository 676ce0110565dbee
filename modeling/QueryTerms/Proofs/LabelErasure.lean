import QueryTerms.Proofs.Labels
import QueryTerms.Proofs.Envelope

/-! Labels and the wire. An expression with its labels removed builds terms that differ from those of the expression in
nothing but labels, whatever is inlined on the way, and the query that starts its evaluation is the same. -/

namespace QueryTerms
open Term

namespace Term

/-- Terms that differ in labels only, none of which hides a reference or a function. -/
structure Alike (t t' : Term) : Prop where
  left : t.Transparent
  right : t'.Transparent
  erased : t.erase = t'.erase

namespace Alike

theorem refl {t : Term} (transparent : t.Transparent) : Alike t t :=
  ⟨transparent, transparent, rfl⟩

theorem encode {t t' : Term} (alike : Alike t t') : t.encode = t'.encode := by
  rw [← encode_erase t, alike.erased, encode_erase]

theorem args {args args' : List Term} (alike : List.Forall₂ Alike args args') :
    (∀ t ∈ args, t.Transparent) ∧ (∀ t ∈ args', t.Transparent) ∧ args.map erase = args'.map erase := by
  induction alike with
  | nil => simp
  | cons first _ ih =>
    obtain ⟨left, right, erased⟩ := ih
    refine ⟨List.forall_mem_cons.mpr ⟨first.left, left⟩, List.forall_mem_cons.mpr ⟨first.right, right⟩, ?_⟩
    rw [List.map_cons, List.map_cons, first.erased, erased]

theorem named {named named' : Fields Term} (alike : Fields.Related Alike named named') :
    (∀ field ∈ named, field.2.Transparent) ∧ (∀ field ∈ named', field.2.Transparent) ∧
      Fields.mapValues erase named = Fields.mapValues erase named' := by
  induction alike with
  | nil => simp
  | cons first _ ih =>
    obtain ⟨left, right, erased⟩ := ih
    refine ⟨List.forall_mem_cons.mpr ⟨first.2.left, left⟩, List.forall_mem_cons.mpr ⟨first.2.right, right⟩, ?_⟩
    rw [Fields.mapValues_cons, Fields.mapValues_cons, first.1, first.2.erased, erased]

theorem encodeNamed {named named' : Fields Term} (alike : Fields.Related Alike named named') :
    Term.encodeNamed named = Term.encodeNamed named' := by
  rw [← encodeNamed_eraseNamed named, ← encodeNamed_eraseNamed named', eraseNamed_eq, eraseNamed_eq,
    (Alike.named alike).2.2]

end Alike

theorem congruent_alike : Congruent Alike fun op => op ≠ .var ∧ op ≠ .func where
  data data := .refl data.transparent
  reference v := .refl (.var v)
  function params _ _ alike :=
    ⟨Transparent.func_iff.mpr alike.left, Transparent.func_iff.mpr alike.right, by
      rw [erase_func, erase_func, alike.erased]⟩
  objects := by decide
  call := by
    intro op args args' named named' allowed alikeArgs alikeNamed
    obtain ⟨left, right, erased⟩ := Alike.args alikeArgs
    obtain ⟨leftNamed, rightNamed, erasedNamed⟩ := Alike.named alikeNamed
    refine ⟨⟨.makeCall allowed.1 allowed.2 left leftNamed, .makeCall allowed.1 allowed.2 right rightNamed, ?_⟩, ?_⟩
    · rw [← makeCall_erase left, ← makeCall_erase right, erased, erasedNamed]
    · have same : (inlined? op (args.map erase) (Fields.mapValues erase named)).map Prod.fst =
          (inlined? op (args'.map erase) (Fields.mapValues erase named')).map Prod.fst := by
        rw [erased, erasedNamed]
      rwa [inlined?_erase left, inlined?_erase right, Option.map_map, Option.map_map] at same

end Term

namespace Expr

/-- The removal of labels. -/
def unlabelling : Rewriting where
  table := .table
  note _ inner := inner

/-- The expression without its labels. -/
def eraseNotes : Expr → Expr := rewrite unlabelling

/-- The expression calls nothing that makes a reference or a function, and in the terms that are written out in it no
label hides one. -/
structure Transparent (e : Expr) : Prop where
  called : ∀ op ∈ e.operators, op ≠ .var ∧ op ≠ .func
  raw : ∀ t ∈ e.rawTerms, t.Transparent

private theorem unlabelling_evaluates : unlabelling.Evaluates :=
  ⟨fun _ _ => rfl, fun _ _ => rfl⟩

private theorem unlabelling_respects (context : Context) : unlabelling.Respects context context Alike where
  toEvaluates := unlabelling_evaluates
  builtTable database name _ n := by
    have built := Handle.table_eq database name { context with allocated := n }
    have data := Handle.table_data database name { context with allocated := n }
    rw [built] at data
    exact ⟨n, _, _, [], .refl data.transparent, built, built⟩
  builtNote label h e scope alike n := by
    obtain ⟨m, t, t', notices, same, ran, ran'⟩ := alike n
    refine ⟨m, .annotated label t, t', notices, ⟨.annotated label same.left, same.right, ?_⟩, ?_, ran'⟩
    · rw [erase_annotated, same.erased]
    · simp only [Handle.note, Bind.bind, ran, Pure.pure, List.append_nil]

theorem denote_eraseNotes_inStep {e : Expr} (transparent : e.Transparent) {terms : String → Term}
    (outer : ∀ name, (terms name).Transparent) (context : Context) :
    Build.InStep context context Alike (e.denote fun name => .constant (terms name))
      (e.eraseNotes.denote fun name => .constant (terms name)) :=
  denote_inStep congruent_alike (unlabelling_respects context) e transparent.called
    (fun t member => .refl (transparent.raw t member)) fun name => .pure (.refl (outer name))

private theorem denoteNamed_eraseNotes_inStep {entries : List (String × Expr)}
    (transparent : ∀ entry ∈ entries, entry.2.Transparent) {terms : String → Term}
    (outer : ∀ name, (terms name).Transparent) (context : Context) :
    Fields.Related (Build.InStep context context Alike) (denoteNamed (fun name => .constant (terms name)) entries)
      (denoteNamed (fun name => .constant (terms name)) (Fields.mapValues eraseNotes entries)) := by
  induction entries with
  | nil => exact .nil
  | cons entry rest ih =>
    obtain ⟨here, others⟩ := List.forall_mem_cons.mp transparent
    exact .cons ⟨rfl, denote_eraseNotes_inStep here outer context⟩ (ih others)

private theorem faultNamed?_eraseNotes (entries : List (String × Expr)) :
    faultNamed? (Fields.mapValues eraseNotes entries) = faultNamed? entries := by
  induction entries with
  | nil => rfl
  | cons entry rest ih =>
    rw [Fields.mapValues_cons, faultNamed?, faultNamed?, ih, eraseNotes, fault?_rewrite unlabelling_evaluates]

end Expr

namespace Query

private theorem withDatabase_alike {fields fields' : Fields Term} (alike : Fields.Related Alike fields fields')
    (database : String) : Fields.Related Alike (withDatabase database fields) (withDatabase database fields') := by
  have same : Fields.contains "db" fields = Fields.contains "db" fields' := by
    rw [Bool.eq_iff_iff, Fields.contains_iff, Fields.contains_iff, alike.keys]
  rw [withDatabase, withDatabase, same]
  split
  · exact alike
  · have data : Data (.database database) := .call (by decide) (by decide) (by decide) (by simp [Data.literal])
    exact alike.insert rfl (.refl data.transparent)

/-- Roots and options that run in step, with results that differ in labels only, start the same query. -/
theorem start_alike {context : Context} {root root' : Handle} {options options' : OptionList Handle}
    (roots : Build.InStep context context Alike root root')
    (fields : Fields.Related (Build.InStep context context Alike) options.entries options'.entries) :
    (start root options).run context = (start root' options').run context := by
  obtain ⟨middle, t, t', notices, alike, ran, ran'⟩ := roots context.allocated
  obtain ⟨final, named, named', more, alikeNamed, built, built'⟩ := Build.InStep.fields fields middle
  rw [start_run ran built, start_run ran' built', alike.encode,
    Alike.encodeNamed (withDatabase_alike alikeNamed context.database)]

/-- Options that are the same on both sides may do as they please. -/
private theorem start_root_alike {context : Context} {root root' : Handle}
    (roots : Build.InStep context context Alike root root') (options : OptionList Handle) :
    (start root options).run context = (start root' options).run context := by
  obtain ⟨middle, t, t', notices, alike, ran, ran'⟩ := roots context.allocated
  rw [start_run ran rfl, start_run ran' rfl, alike.encode]

end Query

namespace Proofs.LabelErasure

/-- Without its labels, an expression starts the query that it starts with them, and as many variables are drawn for it.
The options may be any, and those that are written as expressions may lose their labels, too. -/
theorem start_eraseNotes {e : Expr} (transparent : e.Transparent) {terms : String → Term}
    (outer : ∀ name, (terms name).Transparent) (context : Context) :
    let scope : Scope := fun name => .constant (terms name)
    e.eraseNotes.fault? = e.fault? ∧
    (∀ options : OptionList Handle, (Query.start (e.eraseNotes.denote scope) options).run context =
      (Query.start (e.denote scope) options).run context) ∧
    ∀ entries : List (String × Expr), (∀ entry ∈ entries, entry.2.Transparent) →
      let erased := Fields.mapValues Expr.eraseNotes entries
      Expr.faultNamed? erased = Expr.faultNamed? entries ∧
      (Query.start (e.eraseNotes.denote scope) (.ofEntries (Expr.denoteNamed scope erased))).run context =
        (Query.start (e.denote scope) (.ofEntries (Expr.denoteNamed scope entries))).run context := by
  intro scope
  have roots := Expr.denote_eraseNotes_inStep transparent outer context
  refine ⟨Expr.fault?_rewrite Expr.unlabelling_evaluates e, fun options => ?_, fun entries labelled => ?_⟩
  · exact (Query.start_root_alike roots options).symm
  · have fields := Expr.denoteNamed_eraseNotes_inStep labelled outer context
    exact ⟨Expr.faultNamed?_eraseNotes entries, (Query.start_alike roots (OptionList.ofEntries_related fields)).symm⟩

theorem start_eraseNotes_everywhere :
    let labelled : Expr := .func ["y"] (.note "call" (.apply
      (.note "function" (.func ["x"] (.note "body" (.plain .add [.note "number" (.handle "x"), .table none "t"]))))
      [.note "argument" (.handle "y")]))
    let bare : Expr := .func ["y"] (.apply (.func ["x"] (.plain .add [.handle "x", .table none "t"])) [.handle "y"])
    let options (e : Expr) : OptionList Handle := .ofEntries (Expr.denoteNamed .empty [("reduction", e)])
    labelled.Transparent ∧ labelled.eraseNotes = bare ∧
    (Query.start (bare.denote .empty) (options bare)).run { allocated := 3 } =
      (Query.start (labelled.denote .empty) (options labelled)).run { allocated := 3 } := by
  intro labelled bare options
  have transparent : labelled.Transparent := ⟨by decide, fun t member => by cases member⟩
  obtain ⟨_, _, all⟩ := start_eraseNotes transparent (fun _ => .literal .null) { allocated := 3 }
  exact ⟨transparent, rfl, (all [("reduction", labelled)] (by simpa using transparent)).2⟩

end Proofs.LabelErasure

end QueryTerms
