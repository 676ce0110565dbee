import QueryTerms.Proofs.Positions

/-! Renaming is exact. It is refused only where a function would capture a renamed variable, it replaces the free
occurrences of the variables in the map and nothing else, and every occurrence keeps its binder. -/

namespace QueryTerms.Proofs.RenamingExact
open Term

/-- A free occurrence of a variable in the map lies under a function that binds its target. -/
def Captured (m : Renaming) (t : Term) : Prop :=
  ∃ p v w, t.FreeAt p v ∧ m.lookup v = some w ∧ t.Under p w

/-- What stands at a node, its parts left out. -/
inductive Head where
  | literal (value : Datum)
  | annotated (note : String)
  | call (op : Operator) (arity : Nat) (keys : List String)

def head : Term → Head
  | .literal d => .literal d
  | .annotated note _ => .annotated note
  | .call op args named => .call op args.length (named.map Prod.fst)

/-- A node that a renaming keeps: its parts are renamed by the map without the variables that it binds. -/
structure Kept (m : Renaming) (t t' : Term) : Prop where
  unmapped : ∀ v w, t = var v → m.lookup v ≠ some w
  head : head t' = head t
  bound : t'.bound = t.bound
  children : ∀ step, Option.Rel (fun c c' => rename (m.without t.bound) c = some c') (t.child? step) (t'.child? step)

private theorem rel_getElem? {α β : Type} {R : α → β → Prop} {xs : List α} {ys : List β}
    (related : List.Forall₂ R xs ys) (i : Nat) : Option.Rel R xs[i]? ys[i]? := by
  induction related generalizing i with
  | nil => simp
  | cons first rest ih =>
    cases i with
    | zero => simpa using Option.Rel.some first
    | succ i => simpa using ih i

/-- A renaming replaces a reference or keeps the node. -/
private theorem rename_node {m : Renaming} {t t' : Term} (renamed : rename m t = some t') :
    (∃ v w, t = var v ∧ m.lookup v = some w ∧ t' = var w) ∨ Kept m t t' := by
  induction t using formInduction with
  | literal d =>
    obtain rfl := Option.some.inj ((rename_literal m d).symm.trans renamed)
    exact .inr ⟨fun v w same => (by cases same), rfl, rfl, fun step => .none⟩
  | annotated note inner =>
    rw [rename_annotated, Option.map_eq_some_iff] at renamed
    obtain ⟨inner', renamed, rfl⟩ := renamed
    refine .inr ⟨fun v w same => (by cases same), rfl, rfl, fun step => ?_⟩
    cases step with
    | label => exact .some (by simpa [Renaming.without_nil] using renamed)
    | arg i => exact .none
    | field i => exact .none
  | reference v =>
    rw [rename_var] at renamed
    cases found : m.lookup v with
    | some w =>
      rw [found] at renamed
      exact .inl ⟨v, w, rfl, found, (Option.some.inj renamed).symm⟩
    | none =>
      rw [found, Option.getD_none] at renamed
      obtain rfl := Option.some.inj renamed
      refine .inr ⟨fun u w same => ?_, rfl, rfl, fun step => ?_⟩
      · obtain rfl := var_inj.mp same
        simp [found]
      · cases child : (var v).child? step with
        | none => exact .none
        | some c =>
          obtain ⟨d, rfl⟩ := child?_var child
          exact Option.Rel.some (rename_literal _ d)
  | function params body =>
    obtain ⟨_, body', bodyRenamed, rfl⟩ := rename_func_eq_some_iff.mp renamed
    refine .inr ⟨fun v w same => (by cases same), rfl, by simp, fun step => ?_⟩
    rw [bound_func]
    match step with
    | .arg 0 => exact .some (rename_literal _ _)
    | .arg 1 => exact .some bodyRenamed
    | .arg (i + 2) => exact .none
    | .field i => exact .none
    | .label => exact .none
  | plain op args named plain =>
    obtain ⟨args', named', rfl, parts, fields⟩ := (rename_plain_eq_some_iff plain).mp renamed
    have keys : named.map Prod.fst = named'.map Prod.fst := by
      rw [← List.forall₂_eq_eq_eq, List.forall₂_map_left_iff, List.forall₂_map_right_iff]
      exact fields.imp fun _ _ same => same.1
    have values : List.Forall₂ (fun c c' => rename m c = some c') (named.map Prod.snd) (named'.map Prod.snd) := by
      rw [List.forall₂_map_left_iff, List.forall₂_map_right_iff]
      exact fields.imp fun _ _ same => same.2
    refine .inr ⟨fun v w same => absurd same (role_plain_ne_var plain v), ?_, ?_, fun step => ?_⟩
    · simp [RenamingExact.head, parts.length_eq, keys]
    · rw [bound_plain plain, bound_plain (role_renamed_plain plain parts fields)]
    · rw [bound_plain plain, Renaming.without_nil]
      cases step with
      | arg i => exact rel_getElem? parts i
      | field i => simpa only [child?, List.getElem?_map] using rel_getElem? values i
      | label => exact .none

private theorem Kept.forward {m : Renaming} {t t' c : Term} (kept : Kept m t t') {step : Step}
    (child : t.child? step = some c) :
    ∃ c', t'.child? step = some c' ∧ rename (m.without t.bound) c = some c' := by
  have part := kept.children step
  rw [child] at part
  cases other : t'.child? step with
  | none => simp [other] at part
  | some c' => exact ⟨c', rfl, by simpa [other] using part⟩

private theorem Kept.backward {m : Renaming} {t t' c' : Term} (kept : Kept m t t') {step : Step}
    (child : t'.child? step = some c') :
    ∃ c, t.child? step = some c ∧ rename (m.without t.bound) c = some c' := by
  have part := kept.children step
  rw [child] at part
  cases other : t.child? step with
  | none => simp [other] at part
  | some c => exact ⟨c, rfl, by simpa [other] using part⟩

private theorem at?_var_cons {u : VarId} {step : Step} {p : Position} {op : Operator} {args : List Term}
    {named : List (String × Term)} : (var u).at? (step :: p) ≠ some (call op args named) := by
  intro found
  obtain ⟨c, child, found⟩ := at?_cons.mp found
  obtain ⟨d, rfl⟩ := child?_var child
  exact at?_literal_ne_call found

/-- A renaming leaves every function where it was, with its parameters. -/
theorem binds_rename {m : Renaming} {t t' : Term} (renamed : rename m t = some t') {q : Position} {v : VarId} :
    t'.Binds q v ↔ t.Binds q v := by
  induction q generalizing m t t' with
  | nil =>
    rw [binds_nil, binds_nil]
    rcases rename_node renamed with ⟨u, w, rfl, _, rfl⟩ | kept
    · simp
    · rw [kept.bound]
  | cons step q ih =>
    rcases rename_node renamed with ⟨u, w, rfl, _, rfl⟩ | kept
    · constructor
      · intro ⟨params, body, found, _⟩
        exact absurd found at?_var_cons
      · intro ⟨params, body, found, _⟩
        exact absurd found at?_var_cons
    · rw [binds_cons, binds_cons]
      constructor
      · intro ⟨c', child, binds⟩
        obtain ⟨c, child, renamed⟩ := kept.backward child
        exact ⟨c, child, (ih renamed).mp binds⟩
      · intro ⟨c, child, binds⟩
        obtain ⟨c', child, renamed⟩ := kept.forward child
        exact ⟨c', child, (ih renamed).mpr binds⟩

theorem under_rename {m : Renaming} {t t' : Term} (renamed : rename m t = some t') {p : Position} {v : VarId} :
    t'.Under p v ↔ t.Under p v :=
  exists_congr fun _ => and_congr_right fun _ => binds_rename renamed

/-- A reference to a variable that is bound above it stays, and any other one is replaced by its target. -/
theorem reference_rename {m : Renaming} {t t' : Term} (renamed : rename m t = some t') {p : Position} {v : VarId}
    (found : t.at? p = some (var v)) :
    (t.Under p v → t'.at? p = some (var v)) ∧
      (¬ t.Under p v → t'.at? p = some (var ((m.lookup v).getD v))) := by
  induction p generalizing m t t' with
  | nil =>
    obtain rfl := Option.some.inj found
    rw [rename_var] at renamed
    exact ⟨fun under => absurd under (not_under_nil _ v), fun _ => renamed.symm⟩
  | cons step p ih =>
    rcases rename_node renamed with ⟨u, w, rfl, _, rfl⟩ | kept
    · exact absurd found at?_var_cons
    obtain ⟨c, child, found⟩ := at?_cons.mp found
    obtain ⟨c', child', renamed⟩ := kept.forward child
    obtain ⟨stays, replaced⟩ := ih renamed found
    have under : t.Under (step :: p) v ↔ v ∈ t.bound ∨ c.Under p v := by
      rw [under_cons, child]
      simp
    rw [under, at?, child', Option.bind_some]
    rw [Renaming.lookup_without] at replaced
    by_cases inside : v ∈ t.bound
    · simp only [inside, ↓reduceIte, Option.getD_none] at replaced
      refine ⟨fun _ => ?_, fun free => absurd (.inl inside) free⟩
      by_cases deeper : c.Under p v
      · exact stays deeper
      · exact replaced deeper
    · simp only [inside, ↓reduceIte, false_or] at replaced ⊢
      exact ⟨stays, replaced⟩

private theorem reference_of_renamed {m : Renaming} {t t' : Term} (renamed : rename m t = some t') {p : Position}
    {v' : VarId} (found : t'.at? p = some (var v')) : ∃ v, t.at? p = some (var v) := by
  induction p generalizing m t t' with
  | nil =>
    obtain rfl := Option.some.inj found
    obtain ⟨v, rfl⟩ := rename_eq_var renamed
    exact ⟨v, rfl⟩
  | cons step p ih =>
    rcases rename_node renamed with ⟨u, w, rfl, _, rfl⟩ | kept
    · exact absurd found at?_var_cons
    obtain ⟨c', child', found⟩ := at?_cons.mp found
    obtain ⟨c, child, renamed⟩ := kept.backward child'
    obtain ⟨v, found⟩ := ih renamed found
    exact ⟨v, at?_cons.mpr ⟨c, child, found⟩⟩

/-- Where no occurrence at or above a position is replaced, the same stands there as before. -/
theorem head_rename {m : Renaming} {t t' : Term} (renamed : rename m t = some t') {p : Position}
    (untouched : ∀ q v w, q <+: p → t.FreeAt q v → m.lookup v ≠ some w) :
    (t'.at? p).map head = (t.at? p).map head := by
  induction p generalizing m t t' with
  | nil =>
    rcases rename_node renamed with ⟨v, w, rfl, found, rfl⟩ | kept
    · exact absurd found (untouched [] v w (List.nil_prefix) (freeAt_nil.mpr rfl))
    · simp [at?, kept.head]
  | cons step p ih =>
    rcases rename_node renamed with ⟨v, w, rfl, found, rfl⟩ | kept
    · exact absurd found (untouched [] v w (List.nil_prefix) (freeAt_nil.mpr rfl))
    cases child : t.child? step with
    | none =>
      cases child' : t'.child? step with
      | none => simp [at?, child, child']
      | some c' =>
        obtain ⟨c, found, _⟩ := kept.backward child'
        simp [child] at found
    | some c =>
      obtain ⟨c', child', renamed⟩ := kept.forward child
      simp only [at?, child, child', Option.bind_some]
      apply ih renamed
      intro q v w above free found
      obtain ⟨outside, found⟩ := Renaming.lookup_without_eq_some_iff.mp found
      exact untouched (step :: q) v w (List.cons_prefix_cons.mpr ⟨rfl, above⟩)
        (freeAt_cons.mpr ⟨outside, c, child, free⟩) found

/-- A renaming that is not refused captures nothing. -/
private theorem not_under_target {m : Renaming} {t t' : Term} (renamed : rename m t = some t') {p : Position}
    {v w : VarId} (free : t.FreeAt p v) (found : m.lookup v = some w) : ¬ t.Under p w := by
  induction p generalizing m t t' with
  | nil => exact not_under_nil t w
  | cons step p ih =>
    obtain ⟨outside, c, child, inner⟩ := freeAt_cons.mp free
    rcases rename_node renamed with ⟨u, _, rfl, _, rfl⟩ | kept
    · obtain ⟨d, rfl⟩ := child?_var child
      exact absurd inner.1 at?_literal_ne_call
    obtain ⟨c', child', partRenamed⟩ := kept.forward child
    intro under
    rcases under_cons.mp under with inside | ⟨_, same, deeper⟩
    · obtain ⟨params, body, root, target⟩ := binds_nil.mpr inside
      obtain rfl := Option.some.inj root
      rw [bound_func] at outside
      rcases child?_func child with ⟨d, rfl⟩ | ⟨_, rfl⟩
      · exact at?_literal_ne_call inner.1
      · have inBody := occursFree_iff_freeAt.mpr ⟨p, inner⟩
        exact (rename_func_eq_some_iff.mp renamed).1 v w outside found inBody target
    · obtain rfl := Option.some.inj (child.symm.trans same)
      exact ih partRenamed inner (Renaming.lookup_without_eq_some_iff.mpr ⟨outside, found⟩) deeper

private theorem Captured.of_child {m : Renaming} {t c : Term} (step : Step) (child : t.child? step = some c)
    (captured : Captured (m.without t.bound) c) : Captured m t := by
  obtain ⟨p, v, w, free, found, under⟩ := captured
  obtain ⟨outside, found⟩ := Renaming.lookup_without_eq_some_iff.mp found
  exact ⟨step :: p, v, w, freeAt_cons.mpr ⟨outside, c, child, free⟩, found,
    under_cons.mpr (.inr ⟨c, child, under⟩)⟩

theorem forall₂_of_exists {α β : Type} {R : α → β → Prop} (xs : List α) (each : ∀ x ∈ xs, ∃ y, R x y) :
    ∃ ys, List.Forall₂ R xs ys := by
  induction xs with
  | nil => exact ⟨[], .nil⟩
  | cons x xs ih =>
    obtain ⟨y, first⟩ := each x (by simp)
    obtain ⟨ys, rest⟩ := ih fun x member => each x (by simp [member])
    exact ⟨y :: ys, .cons first rest⟩

/-- A renaming is not refused unless something would be captured. -/
theorem rename_of_not_captured (t : Term) (m : Renaming) (safe : ¬ Captured m t) : ∃ t', rename m t = some t' := by
  induction t using formInduction generalizing m with
  | literal d => exact ⟨_, rename_literal m d⟩
  | annotated note inner ih =>
    have part : ¬ Captured m inner := fun captured =>
      safe (Captured.of_child .label rfl (by simpa [Renaming.without_nil] using captured))
    obtain ⟨inner', renamed⟩ := ih m part
    exact ⟨.annotated note inner', by simp [renamed]⟩
  | reference v => exact ⟨_, rename_var m v⟩
  | function params body ih =>
    have part : ¬ Captured (m.without params) body := fun captured =>
      safe (Captured.of_child (.arg 1) rfl (by simpa using captured))
    obtain ⟨body', renamed⟩ := ih _ part
    refine ⟨func params body', rename_func_eq_some_iff.mpr ⟨?_, body', renamed, rfl⟩⟩
    intro v w outside found inside target
    obtain ⟨p, free⟩ := occursFree_iff_freeAt.mp inside
    exact safe ⟨.arg 1 :: p, v, w, freeAt_cons.mpr ⟨by simpa using outside, body, rfl, free⟩, found,
      under_cons.mpr (.inl (by simpa using target))⟩
  | plain op args named plain parts fields =>
    have child : ∀ c, (∃ step, (Term.call op args named).child? step = some c) → ¬ Captured m c := by
      intro c ⟨step, child⟩ captured
      exact safe (Captured.of_child step child (by simpa [bound_plain plain, Renaming.without_nil] using captured))
    have part : ∀ t ∈ args, ∃ t', rename m t = some t' := fun t member =>
      parts t member m (child t (exists_child?_call.mpr (.inl member)))
    obtain ⟨args', partsRenamed⟩ := forall₂_of_exists args part
    have field : ∀ f ∈ named, ∃ f' : String × Term, f.1 = f'.1 ∧ rename m f.2 = some f'.2 := by
      intro f member
      obtain ⟨t', renamed⟩ := fields f member m (child f.2 (exists_child?_call.mpr (.inr ⟨f, member, rfl⟩)))
      exact ⟨(f.1, t'), rfl, renamed⟩
    obtain ⟨named', fieldsRenamed⟩ := forall₂_of_exists named field
    exact ⟨.call op args' named',
      (rename_plain_eq_some_iff plain).mpr ⟨args', named', rfl, partsRenamed, fieldsRenamed⟩⟩

theorem rename_eq_none_iff {m : Renaming} {t : Term} : rename m t = none ↔ Captured m t := by
  constructor
  · intro refused
    by_contra safe
    obtain ⟨t', renamed⟩ := rename_of_not_captured t m safe
    rw [refused] at renamed
    cases renamed
  · intro ⟨p, v, w, free, found, under⟩
    cases renamed : rename m t with
    | none => rfl
    | some t' => exact absurd under (not_under_target renamed free found)

/-- No function binds what a free occurrence is renamed to. -/
theorem not_under_renamed {m : Renaming} {t t' : Term} (renamed : rename m t = some t') {p : Position} {v : VarId}
    (free : t.FreeAt p v) : ¬ t.Under p ((m.lookup v).getD v) := by
  cases target : m.lookup v with
  | none => exact free.2
  | some w => exact not_under_target renamed free target

/-- A reference after the renaming is one that was bound and stayed or one that was free and got its target. -/
private theorem reference_origin {m : Renaming} {t t' : Term} (renamed : rename m t = some t') {p : Position}
    {v' : VarId} (found' : t'.at? p = some (var v')) :
    t.at? p = some (var v') ∧ t.Under p v' ∨ ∃ v, t.FreeAt p v ∧ v' = (m.lookup v).getD v := by
  obtain ⟨v, found⟩ := reference_of_renamed renamed found'
  by_cases under : t.Under p v
  · have stayed := (reference_rename renamed found).1 under
    obtain rfl := var_inj.mp (Option.some.inj (found'.symm.trans stayed))
    exact .inl ⟨found, under⟩
  · have replaced := (reference_rename renamed found).2 under
    exact .inr ⟨v, ⟨found, under⟩, var_inj.mp (Option.some.inj (found'.symm.trans replaced))⟩

theorem freeAt_rename {m : Renaming} {t t' : Term} (renamed : rename m t = some t') (p : Position) :
    (∃ v, t'.FreeAt p v) ↔ ∃ v, t.FreeAt p v := by
  constructor
  · intro ⟨v', found', free'⟩
    rcases reference_origin renamed found' with ⟨_, under⟩ | ⟨v, free, _⟩
    · exact absurd ((under_rename renamed).mpr under) free'
    · exact ⟨v, free⟩
  · intro ⟨v, free⟩
    refine ⟨_, (reference_rename renamed free.1).2 free.2, ?_⟩
    rw [under_rename renamed]
    exact not_under_renamed renamed free

theorem boundBy_rename {m : Renaming} {t t' : Term} (renamed : rename m t = some t') (p q : Position) :
    t'.BoundBy p q ↔ t.BoundBy p q := by
  constructor
  · intro ⟨v', found', above, binds', innermost⟩
    have binds : t.Binds q v' := (binds_rename renamed).mp binds'
    rcases reference_origin renamed found' with ⟨found, _⟩ | ⟨v, free, rfl⟩
    · exact ⟨v', found, above, binds, fun r after before binds =>
        innermost r after before ((binds_rename renamed).mpr binds)⟩
    · exact absurd ⟨q, above, binds⟩ (not_under_renamed renamed free)
  · intro ⟨v, found, above, binds, innermost⟩
    exact ⟨v, (reference_rename renamed found).1 ⟨q, above, binds⟩, above, (binds_rename renamed).mpr binds,
      fun r after before binds => innermost r after before ((binds_rename renamed).mp binds)⟩

/-- Renaming, by positions. It is refused if a free occurrence of a variable in the map lies under a function that
binds the target. Otherwise each of these occurrences becomes a reference to the target, the same stands as
before at every position that is not inside one of them, and no occurrence changes its binder. -/
theorem rename_exact (m : Renaming) (t : Term) :
    (rename m t = none ↔ ∃ p v w, t.FreeAt p v ∧ m.lookup v = some w ∧ t.Under p w) ∧
    ∀ t', rename m t = some t' →
      (∀ p v w, t.FreeAt p v → m.lookup v = some w → t'.at? p = some (var w)) ∧
      (∀ p, (∀ q v w, q <+: p → t.FreeAt q v → m.lookup v ≠ some w) →
        (t'.at? p).map head = (t.at? p).map head) ∧
      (∀ p q, t'.BoundBy p q ↔ t.BoundBy p q) ∧
      ∀ p, (∃ v, t'.FreeAt p v) ↔ ∃ v, t.FreeAt p v := by
  refine ⟨rename_eq_none_iff, fun t' renamed => ⟨?_, fun p untouched => head_rename renamed untouched,
    boundBy_rename renamed, freeAt_rename renamed⟩⟩
  intro p v w free found
  simpa [found] using (reference_rename renamed free.1).2 free.2

theorem rename_exact_swap :
    let t := func [3] (.call .sub [var 1, func [1] (var 1), .annotated "x" (var 2)] [])
    let t' := func [3] (.call .sub [var 2, func [1] (var 1), .annotated "x" (var 1)] [])
    rename [(1, 2), (2, 1)] t = some t' ∧ rename [(1, 3)] t = none ∧
      (∃ p v w, t.FreeAt p v ∧ [((1 : VarId), (3 : VarId))].lookup v = some w ∧ t.Under p w) ∧
      t.FreeAt [.arg 1, .arg 0] 1 ∧ t'.at? [.arg 1, .arg 0] = some (var 2) ∧
      ∀ p q, t'.BoundBy p q ↔ t.BoundBy p q := by
  intro t t'
  have swapped : rename [(1, 2), (2, 1)] t = some t' := rfl
  have refused : rename [(1, 3)] t = none := rfl
  have free : t.FreeAt [.arg 1, .arg 0] 1 :=
    freeAt_cons.mpr ⟨by decide, _, rfl, freeAt_cons.mpr ⟨by decide, _, rfl, freeAt_nil.mpr rfl⟩⟩
  obtain ⟨replaced, _, sameBinder, _⟩ := (rename_exact [(1, 2), (2, 1)] t).2 t' swapped
  exact ⟨swapped, refused, (rename_exact [(1, 3)] t).1.mp refused, free, replaced _ 1 2 free rfl, sameBinder⟩

end QueryTerms.Proofs.RenamingExact
