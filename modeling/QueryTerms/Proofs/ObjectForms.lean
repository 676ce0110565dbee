import QueryTerms.Proofs.Envelope

/-! The two forms of an object. With known keys it is a call with named arguments, in which a later value replaces an
earlier one; once a key is computed it is a call on keys and values in turn. Both forms build the same values in the
same order, and read as a map they are the same. -/

namespace QueryTerms
open Term

/-- The arguments of a call, read as keys and values in turn. -/
def Term.readPairs? : List Term → Option (List (Term × Term))
  | [] => some []
  | [_] => none
  | key :: value :: rest => (readPairs? rest).map ((key, value) :: ·)

private theorem Term.readPairs?_flatMap (pairs : List (Term × Term)) :
    readPairs? (pairs.flatMap fun pair => [pair.1, pair.2]) = some pairs := by
  induction pairs with
  | nil => rfl
  | cons pair rest ih =>
    rw [List.flatMap_cons]
    exact congrArg (Option.map ((pair.1, pair.2) :: ·)) ih

theorem Build.run_map (f : α → β) (x : Build α) (context : Context) :
    let built := x.run context
    Build.run (do return f (← x)) context = ⟨f built.result, built.context, built.notices⟩ := by
  intro built
  have ran : Build.run (do return f (← x)) context = ⟨f built.result, built.context, built.notices ++ []⟩ := rfl
  rw [ran, List.append_nil]

private theorem Build.run_pair (x : Build α) (y : Build β) (context : Context) :
    let first := x.run context
    let second := y.run first.context
    Build.run (do return (← x, ← y)) context =
      ⟨(first.result, second.result), second.context, first.notices ++ second.notices⟩ := by
  intro first second
  have ran : Build.run (do return (← x, ← y)) context =
      ⟨(first.result, second.result), second.context, first.notices ++ (second.notices ++ [])⟩ := rfl
  rw [ran, List.append_nil]

namespace Attribute

def isPresent : Attribute α → Bool
  | .absent => false
  | _ => true

/-- The key and the value of an attribute that is present, built in this order. -/
def pair? : Attribute Handle → Option (Build (Term × Term))
  | .field key value => some do return (.literal (.string key), ← value)
  | .computed key value => some do return (← key, ← value)
  | .absent => none

/-- A field as an attribute whose key is computed, by a literal. -/
def withComputedKey : Attribute Handle → Attribute Handle
  | .field key value => .computed (.constant (.literal (.string key))) value
  | other => other

/-- The attributes with computed keys for the fields at the chosen places. -/
def computeAt (chosen : Nat → Bool) (attributes : List (Attribute Handle)) : List (Attribute Handle) :=
  attributes.mapIdx fun i a => if chosen i then a.withComputedKey else a

private theorem pair?_withComputedKey (a : Attribute Handle) : a.withComputedKey.pair? = a.pair? := by
  cases a <;> rfl

private theorem filterMap_computeAt (chosen : Nat → Bool) (attributes : List (Attribute Handle)) :
    (computeAt chosen attributes).filterMap pair? = attributes.filterMap pair? := by
  induction attributes generalizing chosen with
  | nil => rfl
  | cons a rest ih =>
    have same : (if chosen 0 then a.withComputedKey else a).pair? = a.pair? := by
      split
      · exact pair?_withComputedKey a
      · rfl
    have others := ih fun i => chosen (i + 1)
    rw [computeAt] at others ⊢
    simp only [List.mapIdx_cons, List.filterMap_cons, same, others]

private theorem exists_computed_computeAt {chosen : Nat → Bool} {attributes : List (Attribute Handle)} {i : Nat}
    {key : String} {value : Handle} (place : attributes[i]? = some (.field key value)) (turned : chosen i = true) :
    ∃ key value, .computed key value ∈ computeAt chosen attributes := by
  have found : (computeAt chosen attributes)[i]? = some (withComputedKey (.field key value)) := by
    rw [computeAt, List.getElem?_mapIdx, place, Option.map_some, if_pos turned]
  exact ⟨_, value, List.mem_of_getElem? found⟩

theorem fields?_eq_none_iff {attributes : List (Attribute α)} :
    fields? attributes = none ↔ ∃ key value, .computed key value ∈ attributes := by
  induction attributes with
  | nil => simp [fields?]
  | cons a rest ih =>
    cases a with
    | field key value => simp [fields?, ih]
    | computed key value => exact ⟨fun _ => ⟨key, value, List.mem_cons_self⟩, fun _ => rfl⟩
    | absent => simp [fields?, ih]

private theorem fields?_filter (attributes : List (Attribute α)) :
    fields? (attributes.filter isPresent) = fields? attributes := by
  induction attributes with
  | nil => rfl
  | cons a rest ih =>
    cases a with
    | field key value => exact congrArg (Option.map ((key, value) :: ·)) ih
    | computed key value => rfl
    | absent => exact ih

private theorem pairs_filter (attributes : List (Attribute Handle)) :
    pairs (attributes.filter isPresent) = pairs attributes := by
  induction attributes with
  | nil => rfl
  | cons a rest ih =>
    cases a with
    | field key value => exact congrArg (Handle.constant (.literal (.string key)) :: value :: ·) ih
    | computed key value => exact congrArg (key :: value :: ·) ih
    | absent => exact ih

private theorem sequence_pairs (attributes : List (Attribute Handle)) (context : Context) :
    let built := (Build.sequence (attributes.filterMap pair?)).run context
    (Build.sequence (pairs attributes)).run context =
      ⟨built.result.flatMap fun pair => [pair.1, pair.2], built.context, built.notices⟩ := by
  induction attributes generalizing context with
  | nil => rfl
  | cons a rest ih =>
    have both (key value : Handle) :
        (Build.sequence (key :: value :: pairs rest)).run context =
          let built := (Build.sequence ((do return (← key, ← value)) :: rest.filterMap pair?)).run context
          ⟨built.result.flatMap fun pair => [pair.1, pair.2], built.context, built.notices⟩ := by
      simp only [Build.sequence_cons, Build.run_pair, ih, List.flatMap_cons, List.append_assoc]
      rfl
    cases a with
    | field key value => exact both (.constant (.literal (.string key))) value
    | computed key value => exact both key value
    | absent => exact ih context

end Attribute

/-- Named parts that are built with their names as literals. -/
private theorem Build.sequence_named (fields : Fields Term) (entries : List (String × Handle)) (context : Context) :
    let built := (fieldsFrom fields entries).run context
    (sequence (entries.map fun entry => do return (Term.literal (.string entry.1), ← entry.2))).run context =
      ⟨(results entries context).map fun entry => (.literal (.string entry.1), entry.2), built.context,
        built.notices⟩ := by
  induction entries generalizing fields context with
  | nil => rfl
  | cons entry rest ih =>
    have others := ih (Fields.insert entry.1 (entry.2.run context).result fields) (entry.2.run context).context
    simp only [List.map_cons, sequence_cons, run_map, others]
    rfl

private theorem Attribute.filterMap_fields {attributes : List (Attribute Handle)} {fields : List (String × Handle)}
    (known : fields? attributes = some fields) :
    attributes.filterMap pair? = fields.map fun entry => do return (Term.literal (.string entry.1), ← entry.2) := by
  induction attributes generalizing fields with
  | nil =>
    obtain rfl := Option.some.inj known
    rfl
  | cons a rest ih =>
    cases a with
    | field key value =>
      obtain ⟨others, found, rfl⟩ := Option.map_eq_some_iff.mp known
      exact congrArg (_ :: ·) (ih found)
    | computed key value => cases known
    | absent => exact ih known

private theorem Build.length_sequence (xs : List (Build α)) (context : Context) :
    ((sequence xs).run context).result.length = xs.length := by
  induction xs generalizing context with
  | nil => rfl
  | cons x rest ih => exact congrArg Nat.succ (ih (x.run context).context)

private theorem Attribute.length_filterMap (attributes : List (Attribute Handle)) :
    (attributes.filterMap pair?).length = attributes.countP isPresent := by
  induction attributes with
  | nil => rfl
  | cons a rest ih =>
    cases a with
    | field key value | computed key value =>
      rw [List.countP_cons_of_pos rfl, ← ih]
      rfl
    | absent => exact ih

namespace Handle

variable {attributes : List (Attribute Handle)}

theorem object_of_computed (computed : ∃ key value, .computed key value ∈ attributes) (context : Context) :
    let built := (Build.sequence (attributes.filterMap Attribute.pair?)).run context
    (Handle.object attributes).run context =
      ⟨.call .object (built.result.flatMap fun pair => [pair.1, pair.2]) [], built.context, built.notices⟩ := by
  simp only [Handle.object, Attribute.fields?_eq_none_iff.mpr computed, Build.run_map (Term.call .object · []),
    Attribute.sequence_pairs]

theorem object_of_known {fields : List (String × Handle)} (known : Attribute.fields? attributes = some fields)
    (context : Context) :
    let built := (Build.sequence (attributes.filterMap Attribute.pair?)).run context
    (Handle.object attributes).run context =
      ⟨.call .makeObj [] (Fields.ofEntries (Build.results fields context)), built.context, built.notices⟩ := by
  simp only [Handle.object, known, Build.run_map (Term.call .makeObj [] ·), Attribute.filterMap_fields known,
    Build.sequence_named [] fields context, (Build.fields_run fields context).1]
  rfl

/-- Both forms draw the same variables and report the same. -/
theorem object_effects (attributes : List (Attribute Handle)) (context : Context) :
    let built := (Build.sequence (attributes.filterMap Attribute.pair?)).run context
    ((Handle.object attributes).run context).context = built.context ∧
      ((Handle.object attributes).run context).notices = built.notices := by
  cases known : Attribute.fields? attributes with
  | none =>
    rw [object_of_computed (Attribute.fields?_eq_none_iff.mp known)]
    exact ⟨rfl, rfl⟩
  | some fields =>
    rw [object_of_known known]
    exact ⟨rfl, rfl⟩

theorem object_filter (attributes : List (Attribute Handle)) :
    Handle.object (attributes.filter Attribute.isPresent) = Handle.object attributes := by
  rw [Handle.object, Handle.object, Attribute.fields?_filter, Attribute.pairs_filter]

end Handle

namespace Proofs.ObjectForms

/-- With the keys of some fields computed by literals, an object is a call on one key and one value for each attribute
that is present. It ends at the same counter, and if no key was computed before, the named arguments of the original
object are these values, the last one for each key. Absent attributes make no difference. -/
theorem object_forms (attributes : List (Attribute Handle)) (context : Context) :
    let original := (Handle.object attributes).run context
    let pairs := ((Build.sequence (attributes.filterMap Attribute.pair?)).run context).result
    (∀ chosen, (∃ i key value, attributes[i]? = some (.field key value) ∧ chosen i = true) →
      let turned := (Handle.object (Attribute.computeAt chosen attributes)).run context
      (∃ args, turned.result = .call .object args [] ∧ Term.readPairs? args = some pairs) ∧
      turned.context = original.context ∧ turned.notices = original.notices) ∧
    pairs.length = attributes.countP Attribute.isPresent ∧
    ((∀ key value, .computed key value ∉ attributes) →
      ∃ entries named : Fields Term, pairs = entries.map (fun entry => (.literal (.string entry.1), entry.2)) ∧
        original.result = .call .makeObj [] named ∧ (Fields.keys named).Pairwise (· < ·) ∧
        ∀ key, Fields.get? key named = Fields.get? key entries.reverse) ∧
    Handle.object (attributes.filter Attribute.isPresent) = Handle.object attributes := by
  intro original pairs
  refine ⟨fun chosen ⟨i, key, value, place, turned⟩ => ?_, ?_, fun uncomputed => ?_, Handle.object_filter attributes⟩
  · have computed := Attribute.exists_computed_computeAt place turned
    obtain ⟨left, reported⟩ := Handle.object_effects attributes context
    rw [Handle.object_of_computed computed, Attribute.filterMap_computeAt]
    exact ⟨⟨_, rfl, Term.readPairs?_flatMap pairs⟩, left.symm, reported.symm⟩
  · exact (Build.length_sequence _ context).trans (Attribute.length_filterMap attributes)
  · obtain ⟨fields, known⟩ := Option.ne_none_iff_exists'.mp fun unknown =>
      have ⟨key, value, member⟩ := Attribute.fields?_eq_none_iff.mp unknown
      uncomputed key value member
    refine ⟨Build.results fields context, Fields.ofEntries (Build.results fields context), ?_, ?_,
      Fields.ofEntries_ascending _, Fields.get?_ofEntries _⟩
    · have named := Build.sequence_named [] fields context
      rw [← Attribute.filterMap_fields known] at named
      exact congrArg Built.result named
    · exact congrArg Built.result (Handle.object_of_known known context)

theorem object_forms_repeated :
    let same : Handle := .func 1 fun ids => .var (ids.headD 0)
    let attributes : List (Attribute Handle) := [.field "k" same, .absent, .field "a" (.var 9), .field "k" same]
    let original := (Handle.object attributes).run { allocated := 9 }
    let turned := (Handle.object (Attribute.computeAt (· = 3) attributes)).run { allocated := 9 }
    let pairs : List (Term × Term) :=
      [(.literal (.string "k"), .func [10] (.var 10)), (.literal (.string "a"), .var 9),
        (.literal (.string "k"), .func [11] (.var 11))]
    (∃ args, turned.result = .call .object args [] ∧ Term.readPairs? args = some pairs) ∧
    turned.context = original.context ∧ original.context.allocated = 11 ∧
    (∃ entries named : Fields Term, pairs = entries.map (fun entry => (.literal (.string entry.1), entry.2)) ∧
      original.result = .call .makeObj [] named ∧ ∀ key, Fields.get? key named = Fields.get? key entries.reverse) ∧
    original.result = .call .makeObj [] [("a", .var 9), ("k", .func [11] (.var 11))] := by
  intro same attributes original turned pairs
  obtain ⟨forms, _, known, _⟩ := object_forms attributes { allocated := 9 }
  obtain ⟨read, left, _⟩ := forms (· = 3) ⟨3, "k", same, rfl, by decide⟩
  obtain ⟨entries, named, paired, made, _, lookups⟩ := known (by simp [attributes])
  exact ⟨read, left, rfl, ⟨entries, named, paired, made, lookups⟩, rfl⟩

end Proofs.ObjectForms

end QueryTerms
