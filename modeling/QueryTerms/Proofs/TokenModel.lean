import QueryTerms.Proofs.Meaning
import Mathlib.Data.Set.Lattice

/-! A compositional meaning in which functions may be called on themselves. A value is a set of tokens: facts that
finitely much of the arguments settles. A function is the set of its steps from finite parts of its arguments
to a token of its result, and a plain call keeps its operator and a token of each of its parts. The body of
a function is recovered from its steps since no token of a result needs infinitely much of an argument. -/

namespace QueryTerms

inductive Token where
  | datum (value : Datum)
  | step (arguments : List (List Token)) (result : Token)
  | node (op : Operator) (parts : List Token) (fields : List (String × Token))

namespace TokenModel

open Term

/-- The value of which the listed tokens are all there is. -/
def finite (tokens : List Token) : Set Token := {a | a ∈ tokens}

def steps (arity : Nat) (f : List (Set Token) → Set Token) : Set Token :=
  {a | ∃ arguments result, a = .step arguments result ∧ arguments.length = arity ∧
    result ∈ f (arguments.map finite)}

def applied (f : Set Token) (values : List (Set Token)) : Set Token :=
  {a | ∃ arguments, .step arguments a ∈ f ∧ List.Forall₂ (fun x d => ∀ b ∈ x, b ∈ d) arguments values}

def nodes (op : Operator) (values : List (Set Token)) (fields : List (String × Set Token)) : Set Token :=
  {a | ∃ parts named, a = .node op parts named ∧ List.Forall₂ (· ∈ ·) parts values ∧
    List.Forall₂ (fun f d => f.1 = d.1 ∧ f.2 ∈ d.2) named fields}

/-- What a plain call means by its parts. -/
def called : Operator → List (Set Token) → List (String × Set Token) → Set Token
  | .funcall, f :: values, [] => applied f values
  | op, values, fields => nodes op values fields

mutual
/-- The tokens of a term. -/
def tokens : Term → Env (Set Token) → Set Token
  | .literal d, _ => {.datum d}
  | .annotated _ inner, e => tokens inner e
  | .call op args named, e =>
    match role op args named with
    | .reference v => e v
    | .binder params => steps params.length fun values =>
      (tokensArgs args (e.assign params values)).getLast?.getD ∅
    | .plain => called op (tokensArgs args e) (tokensNamed named e)

def tokensArgs : List Term → Env (Set Token) → List (Set Token)
  | [], _ => []
  | t :: rest, e => tokens t e :: tokensArgs rest e

def tokensNamed : List (String × Term) → Env (Set Token) → List (String × Set Token)
  | [], _ => []
  | (key, t) :: rest, e => (key, tokens t e) :: tokensNamed rest e
end

private theorem tokensArgs_eq (args : List Term) (e : Env (Set Token)) : tokensArgs args e = args.map (tokens · e) := by
  induction args with
  | nil => simp [tokensArgs]
  | cons t rest ih => simp [tokensArgs, ih]

private theorem tokensNamed_eq (named : List (String × Term)) (e : Env (Set Token)) :
    tokensNamed named e = named.map fun field => (field.1, tokens field.2 e) := by
  induction named with
  | nil => simp [tokensNamed]
  | cons field rest ih => simp [tokensNamed, ih]

theorem tokens_literal (d : Datum) (e : Env (Set Token)) : tokens (.literal d) e = {.datum d} := by
  simp only [tokens]

theorem tokens_annotated (note : String) (inner : Term) (e : Env (Set Token)) :
    tokens (.annotated note inner) e = tokens inner e := by
  simp only [tokens]

theorem tokens_var (v : VarId) (e : Env (Set Token)) : tokens (var v) e = e v := by
  simp only [var, tokens, role_var]

theorem tokens_func (params : List VarId) (body : Term) (e : Env (Set Token)) :
    tokens (func params body) e = steps params.length fun values => tokens body (e.assign params values) := by
  simp [func, tokens, tokensArgs]

theorem tokens_plain {op : Operator} {args : List Term} {named : List (String × Term)}
    (plain : role op args named = .plain) (e : Env (Set Token)) :
    tokens (.call op args named) e =
      called op (args.map (tokens · e)) (named.map fun field => (field.1, tokens field.2 e)) := by
  simp only [tokens, plain, tokensArgs_eq, tokensNamed_eq]

theorem tokens_stripNotes (t : Term) (e : Env (Set Token)) : tokens t.stripNotes e = tokens t e := by
  induction t using formInduction with
  | annotated note inner ih => rw [stripNotes, tokens_annotated, ih]
  | literal d => rfl
  | reference v => rfl
  | function params body => rfl
  | plain op args named => rfl

/-- A condition on environments that some finite part of each environment that meets it settles. -/
structure Finitary (P : Env (Set Token) → Prop) : Prop where
  mono : ∀ e e', (∀ v, e v ⊆ e' v) → P e → P e'
  settled : ∀ e, P e → ∃ part : VarId → List Token, (∀ v, finite (part v) ⊆ e v) ∧ P fun v => finite (part v)

namespace Finitary

private theorem const (p : Prop) : Finitary fun _ => p :=
  ⟨fun _ _ _ holds => holds, fun _ holds => ⟨fun _ => [], by simp [finite], holds⟩⟩

private theorem mem (v : VarId) (a : Token) : Finitary fun e => a ∈ e v := by
  refine ⟨fun e e' grows inside => grows v inside, fun e inside => ?_⟩
  refine ⟨fun w => if w = v then [a] else [], fun w => ?_, by simp [finite]⟩
  by_cases same : w = v
  · subst same
    simpa [finite] using inside
  · simp [finite, same]

theorem and {P Q : Env (Set Token) → Prop} (first : Finitary P) (second : Finitary Q) :
    Finitary fun e => P e ∧ Q e := by
  refine ⟨fun e e' grows holds => ⟨first.mono e e' grows holds.1, second.mono e e' grows holds.2⟩, ?_⟩
  intro e ⟨p, q⟩
  obtain ⟨left, leftInside, p⟩ := first.settled e p
  obtain ⟨right, rightInside, q⟩ := second.settled e q
  refine ⟨fun v => left v ++ right v, fun v a member => ?_, ?_, ?_⟩
  · rcases List.mem_append.mp member with member | member
    · exact leftInside v member
    · exact rightInside v member
  · exact first.mono _ _ (fun v a member => List.mem_append_left _ member) p
  · exact second.mono _ _ (fun v a member => List.mem_append_right _ member) q

theorem any {ι : Type} {P : ι → Env (Set Token) → Prop} (each : ∀ i, Finitary (P i)) :
    Finitary fun e => ∃ i, P i e := by
  refine ⟨fun e e' grows ⟨i, holds⟩ => ⟨i, (each i).mono e e' grows holds⟩, fun e ⟨i, holds⟩ => ?_⟩
  obtain ⟨part, inside, holds⟩ := (each i).settled e holds
  exact ⟨part, inside, i, holds⟩

private theorem forall_mem {ι : Type} {P : ι → Env (Set Token) → Prop} (items : List ι)
    (each : ∀ i ∈ items, Finitary (P i)) : Finitary fun e => ∀ i ∈ items, P i e := by
  induction items with
  | nil => simpa using const True
  | cons i items ih =>
    simp only [List.forall_mem_cons] at each ⊢
    exact each.1.and (ih each.2)

private theorem forall₂ {α β : Type} {R : α → β → Env (Set Token) → Prop} (xs : List α) (ys : List β)
    (each : ∀ x, ∀ y ∈ ys, Finitary (R x y)) : Finitary fun e => List.Forall₂ (fun x y => R x y e) xs ys := by
  induction xs generalizing ys with
  | nil => cases ys <;> simpa using const _
  | cons x xs ih =>
    cases ys with
    | nil => simpa using const _
    | cons y ys =>
      simp only [List.forall_mem_cons] at each
      simp only [List.forall₂_cons]
      exact (each x |>.1).and (ih ys fun x => (each x).2)

theorem update {P : Env (Set Token) → Prop} (finitary : Finitary P) (p : VarId) (d : Set Token) :
    Finitary fun e => P (Function.update e p d) := by
  constructor
  · intro e e' grows holds
    apply finitary.mono _ _ _ holds
    intro v
    by_cases same : v = p
    · subst same
      simp
    · simpa [same] using grows v
  · intro e holds
    obtain ⟨part, inside, holds⟩ := finitary.settled _ holds
    refine ⟨fun v => if v = p then [] else part v, fun v => ?_, finitary.mono _ _ (fun v => ?_) holds⟩
    · by_cases same : v = p
      · simp [finite, same]
      · simpa [same] using inside v
    · by_cases same : v = p
      · subst same
        simpa using inside v
      · simp [same]

theorem assign {P : Env (Set Token) → Prop} (finitary : Finitary P) (params : List VarId)
    (values : List (Set Token)) : Finitary fun e => P (e.assign params values) := by
  induction params generalizing values with
  | nil => simpa [Env.assign] using finitary
  | cons p params ih =>
    cases values with
    | nil => simpa [Env.assign] using finitary
    | cons d values => exact (ih values).update p d

theorem nodes {op : Operator} {args : List Term} {named : List (String × Term)}
    (parts : ∀ t ∈ args, ∀ a, Finitary fun e => a ∈ tokens t e)
    (fields : ∀ field ∈ named, ∀ a, Finitary fun e => a ∈ tokens field.2 e) (a : Token) :
    Finitary fun e =>
      a ∈ TokenModel.nodes op (args.map (tokens · e)) (named.map fun field => (field.1, tokens field.2 e)) := by
  simp only [TokenModel.nodes, Set.mem_ofPred_eq, List.forall₂_map_right_iff]
  apply any
  intro kept
  apply any
  intro keptFields
  apply (const _).and
  apply (forall₂ kept args fun b t member => parts t member b).and
  apply forall₂
  intro field t member
  exact (const _).and (fields t member field.2)

end Finitary

private theorem called_of_ne {op : Operator} (other : op ≠ .funcall) (values : List (Set Token))
    (fields : List (String × Set Token)) : called op values fields = nodes op values fields := by
  unfold called
  split
  · contradiction
  · rfl

/-- Whether a token belongs to a term is settled by finitely many tokens of finitely many variables. -/
theorem tokens_finitary (t : Term) (a : Token) : Finitary fun e => a ∈ tokens t e := by
  induction t using formInduction generalizing a with
  | literal d => simpa only [tokens_literal] using Finitary.const _
  | annotated note inner ih => simpa only [tokens_annotated] using ih a
  | reference v => simpa only [tokens_var] using Finitary.mem v a
  | function params body ih =>
    simp only [tokens_func, steps, Set.mem_ofPred_eq]
    apply Finitary.any
    intro arguments
    apply Finitary.any
    intro result
    exact (Finitary.const _).and ((Finitary.const _).and ((ih result).assign params (arguments.map finite)))
  | plain op args named plain parts fields =>
    simp only [tokens_plain plain]
    by_cases calls : op = .funcall
    · subst calls
      match args, named, parts, fields with
      | f :: actuals, [], parts, _ =>
        simp only [List.map_cons, List.map_nil, called, applied, Set.mem_ofPred_eq, List.forall₂_map_right_iff]
        apply Finitary.any
        intro arguments
        apply (parts f (by simp) _).and
        apply Finitary.forall₂
        intro x t member
        apply Finitary.forall_mem
        intro b _
        exact parts t (by simp [member]) b
      | [], named, parts, fields => exact Finitary.nodes parts fields a
      | f :: actuals, field :: named, parts, fields => exact Finitary.nodes parts fields a
    · simp only [called_of_ne calls]
      exact Finitary.nodes parts fields a

private theorem assign_mono {e e' : Env (Set Token)} (params : List VarId) {values values' : List (Set Token)}
    (below : ∀ v, e v ⊆ e' v) (grows : List.Forall₂ (· ⊆ ·) values values') (v : VarId) :
    e.assign params values v ⊆ e'.assign params values' v := by
  induction params generalizing e e' values values' with
  | nil => simpa [Env.assign] using below v
  | cons p params ih =>
    cases grows with
    | nil => exact below v
    | @cons d d' values values' first rest =>
      apply ih _ rest
      intro w
      by_cases same : w = p
      · subst same
        simpa using first
      · simpa [same] using below w

/-- Calling the steps of a function on values gives back the tokens of its body. -/
private theorem applied_steps (body : Term) (e : Env (Set Token)) {params : List VarId} {values : List (Set Token)}
    (distinct : params.Nodup) (full : values.length = params.length) :
    applied (steps params.length fun values => tokens body (e.assign params values)) values =
      tokens body (e.assign params values) := by
  ext a
  simp only [applied, steps, Set.mem_ofPred_eq, Token.step.injEq]
  constructor
  · rintro ⟨arguments, ⟨_, _, ⟨rfl, rfl⟩, _, inside⟩, below⟩
    apply (tokens_finitary body a).mono _ _ _ inside
    exact assign_mono params (fun v => subset_rfl) (List.forall₂_map_left_iff.mpr below)
  · intro inside
    obtain ⟨part, below, settled⟩ := (tokens_finitary body a).settled _ inside
    refine ⟨params.map part, ⟨_, _, ⟨rfl, rfl⟩, by simp, ?_⟩, ?_⟩
    · apply (tokens_finitary body a).mono _ _ _ settled
      intro v
      rw [List.map_map, Env.assign_map]
      by_cases bound : v ∈ params
      · simp [bound]
      · simpa [bound, Env.assign_of_not_mem e values bound] using below v
    · rw [← Env.map_assign e distinct full, List.forall₂_map_left_iff, List.forall₂_map_right_iff,
        List.forall₂_same]
      exact fun p _ b member => below p member

theorem compositional : Compositional tokens where
  literal d e e' := by rw [tokens_literal, tokens_literal]
  annotated note inner e := tokens_annotated note inner e
  reference t v e refers := by
    rw [← tokens_stripNotes, asVar?_eq_some_iff.mp refers, tokens_var]
  function t t' params body body' e e' parts parts' same := by
    rw [← tokens_stripNotes t, ← tokens_stripNotes t', funcParts?_eq_some_iff.mp parts,
      funcParts?_eq_some_iff.mp parts', tokens_func, tokens_func]
    ext a
    simp only [steps, Set.mem_ofPred_eq]
    refine exists_congr fun arguments => exists_congr fun result => and_congr_right fun _ =>
      and_congr_right fun arity => ?_
    rw [same (arguments.map finite) (by simpa using arity)]
  call op args args' named named' e e' noVar noFunc noVar' noFunc' parts fields := by
    rw [tokens_plain (role_eq_plain_iff.mpr ⟨noVar, noFunc⟩), tokens_plain (role_eq_plain_iff.mpr ⟨noVar', noFunc'⟩),
      parts, fields]
  funcall function params body actuals e parts distinct full := by
    have plain : role .funcall (function :: actuals) [] = .plain := rfl
    rw [tokens_plain plain, List.map_cons, List.map_nil, called, ← tokens_stripNotes function,
      funcParts?_eq_some_iff.mp parts, tokens_func, applied_steps body e distinct (by simpa using full)]

end TokenModel

end QueryTerms
