import QueryTerms.Backtrace
import QueryTerms.Proofs.TermForms
import Mathlib.Data.Set.List

/-! Backtraces read from values. A path is taken over only as a whole: a value is either the list of exactly its
steps, or it gives the empty path. Three kinds of values give the empty path, and the log tells them apart: nothing is
said of null and of the empty list, and there is a warning about every other value. -/

namespace QueryTerms

namespace PathStep

/-- The value that stands for a step. -/
def toDatum : PathStep → Datum
  | .position index => .unsigned index
  | .key name => .string name

theorem ofDatum?_eq_some_iff {d : Datum} {step : PathStep} : ofDatum? d = some step ↔ d = step.toDatum := by
  constructor
  · intro found
    unfold ofDatum? at found
    split at found
    next => cases found; rfl
    next => cases found; rfl
    next => cases found
  · rintro rfl
    cases step <;> rfl

/-- The value is an unsigned 64-bit integer or a string. -/
def IsStep (d : Datum) : Prop :=
  (∃ n, d = .unsigned n) ∨ ∃ s, d = .string s

private theorem isStep_iff {d : Datum} : IsStep d ↔ d ∈ Set.range toDatum := by
  constructor
  · rintro (⟨n, rfl⟩ | ⟨s, rfl⟩)
    · exact ⟨.position n, rfl⟩
    · exact ⟨.key s, rfl⟩
  · rintro ⟨step, rfl⟩
    cases step with
    | position n => exact .inl ⟨n, rfl⟩
    | key s => exact .inr ⟨s, rfl⟩

end PathStep

namespace Backtrace

/-- The value that stands for a path. -/
def toDatum (path : Backtrace) : Datum :=
  .array (path.map PathStep.toDatum)

/-- The value is neither null nor a list of steps. -/
def Malformed (d : Datum) : Prop :=
  d ≠ .null ∧ ¬ ∃ items, d = .array items ∧ ∀ item ∈ items, PathStep.IsStep item

/-- What the log says about a value that is no path. -/
def warning (d : Datum) : LogRecord :=
  ⟨.warn, "BACKTRACE_MALFORMED", [("backtrace", d.text)]⟩

theorem ofDatum?_eq_some_iff {d : Datum} {path : Backtrace} :
    ofDatum? d = some path ↔ d = path.toDatum ∨ d = .null ∧ path = [] := by
  cases d with
  | null => simp [ofDatum?, toDatum, eq_comm]
  | array items => simp [ofDatum?, toDatum, mapM_eq_some_iff PathStep.ofDatum?_eq_some_iff]
  | bool | number | string | object => simp [ofDatum?, toDatum]

private theorem all_isStep_iff {items : List Datum} :
    (∀ item ∈ items, PathStep.IsStep item) ↔ ∃ path : Backtrace, path.toDatum = .array items := by
  simp only [PathStep.isStep_iff, toDatum, Datum.array.injEq]
  exact Set.ext_iff.mp (Set.range_list_map PathStep.toDatum).symm items

theorem not_malformed_toDatum (path : Backtrace) : ¬ Malformed path.toDatum := fun malformed =>
  malformed.2 ⟨_, rfl, all_isStep_iff.mpr ⟨path, rfl⟩⟩

theorem ofDatum?_eq_none_iff {d : Datum} : ofDatum? d = none ↔ Malformed d := by
  constructor
  · intro refused
    refine ⟨?_, ?_⟩
    · rintro rfl
      cases refused
    · rintro ⟨items, rfl, steps⟩
      obtain ⟨path, same⟩ := all_isStep_iff.mp steps
      rw [ofDatum?_eq_some_iff.mpr (.inl same.symm)] at refused
      cases refused
  · intro malformed
    cases found : ofDatum? d with
    | none => rfl
    | some path =>
      rcases ofDatum?_eq_some_iff.mp found with rfl | ⟨null, -⟩
      · exact absurd malformed path.not_malformed_toDatum
      · exact absurd null malformed.1

private theorem decode_of_some {d : Datum} {path : Backtrace} (found : ofDatum? d = some path) :
    decode d = (path, none) := by
  rw [decode, found]

theorem decode_of_malformed {d : Datum} (malformed : Malformed d) : decode d = ([], some (warning d)) := by
  rw [decode, ofDatum?_eq_none_iff.mpr malformed]
  rfl

private theorem exists_of_not_malformed {d : Datum} (wellFormed : ¬ Malformed d) : ∃ path, ofDatum? d = some path := by
  rw [← ofDatum?_eq_none_iff] at wellFormed
  exact Option.ne_none_iff_exists'.mp wellFormed

/-- Warnings go to the standard output, at every threshold that lets them pass. -/
theorem out_warning (threshold : Severity) (d : Datum) :
    (Output.ofRecords threshold [warning d]).out ≠ "" ↔ threshold.rank ≤ Severity.warn.rank := by
  have opens : "" ++ String.ofList (warning d).line ≠ "" := by
    rw [LogRecord.line, List.cons_append, String.ofList_cons]
    simp
  cases threshold with
  | trace | info | warn => exact iff_of_true opens (by decide)
  | error | fatal => exact iff_of_false (fun written => written rfl) (by decide)

end Backtrace

namespace Proofs.PathDecoding
open Backtrace

/-- A value gives a path that is not empty exactly if it is the list of its steps, and every other value gives the
empty path. There is a warning exactly if the value is malformed, and it is written at every threshold that lets
warnings pass. -/
theorem decode_exact (d : Datum) :
    (∀ path, path ≠ [] → ((decode d).1 = path ↔ d = toDatum path)) ∧
    ((∀ path, path ≠ [] → d ≠ toDatum path) → (decode d).1 = []) ∧
    (∀ r, (decode d).2 = some r ↔ Malformed d ∧ r = warning d) ∧
    ∀ threshold, (Output.ofRecords threshold (decode d).2.toList).out ≠ "" ↔
      Malformed d ∧ threshold.rank ≤ Severity.warn.rank := by
  by_cases malformed : Malformed d
  · rw [decode_of_malformed malformed]
    refine ⟨fun path nonempty => ⟨fun same => absurd same.symm nonempty, ?_⟩, fun _ => rfl, fun r => ?_,
      fun threshold => ?_⟩
    · rintro rfl
      exact absurd malformed (not_malformed_toDatum path)
    · simp [malformed, eq_comm]
    · simp [malformed, out_warning]
  · obtain ⟨path, found⟩ := exists_of_not_malformed malformed
    have only := ofDatum?_eq_some_iff.mp found
    rw [decode_of_some found]
    refine ⟨fun other nonempty => ⟨?_, fun same => ?_⟩, fun none => ?_, fun r => ?_, fun threshold => ?_⟩
    · rintro rfl
      exact only.resolve_right fun empty => nonempty empty.2
    · have readsOther := ofDatum?_eq_some_iff.mpr (.inl same)
      exact Option.some.inj (found.symm.trans readsOther)
    · rcases only with same | ⟨-, empty⟩
      · exact Classical.byContradiction fun nonempty => none path nonempty same
      · exact empty
    · simp [malformed]
    · simp [malformed, Output.ofRecords]

/-- A path with a key and the greatest position, and a list whose last item is negative. -/
theorem decode_exact_negative :
    let path : Backtrace := [.position 2, .key "name", .position 0xFFFFFFFFFFFFFFFF]
    let list : Datum := .array [.unsigned 2, .string "name", .number (.negSucc 0)]
    (decode (toDatum path)).1 = path ∧ (∀ path, path ≠ [] → list ≠ toDatum path) ∧ (decode list).1 = [] ∧
      Malformed list ∧ (Output.ofRecords .warn (decode list).2.toList).out ≠ "" := by
  intro path list
  have malformed : Malformed list := by
    refine ⟨by simp [list], ?_⟩
    rintro ⟨items, same, steps⟩
    obtain rfl := Datum.array.inj same
    have last := steps (.number (.negSucc 0)) (by simp)
    simp [PathStep.IsStep, Datum.unsigned] at last
  have noPath (path : Backtrace) (_ : path ≠ []) : list ≠ toDatum path := fun same =>
    path.not_malformed_toDatum (same ▸ malformed)
  obtain ⟨reads, _⟩ := decode_exact (toDatum path)
  obtain ⟨_, refuses, _, warns⟩ := decode_exact list
  exact ⟨(reads path (List.cons_ne_nil _ _)).mpr rfl, noPath, refuses noPath, malformed,
    (warns .warn).mpr ⟨malformed, Nat.le_refl _⟩⟩

end Proofs.PathDecoding

end QueryTerms
