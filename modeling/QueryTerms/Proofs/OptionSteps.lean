import QueryTerms.Proofs.Envelope

/-! Options that are set step by step. Whatever the steps, a list of options holds the entries that were set since it
was last started over, without those whose key was set again later. These are the values that are built, each after
the ones before it in the list; one that was replaced is never built. -/

namespace QueryTerms

/-- Nothing depends on a value that is set again. -/
private theorem Fields.latest_replaced {earlier later : List (String × α)} {key : String} (again : key ∈ keys later)
    (a b : α) :
    latest (earlier ++ (key, a) :: later) = latest (earlier ++ (key, b) :: later) := by
  have dropped (c : α) : latest ((key, c) :: later) = latest later := if_pos again
  rw [latest_append, latest_append, dropped, dropped]
  rfl

namespace OptionList

variable {α : Type}

/-- The entries that are set once a step is taken after others. A collection starts over. -/
def Step.extend (before : List (String × α)) : Step α → List (String × α)
  | .set key value => before ++ [(key, value)]
  | .setSome key (some value) => before ++ [(key, value)]
  | .setSome _ none => before
  | .collect entries => entries

/-- The entries that steps set, in turn and from the last collection on. -/
def pushed (steps : List (Step α)) : List (String × α) :=
  steps.foldl Step.extend []

def run (steps : List (Step α)) : OptionList α :=
  steps.foldl (fun options step => step.apply options) empty

private theorem entries_apply {options : OptionList α} {before : List (String × α)}
    (kept : options.entries = Fields.latest before) (step : Step α) :
    (step.apply options).entries = Fields.latest (step.extend before) := by
  obtain ⟨entries⟩ := options
  obtain rfl : entries = Fields.latest before := kept
  cases step with
  | set key value => exact entries_push before key value
  | setSome key value =>
    cases value with
    | none => rfl
    | some value => exact entries_push before key value
  | collect entries => exact entries_ofEntries entries

theorem entries_run (steps : List (Step α)) : (run steps).entries = Fields.latest (pushed steps) := by
  induction steps using List.reverseRecOn with
  | nil => rfl
  | append_singleton steps step ih =>
    simp only [run, pushed, List.foldl_append, List.foldl_cons, List.foldl_nil]
    exact entries_apply ih step

/-- The options hold the last of the entries that were set under each key, in the order of these entries. -/
structure Keeps (pushed : List (String × α)) (options : OptionList α) : Prop where
  distinct : options.keys.Nodup
  keys : options.keys = (Fields.keys pushed).dedup
  contains : ∀ key, options.contains key = decide (key ∈ options.keys)
  length : options.length = options.keys.length
  isEmpty : options.isEmpty = options.keys.isEmpty
  value : ∀ key, Fields.get? key options.entries = Fields.get? key pushed.reverse

theorem run_keeps (steps : List (Step α)) : Keeps (pushed steps) (run steps) := by
  have same : run steps = ofEntries (pushed steps) :=
    congrArg OptionList.mk ((entries_run steps).trans (entries_ofEntries _).symm)
  rw [same]
  refine ⟨ofEntries_nodup _, ?_, fun key => ?_, ?_, ?_, get?_ofEntries _⟩
  · rw [OptionList.keys, entries_ofEntries]
    exact Fields.keys_latest _
  · rw [Bool.eq_iff_iff, decide_eq_true_iff]
    exact Fields.contains_iff
  · exact (List.length_map ..).symm
  · exact List.isEmpty_map.symm

/-- What is built has the keys of the options and no others. Each value is built after those before it in the list, the
first one at the counter of the context. -/
structure BuiltInTurn (options : OptionList Handle) (context : Context) (built : Built (Fields Term)) : Prop where
  ascending : (Fields.keys built.result).Pairwise (· < ·)
  keys : ∀ key, key ∈ Fields.keys built.result ↔ key ∈ options.keys
  value : ∀ earlier key h later, options.entries = earlier ++ (key, h) :: later →
    Fields.get? key built.result = some (h.run (Build.contextAfter earlier context)).result
  left : built.context = Build.contextAfter options.entries context

theorem build_inTurn {options : OptionList Handle} (distinct : options.keys.Nodup) (context : Context) :
    BuiltInTurn options context (options.build.run context) := by
  obtain ⟨result, left⟩ := Build.fields_run options.entries context
  refine ⟨?_, fun key => ?_, fun earlier key h later place => ?_, left⟩
  · rw [build, result]
    exact Fields.ofEntries_ascending _
  · rw [build, result, Fields.mem_keys_ofEntries, Build.keys_results]
    rfl
  · rw [OptionList.keys, place] at distinct
    rw [build, place]
    exact Build.get?_fields distinct context

end OptionList

namespace Proofs.OptionSteps

/-- After any steps, options hold the value that was last set under each key, where it was last set, and these values
are built in turn. Steps that differ in a value that is replaced build the same. -/
theorem run_latest (steps : List (OptionList.Step Handle)) (context : Context) :
    let options := OptionList.run steps
    let pushed := OptionList.pushed steps
    options.Keeps pushed ∧ options.BuiltInTurn context (options.build.run context) ∧
    ∀ earlier key h later, pushed = earlier ++ (key, h) :: later → key ∈ Fields.keys later →
      ∀ other steps', OptionList.pushed steps' = earlier ++ (key, other) :: later →
        (OptionList.run steps').build = options.build := by
  intro options pushed
  have keeps : options.Keeps pushed := OptionList.run_keeps steps
  refine ⟨keeps, OptionList.build_inTurn keeps.distinct context, ?_⟩
  intro earlier key h later place again other steps' place'
  have same : (OptionList.run steps').entries = options.entries := by
    rw [OptionList.entries_run, OptionList.entries_run, place', Fields.latest_replaced again other h, ← place]
  rw [OptionList.build, same, OptionList.build]

theorem run_latest_functions :
    let pair : Handle := .func 2 fun ids => .var (ids.headD 0)
    let same : Handle := .func 1 fun ids => .var (ids.headD 0)
    let steps : List (OptionList.Step Handle) :=
      [.set "old" pair, .collect [("z", pair)], .setSome "b" none, .set "a" same, .setSome "z" (some same)]
    let others : List (OptionList.Step Handle) := [.set "z" (.var 9), .set "a" same, .set "z" same]
    let options := OptionList.run steps
    let built := options.build.run {}
    OptionList.pushed steps = [("z", pair), ("a", same), ("z", same)] ∧ options.keys = ["a", "z"] ∧
    Fields.get? "a" built.result = some (.func [1] (.var 1)) ∧
    Fields.get? "z" built.result = some (.func [2] (.var 2)) ∧ built.context.allocated = 2 ∧
    (OptionList.run others).build = options.build := by
  intro pair same steps others options built
  obtain ⟨keeps, inTurn, replaced⟩ := run_latest steps {}
  refine ⟨rfl, keeps.keys, ?_, ?_, ?_, ?_⟩
  · exact inTurn.value [] "a" same [("z", same)] rfl
  · exact inTurn.value [("a", same)] "z" same [] rfl
  · exact congrArg Context.allocated inTurn.left
  · exact replaced [] "z" pair [("a", same), ("z", same)] rfl (by decide) (.var 9) others rfl

end Proofs.OptionSteps

end QueryTerms
