import QueryTerms.Proofs.LatestEntries
import QueryTerms.Proofs.TableReferences
import QueryTerms.Proofs.DatumReading
import QueryTerms.Proofs.BuildHygiene
import QueryTerms.Config.Basic
import QueryTerms.Query

/-! The query that starts an evaluation. It carries the token of its context, the wire form of the term and that of the
options, which are built after the term and one after the other. The database of the context is added to the options
unless they name one. -/

namespace QueryTerms
open Term

namespace Build

/-- The context that named builds leave when they run one after the other. -/
def contextAfter (entries : List (String × Build α)) (context : Context) : Context :=
  entries.foldl (fun context entry => (entry.2.run context).context) context

/-- The results of named builds that run one after the other. -/
def results : List (String × Build α) → Context → List (String × α)
  | [], _ => []
  | (key, x) :: rest, context => (key, (x.run context).result) :: results rest (x.run context).context

variable {entries earlier later : List (String × Build α)} {key : String} {x : Build α}

theorem keys_results (entries : List (String × Build α)) (context : Context) :
    Fields.keys (results entries context) = Fields.keys entries := by
  induction entries generalizing context with
  | nil => rfl
  | cons entry rest ih => exact congrArg (entry.1 :: ·) (ih (entry.2.run context).context)

private theorem results_append (earlier later : List (String × Build α)) (context : Context) :
    results (earlier ++ later) context = results earlier context ++ results later (contextAfter earlier context) := by
  induction earlier generalizing context with
  | nil => rfl
  | cons entry rest ih => exact congrArg (_ :: ·) (ih (entry.2.run context).context)

private theorem fieldsFrom_run (fields : Fields α) (entries : List (String × Build α)) (context : Context) :
    ((fieldsFrom fields entries).run context).result =
        (results entries context).foldl (fun fields entry => Fields.insert entry.1 entry.2 fields) fields ∧
      ((fieldsFrom fields entries).run context).context = contextAfter entries context := by
  induction entries generalizing fields context with
  | nil => exact ⟨rfl, rfl⟩
  | cons entry rest ih =>
    exact ih (Fields.insert entry.1 (entry.2.run context).result fields) (entry.2.run context).context

theorem fields_run (entries : List (String × Build α)) (context : Context) :
    ((fields entries).run context).result = Fields.ofEntries (results entries context) ∧
      ((fields entries).run context).context = contextAfter entries context :=
  fieldsFrom_run [] entries context

/-- Where no key occurs twice, the value of a key was built after the values before it. -/
theorem get?_fields (distinct : (Fields.keys (earlier ++ (key, x) :: later)).Nodup) (context : Context) :
    Fields.get? key ((fields (earlier ++ (key, x) :: later)).run context).result =
      some (x.run (contextAfter earlier context)).result := by
  have place : results (earlier ++ (key, x) :: later) context = results earlier context ++
      (key, (x.run (contextAfter earlier context)).result) ::
        results later (x.run (contextAfter earlier context)).context :=
    results_append earlier ((key, x) :: later) context
  rw [← keys_results _ context] at distinct
  rw [(fields_run _ context).1, Fields.get?_ofEntries, Fields.get?_reverse distinct, place]
  rw [place] at distinct
  exact Fields.get?_of_nodup distinct

/-- The build changes nothing in its context but the counter. -/
def Steady (x : Build α) : Prop :=
  ∀ context, ∃ counter, (x.run context).context = { context with allocated := counter }

private theorem contextAfter_steady (steady : ∀ entry ∈ entries, entry.2.Steady) (context : Context) :
    ∃ counter, contextAfter entries context = { context with allocated := counter } := by
  induction entries generalizing context with
  | nil => exact ⟨context.allocated, rfl⟩
  | cons entry rest ih =>
    obtain ⟨here, others⟩ := List.forall_mem_cons.mp steady
    obtain ⟨next, moved⟩ := here context
    obtain ⟨last, left⟩ := ih others (entry.2.run context).context
    refine ⟨last, left.trans ?_⟩
    rw [moved]

end Build

theorem Expr.denote_steady (e : Expr) (terms : String → Term) :
    (e.denote fun name => .constant (terms name)).Steady := by
  intro context
  obtain ⟨counter, _, _, _, _, ran, _⟩ := e.denote_resolve_inStep terms context context context.allocated
  exact ⟨counter, congrArg Built.context ran⟩

namespace Query

/-- The options with the database that holds unless they name one. -/
def withDatabase (database : String) (fields : Fields Term) : Fields Term :=
  if Fields.contains "db" fields then fields else Fields.insert "db" (.database database) fields

theorem start_run {root : Handle} {options : OptionList Handle} {context middle final : Context} {t : Term}
    {fields : Fields Term} {notices more : List Notice} (first : root.run context = ⟨t, middle, notices⟩)
    (second : options.build.run middle = ⟨fields, final, more⟩) :
    (start root options).run context =
      ⟨⟨final.token, .array [.unsigned 1, t.encode, .object (encodeNamed (withDatabase final.database fields))]⟩, final,
        notices ++ (more ++ [.queryBuilt final.token final.database])⟩ := by
  simp only [Build.run] at first second
  simp only [start, Build.run, Bind.bind, first, second]
  rfl

private theorem get?_withDatabase (database : String) (fields : Fields Term) (key : String) :
    Fields.get? key (withDatabase database fields) =
      (Fields.get? key fields).or (if key = "db" then some (.database database) else none) := by
  unfold withDatabase
  split
  next named =>
    obtain ⟨value, found⟩ := Fields.mem_keys_iff.mp (Fields.contains_iff.mp named)
    split
    next same => rw [same, found]; rfl
    next => rw [Option.or_none]
  next unnamed =>
    have absent : Fields.get? "db" fields = none := Fields.get?_eq_none_iff.mpr fun member =>
      unnamed (Fields.contains_iff.mpr member)
    rw [Fields.get?_insert]
    split
    next same => rw [same, absent]; rfl
    next => rw [Option.or_none]

private theorem mem_keys_withDatabase {database : String} {fields : Fields Term} {key : String} :
    key ∈ Fields.keys (withDatabase database fields) ↔ key ∈ Fields.keys fields ∨ key = "db" := by
  rw [Fields.mem_keys_iff, Fields.mem_keys_iff, get?_withDatabase]
  cases Fields.get? key fields <;> simp

private theorem withDatabase_ascending {database : String} {fields : Fields Term}
    (ascending : (Fields.keys fields).Pairwise (· < ·)) :
    (Fields.keys (withDatabase database fields)).Pairwise (· < ·) := by
  unfold withDatabase
  split
  · exact ascending
  · exact Fields.insert_ascending ascending

/-- What is sent for options that are built from the given context on. Each is built after the ones before it. Under
`db` stands the database of the context if there is no such option, and the wire form of the option if there is one. -/
structure Sends (options : OptionList Handle) (context : Context) (sent : Fields Datum) : Prop where
  ascending : (Fields.keys sent).Pairwise (· < ·)
  keys : ∀ key, key ∈ Fields.keys sent ↔ key ∈ options.keys ∨ key = "db"
  value : ∀ earlier key h later, options.entries = earlier ++ (key, h) :: later →
    Fields.get? key sent = some (h.run (Build.contextAfter earlier context)).result.encode
  database :
    ("db" ∉ options.keys →
      Fields.get? "db" sent = some (.array [.unsigned 14, .array [.string context.database]])) ∧
    ∀ earlier h later, options.entries = earlier ++ ("db", h) :: later →
      Fields.get? "db" sent = some (h.run (Build.contextAfter earlier context)).result.encode

theorem sends_built {options : OptionList Handle} (distinct : options.keys.Nodup) (context : Context) :
    Sends options context (encodeNamed (withDatabase context.database (options.build.run context).result)) := by
  have built := (Build.fields_run options.entries context).1
  have fieldKeys (key : String) : key ∈ Fields.keys (options.build.run context).result ↔ key ∈ options.keys := by
    rw [OptionList.build, built, Fields.mem_keys_ofEntries, Build.keys_results]
    rfl
  have value (earlier : List (String × Handle)) (key : String) (h : Handle) (later : List (String × Handle))
      (place : options.entries = earlier ++ (key, h) :: later) :
      Fields.get? key (encodeNamed (withDatabase context.database (options.build.run context).result)) =
        some (h.run (Build.contextAfter earlier context)).result.encode := by
    rw [OptionList.keys, place] at distinct
    rw [encodeNamed_eq, Fields.get?_mapValues, get?_withDatabase, OptionList.build, place,
      Build.get?_fields distinct context]
    rfl
  refine ⟨?_, fun key => ?_, value, fun unnamed => ?_, fun earlier => value earlier "db"⟩
  · rw [encodeNamed_eq, Fields.keys_mapValues, OptionList.build, built]
    exact withDatabase_ascending (Fields.ofEntries_ascending _)
  · rw [encodeNamed_eq, Fields.keys_mapValues, mem_keys_withDatabase, fieldKeys]
  · have absent := Fields.get?_eq_none_iff.mpr (mt (fieldKeys "db").mp unnamed)
    rw [encodeNamed_eq, Fields.get?_mapValues, get?_withDatabase, absent]
    rfl

/-- A query has the token of its context, whatever is drawn for the term and the options. -/
theorem start_sends {root : Handle} {options : OptionList Handle} (steady : root.Steady)
    (steadyOptions : ∀ entry ∈ options.entries, entry.2.Steady) (distinct : options.keys.Nodup) (context : Context) :
    ∃ sent, ((start root options).run context).result =
        ⟨context.token, .array [.unsigned 1, (root.run context).result.encode, .object sent]⟩ ∧
      Sends options (root.run context).context sent := by
  obtain ⟨counter, moved⟩ := steady context
  rcases first : root.run context with ⟨t, middle, notices⟩
  rcases second : options.build.run middle with ⟨fields, final, more⟩
  obtain ⟨last, left⟩ := Build.contextAfter_steady steadyOptions middle
  rw [← (Build.fields_run options.entries middle).2, ← OptionList.build, second] at left
  rw [first] at moved
  refine ⟨_, ?_, sends_built distinct middle⟩
  rw [start_run first second, second]
  subst left moved
  rfl

end Query

namespace Expr

theorem options_steady {scope : Scope} (steady : ∀ e : Expr, (e.denote scope).Steady) (entries : List (String × Expr)) :
    ∀ entry ∈ (OptionList.ofEntries (denoteNamed scope entries)).entries, entry.2.Steady := by
  intro entry member
  have among := OptionList.mem_of_mem_ofEntries member
  rw [denoteNamed_eq] at among
  obtain ⟨written, _, rfl⟩ := List.mem_map.mp among
  exact steady written.2

end Expr

/-- Of builds that run one after the other, none starts below the counter of the first. -/
theorem Build.contextAfter_draws {allowed : VarId → Prop} {counted : List (String × Nat)}
    {entries : List (String × Handle)} (related : EntriesDraw allowed counted entries)
    {earlier later : List (String × Handle)} {key : String} {h : Handle}
    (place : entries = earlier ++ (key, h) :: later) (context : Context)
    (used : ∀ v, allowed v → v.toNat ≤ context.allocated.toNat)
    (room : context.allocated.toNat + Expr.total counted < UInt64.size) :
    ∃ k, h.Draws allowed k ∧ context.allocated.toNat ≤ (contextAfter earlier context).allocated.toNat ∧
      (contextAfter earlier context).allocated.toNat + k < UInt64.size := by
  induction related generalizing earlier context with
  | nil => simp at place
  | @cons count entry counted entries first _ ih =>
    rw [Expr.total] at room
    cases earlier with
    | nil =>
      obtain ⟨rfl, rfl⟩ := List.cons.inj place
      exact ⟨count.2, first.2, Nat.le_refl _, by simp only [contextAfter, List.foldl_nil]; omega⟩
    | cons front earlier =>
      obtain ⟨rfl, rest⟩ := List.cons.inj place
      obtain ⟨moved, _⟩ := first.2 context _ used (Nat.le_refl _) (by omega) .nil
      have later : context.allocated.toNat ≤ (entry.2 context).context.allocated.toNat := by omega
      obtain ⟨k, draws, above, left⟩ := ih rest (entry.2 context).context
        (fun v inside => (used v inside).trans later) (by omega)
      exact ⟨k, draws, later.trans above, left⟩

/-- The functions of a term bind variables that were drawn for it, and none of these occurs in an option that is built
after it. -/
theorem Query.options_apart {e : Expr} {entries : List (String × Expr)} {scope : Scope} {context : Context}
    (hygienic : e.Hygienic) (hygienicOptions : Expr.HygienicNamed entries)
    (outer : ∀ name ∈ e.freeNames ++ Expr.freeNamesNamed entries, (scope name).Draws (· ≤ context.allocated) 0)
    (room : context.allocated.toNat + (e.allocations (fun _ => 0) +
      Expr.total (OptionList.ofEntries (Expr.allocationsNamed (fun _ => 0) entries)).entries) < UInt64.size) :
    let options := OptionList.ofEntries (Expr.denoteNamed scope entries)
    let root := (e.denote scope).run context
    (∀ v ∈ root.result.binders, context.allocated < v ∧ v ≤ root.context.allocated) ∧
    ∀ earlier key h later, options.entries = earlier ++ (key, h) :: later →
      let built := (h.run (Build.contextAfter earlier root.context)).result
      ∀ v, v ∈ built.binders ∨ occursFree v built = true → ¬ (context.allocated < v ∧ v ≤ root.context.allocated) := by
  intro options root
  have draws : (e.denote scope).Draws (· ≤ context.allocated) (e.allocations fun _ => 0) :=
    Expr.denote_draws e hygienic fun name free => outer name (List.mem_append_left _ free)
  have drawn := (Expr.denoteNamed_draws entries hygienicOptions fun name free =>
    outer name (List.mem_append_right _ free)).options
  have inUse (v : VarId) (low : v ≤ context.allocated) : v.toNat ≤ context.allocated.toNat :=
    UInt64.le_iff_toNat_le.mp low
  obtain ⟨moved, clean⟩ : root.context.allocated.toNat = _ ∧ Clean _ _ _ [root.result] :=
    draws context _ inUse (Nat.le_refl _) (by omega) .nil
  constructor
  · intro v member
    obtain ⟨above, upTo⟩ := clean.drawn v (by simpa using member)
    exact ⟨UInt64.lt_iff_toNat_lt.mpr above, UInt64.le_iff_toNat_le.mpr (moved ▸ upTo)⟩
  · intro earlier key h later place built v occurs ⟨above, upTo⟩
    rw [UInt64.lt_iff_toNat_lt] at above
    rw [UInt64.le_iff_toNat_le] at upTo
    obtain ⟨k, drawsNext, started, left⟩ := Build.contextAfter_draws drawn place root.context
      (fun v low => by have bound := inUse v low; omega) (by omega)
    obtain ⟨_, cleanNext⟩ : _ ∧ Clean _ _ _ [built] := drawsNext (Build.contextAfter earlier root.context) _
      (fun v low => by have bound := inUse v low; omega) (Nat.le_refl _) left .nil
    rcases occurs with bound | free
    · have beyond := (cleanNext.drawn v (by simpa using bound)).1
      omega
    · have below := inUse v (cleanNext.free built List.mem_cons_self v free)
      omega

namespace Config

theorem options_steady (config : Config) : ∀ entry ∈ config.options.entries, entry.2.Steady := by
  intro entry member
  obtain ⟨written, _, rfl⟩ := List.mem_map.mp (OptionList.mem_of_mem_ofEntries member)
  exact fun context => ⟨context.allocated, rfl⟩

private theorem mem_keys_options {config : Config} {key : String} :
    key ∈ config.options.keys ↔ key ∈ Fields.keys config.globalOptions := by
  rw [options, OptionList.mem_keys_ofEntries, Fields.keys_mapValues]

private theorem get?_options {config : Config} (distinct : (Fields.keys config.globalOptions).Nodup) {key : String}
    {d : Datum} (found : Fields.get? key config.globalOptions = some d) :
    Fields.get? key config.options.entries = some (.constant d.lift) := by
  rw [options, OptionList.get?_ofEntries, Fields.get?_reverse (by rwa [Fields.keys_mapValues]),
    Fields.get?_mapValues, found]
  rfl

end Config

namespace Proofs.Envelope

/-- A query has the token of its context and the wire forms of a term, which is built first, and of options, which are
built next and in turn from the values that were set last. No variable of an option is one that was drawn for the term.
With the options of a configuration, each of its values is read back under its name. -/
theorem start_envelope (e : Expr) (terms : String → Term) :
    let scope : Scope := fun name => .constant (terms name)
    (∀ (entries : List (String × Expr)) (context : Context),
      let options := OptionList.ofEntries (Expr.denoteNamed scope entries)
      let root := (e.denote scope).run context
      (∃ sent, ((Query.start (e.denote scope) options).run context).result =
          ⟨context.token, .array [.unsigned 1, root.result.encode, .object sent]⟩ ∧
        Query.Sends options root.context sent) ∧
      options.keys.Nodup ∧
      (∀ key, Fields.get? key options.entries = (Fields.get? key entries.reverse).map (Expr.denote scope)) ∧
      (e.Hygienic → Expr.HygienicNamed entries →
        (∀ name ∈ e.freeNames ++ Expr.freeNamesNamed entries,
          (terms name).binders = [] ∧ ∀ v, occursFree v (terms name) = true → v ≤ context.allocated) →
        context.allocated.toNat + (e.allocations (fun _ => 0) +
          Expr.total (OptionList.ofEntries (Expr.allocationsNamed (fun _ => 0) entries)).entries) < UInt64.size →
        (∀ v ∈ root.result.binders, context.allocated < v ∧ v ≤ root.context.allocated) ∧
        ∀ earlier key h later, options.entries = earlier ++ (key, h) :: later →
          let built := (h.run (Build.contextAfter earlier root.context)).result
          ∀ v, v ∈ built.binders ∨ occursFree v built = true →
            ¬ (context.allocated < v ∧ v ≤ root.context.allocated))) ∧
    ∀ (config : Config) (token : UInt64), (Fields.keys config.globalOptions).Nodup →
      ∃ sent, ((Query.start (e.denote scope) config.options).run (config.context token)).result =
          ⟨token, .array [.unsigned 1, ((e.denote scope).run (config.context token)).result.encode, .object sent]⟩ ∧
        (∀ key, key ∈ Fields.keys sent ↔ key ∈ Fields.keys config.globalOptions ∨ key = "db") ∧
        (∀ key d, Fields.get? key config.globalOptions = some d → (Fields.get? key sent).bind Datum.value? = some d) ∧
        ("db" ∉ Fields.keys config.globalOptions →
          Fields.get? "db" sent = some (.array [.unsigned 14, .array [.string config.database]])) := by
  intro scope
  have steady (e : Expr) : (e.denote scope).Steady := e.denote_steady terms
  refine ⟨fun entries context => ?_, fun config token distinct => ?_⟩
  · intro options root
    refine ⟨?_, OptionList.ofEntries_nodup _, fun key => ?_, fun hygienic hygienicOptions outer room => ?_⟩
    · exact Query.start_sends (steady e) (Expr.options_steady steady entries) (OptionList.ofEntries_nodup _) context
    · rw [OptionList.get?_ofEntries, Expr.denoteNamed_eq, Fields.mapValues, ← List.map_reverse]
      exact Fields.get?_mapValues (Expr.denote scope) key entries.reverse
    · refine Query.options_apart hygienic hygienicOptions (fun name free => ?_) room
      obtain ⟨bare, inUse⟩ := outer name free
      exact Handle.constant_draws fun _ _ => .bare bare inUse
  · obtain ⟨sent, started, sends⟩ := Query.start_sends (steady e) config.options_steady (OptionList.ofEntries_nodup _)
      (config.context token)
    obtain ⟨counter, moved⟩ := steady e (config.context token)
    refine ⟨sent, started, fun key => ?_, fun key d found => ?_, fun unnamed => ?_⟩
    · rw [sends.keys, Config.mem_keys_options]
    · obtain ⟨earlier, later, place⟩ := Fields.exists_of_get? (Config.get?_options distinct found)
      rw [sends.value earlier key _ later place, Option.bind_some]
      exact (value?_encode d.lift).trans d.value?_lift
    · have added := sends.database.1 (mt Config.mem_keys_options.mp unnamed)
      rwa [moved] at added

theorem start_envelope_functions :
    let e : Expr := .plain .map [.table none "users", .func ["x"] (.handle "x")]
    let merge : Expr := .func ["y", "z"] (.handle "z")
    let entries : List (String × Expr) :=
      [("db", .value (.datum (.string "old"))), ("merge", merge), ("db", .value (.datum (.string "new")))]
    let tags : Datum := .array [.object [], .array [.null]]
    let config : Config := { globalOptions := [("profile", .bool true), ("tags", tags)] }
    let root := (e.denote .empty).run {}
    let built := ((merge.denote .empty).run root.context).result
    e.Hygienic ∧ Expr.HygienicNamed entries ∧
    (OptionList.ofEntries (Expr.denoteNamed .empty entries)).keys = ["merge", "db"] ∧
    root.result.binders = [1] ∧ built.binders = [2, 3] ∧
    (∀ v, v ∈ built.binders ∨ occursFree v built = true → ¬ (0 < v ∧ v ≤ root.context.allocated)) ∧
    (Fields.keys config.globalOptions).Nodup ∧
    ∃ sent, ((Query.start (e.denote .empty) config.options).run (config.context 7)).result.body =
        .array [.unsigned 1, ((e.denote .empty).run (config.context 7)).result.encode, .object sent] ∧
      (∀ key, key ∈ Fields.keys sent ↔ key ∈ ["profile", "tags"] ∨ key = "db") ∧
      (Fields.get? "tags" sent).bind Datum.value? = some tags := by
  intro e merge entries tags config root built
  have hygienic : e.Hygienic := by simp [e, Expr.plain, Expr.Hygienic, Expr.HygienicArgs, Expr.HygienicNamed]
  have hygienicOptions : Expr.HygienicNamed entries := by simp [entries, merge, Expr.HygienicNamed, Expr.Hygienic]
  have distinct : (Fields.keys config.globalOptions).Nodup := by simp [config, Fields.keys]
  obtain ⟨general, configured⟩ := start_envelope e fun _ => .literal .null
  obtain ⟨_, _, _, apart⟩ := general entries {}
  obtain ⟨_, fresh⟩ := apart hygienic hygienicOptions (fun name _ => ⟨by simp, by simp⟩) (by decide)
  obtain ⟨sent, started, keys, values, _⟩ := configured config 7 distinct
  refine ⟨hygienic, hygienicOptions, rfl, by decide, by decide, ?_, distinct, sent, ?_, keys, values "tags" tags rfl⟩
  · exact fresh [] "merge" (merge.denote .empty) [("db", .constant (.literal (.string "new")))] rfl
  · exact congrArg Query.body started

end Proofs.Envelope

end QueryTerms
