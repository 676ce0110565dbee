import QueryTerms.Command.Run
import QueryTerms.Proofs.Envelope
import QueryTerms.Proofs.Framing
import QueryTerms.Proofs.HexText
import QueryTerms.Proofs.Positions

/-! The command that prints the query for a table. It needs a table, a configuration that can be read and used, and a
name of a database if one is given; without one of these it fails before it changes anything. Otherwise it sets the
threshold of the log and prints the query, or its frame in hexadecimal digits if the query is short enough. -/

namespace QueryTerms

private theorem mapError_eq_ok_iff {x : Except ε α} {f : ε → δ} {a : α} : x.mapError f = .ok a ↔ x = .ok a := by
  cases x <;> simp [Except.mapError]

private theorem mapError_eq_error_iff {x : Except ε α} {f : ε → δ} {d : δ} :
    x.mapError f = .error d ↔ ∃ e, x = .error e ∧ f e = d := by
  cases x <;> simp [Except.mapError]

private theorem bind_eq_ok_iff {x : Except ε α} {f : α → Except ε β} {b : β} :
    x >>= f = .ok b ↔ ∃ a, x = .ok a ∧ f a = .ok b := by
  cases x <;> simp [bind, Except.bind]

/-- A text of lower-case digits for the bytes of a frame: eight for the token and four for the length of the payload,
the least significant ones first, and then the payload. -/
def IsFrameText (token : UInt64) (payload : List UInt8) (output : String) : Prop :=
  ∃ first second : List UInt8, first.length = 8 ∧ ofLittleEndian first = token.toNat ∧ second.length = 4 ∧
    ofLittleEndian second = payload.length ∧ readHex? output.toList = some (first ++ (second ++ payload))

theorem isFrameText_iff {token : UInt64} {payload : List UInt8} {output : String}
    (short : payload.length < UInt32.size) :
    IsFrameText token payload output ↔
      output = hexText (littleEndian 8 token.toNat ++ (littleEndian 4 payload.length ++ payload)) := by
  constructor
  · rintro ⟨first, second, firstLength, firstValue, secondLength, secondValue, digits⟩
    have tokenBytes := littleEndian_ofLittleEndian first
    have sizeBytes := littleEndian_ofLittleEndian second
    rw [firstLength, firstValue] at tokenBytes
    rw [secondLength, secondValue] at sizeBytes
    rw [tokenBytes, sizeBytes, readHex?_eq_some_iff.mp digits]
  · rintro rfl
    exact ⟨_, _, length_littleEndian _ _, ofLittleEndian_littleEndian token.toNat_lt, length_littleEndian _ _,
      ofLittleEndian_littleEndian short, readHex?_hexText _⟩

namespace Term

private theorem eq_of_at?_literal {d : Datum} {p : Position} {t : Term} (found : (literal d).at? p = some t) :
    t = literal d := by
  cases p with
  | nil => exact (Option.some.inj found).symm
  | cons step p =>
    obtain ⟨_, child, _⟩ := at?_cons.mp found
    cases child

private theorem mem_of_child?_call {op : Operator} {args : List Term} {named : List (String × Term)} {step : Step}
    {c : Term} (child : (call op args named).child? step = some c) : c ∈ args ∨ c ∈ named.map Prod.snd := by
  cases step with
  | label => cases child
  | arg i => exact .inl (List.mem_of_getElem? child)
  | field i =>
    obtain ⟨entry, found, rfl⟩ := Option.map_eq_some_iff.mp child
    exact .inr (List.mem_map_of_mem (List.mem_of_getElem? found))

private theorem at?_database {name : String} {p : Position} {args : List Term} {named : List (String × Term)}
    (found : (database name).at? p = some (.call .db args named)) : args = [.literal (.string name)] ∧ named = [] := by
  cases p with
  | nil =>
    cases found
    exact ⟨rfl, rfl⟩
  | cons step p =>
    obtain ⟨c, child, found⟩ := at?_cons.mp found
    have part := mem_of_child?_call child
    simp only [List.mem_singleton, List.map_nil, List.not_mem_nil, or_false] at part
    cases eq_of_at?_literal (part ▸ found)

/-- The reference to a table holds no other reference to a database than that to the database of the table. -/
theorem at?_table {database name : String} {flag : Option Bool} {p : Position} {args : List Term}
    {named : List (String × Term)} (found : (table database name flag).at? p = some (.call .db args named)) :
    args = [.literal (.string database)] ∧ named = [] := by
  cases p with
  | nil => cases found
  | cons step p =>
    obtain ⟨c, child, found⟩ := at?_cons.mp found
    rcases mem_of_child?_call child with part | part
    · rcases List.mem_cons.mp part with rfl | part
      · exact at?_database found
      · cases eq_of_at?_literal (List.mem_singleton.mp part ▸ found)
    · simp only [List.map_map, List.mem_map] at part
      obtain ⟨on, _, rfl⟩ := part
      cases eq_of_at?_literal found

end Term

namespace Config

/-- A name of a database: at least one character, each a Latin letter, a digit or the low line. -/
def IsName (name : String) : Prop :=
  name ≠ "" ∧ ∀ c ∈ name.toList, ('A' ≤ c ∧ c ≤ 'Z') ∨ ('a' ≤ c ∧ c ≤ 'z') ∨ ('0' ≤ c ∧ c ≤ '9') ∨ c = '_'

def Valid (config : Config) : Prop :=
  IsName config.database ∧ ∃ severity, Severity.ofName? config.logLevel = some severity

/-- The configuration without a database from the command line: that of the file if there is one. -/
def Loaded (read : String → Except FileError String) : Option String → Config → Prop
  | none, config => config = {}
  | some file, config => ∃ text, read file = .ok text ∧ parse text = .ok config ∧ config.Valid

/-- The configuration with the database of the command line, if there is one. -/
def withDatabase (base : Config) (given : Option String) : Config :=
  { base with database := given.getD base.database }

private theorem isNameChar_iff {c : Char} : isNameChar c = true ↔
    ('A' ≤ c ∧ c ≤ 'Z') ∨ ('a' ≤ c ∧ c ≤ 'z') ∨ ('0' ≤ c ∧ c ≤ '9') ∨ c = '_' := by
  have ranges : isNameChar c = (((decide ('A' ≤ c ∧ c ≤ 'Z') || (decide ('a' ≤ c) && decide (c ≤ 'z'))) ||
      (decide ('0' ≤ c) && decide (c ≤ '9'))) || c == '_') := rfl
  simp only [ranges, Bool.or_eq_true, Bool.and_eq_true, decide_eq_true_eq, beq_iff_eq, or_assoc]

theorem severity_eq_ok_iff {config : Config} {severity : Severity} :
    config.severity = .ok severity ↔ Severity.ofName? config.logLevel = some severity := by
  unfold Config.severity
  split
  next found => simp [found]
  next missing => simp [missing]

theorem validate_eq_ok_iff {config : Config} {severity : Severity} :
    config.validate = .ok severity ↔
      IsName config.database ∧ Severity.ofName? config.logLevel = some severity := by
  have named : IsName config.database ↔
      config.database.toList.isEmpty = false ∧ config.database.toList.all isNameChar = true := by
    simp [IsName, isNameChar_iff]
  rw [validate, named, ← severity_eq_ok_iff]
  split
  next empty => simp [empty]
  next nonempty =>
    split
    next other => simp_all
    next all => simp_all

private theorem valid_iff {config : Config} : config.Valid ↔ ∃ severity, config.validate = .ok severity := by
  simp only [validate_eq_ok_iff, Valid, exists_and_left]

theorem default_valid : Valid {} := by
  refine ⟨?_, .warn, ?_⟩
  · simp [IsName, defaultDatabase]
  · decide +kernel

theorem load_eq_ok_iff {read : String → Except FileError String} {file : String} {config : Config} :
    load read file = .ok config ↔ Loaded read (some file) config := by
  simp only [load, ofText, bind_eq_ok_iff, mapError_eq_ok_iff, Loaded, valid_iff, pure, Except.pure, Except.ok.injEq]
  constructor
  · rintro ⟨text, found, config, parsed, severity, valid, rfl⟩
    exact ⟨text, found, parsed, severity, valid⟩
  · rintro ⟨text, found, parsed, severity, valid⟩
    exact ⟨text, found, config, parsed, severity, valid, rfl⟩

theorem Loaded.valid {read : String → Except FileError String} {path : Option String} {config : Config}
    (loaded : Loaded read path config) : config.Valid := by
  cases path with
  | none => exact loaded ▸ default_valid
  | some file =>
    obtain ⟨_, _, _, valid⟩ := loaded
    exact valid

end Config

namespace Command

variable {read : String → Except FileError String} {path database : Option String} {config : Config}

theorem tableConfig_eq_ok_iff :
    (tableConfig read path database).2 = .ok config ↔
      ∃ base, Config.Loaded read path base ∧ (∀ given ∈ database, Config.IsName given) ∧
        config = base.withDatabase database := by
  simp only [tableConfig, bind_eq_ok_iff, Config.withDatabase]
  refine exists_congr fun base => (and_congr_left' ?_).trans (and_congr_right fun loaded => ?_)
  · cases path with
    | none => simp [Config.Loaded, eq_comm]
    | some file =>
      rw [← Config.load_eq_ok_iff]
      cases found : Config.load read file <;> simp [found]
  · cases database with
    | none => simp [pure, Except.pure, eq_comm]
    | some name =>
      obtain ⟨severity, level⟩ := loaded.valid.2
      simp [bind_eq_ok_iff, mapError_eq_ok_iff, Config.validate_eq_ok_iff, level, pure, Except.pure, @eq_comm _ config]

variable {threshold : Severity} {name : String} {token : UInt64} {framed : Bool}

/-- The query that the command prints. -/
def tableQuery (config : Config) (name : String) (token : UInt64) : Query :=
  ((Query.start (Handle.table none name) config.options).run (config.context token)).result

private theorem runTable_empty (framed : Bool) :
    runTable read threshold "" database token path framed = { result := .error .emptyTableName, threshold } := rfl

private theorem runTable_of_error {e : ConfigError} (nonempty : name ≠ "")
    (refused : (tableConfig read path database).2 = .error e) :
    (runTable read threshold name database token path framed).result = .error (.config e) ∧
      (runTable read threshold name database token path framed).threshold = threshold := by
  have notEmpty : name.isEmpty = false := by simpa using nonempty
  simp only [runTable, notEmpty, refused, bind, Except.bind]
  exact ⟨rfl, rfl⟩

private theorem runTable_of_ok {severity : Severity} (nonempty : name ≠ "")
    (chosen : (tableConfig read path database).2 = .ok config)
    (level : Severity.ofName? config.logLevel = some severity) :
    (runTable read threshold name database token path framed).result =
        tableText (tableQuery config name token) framed ∧
      (runTable read threshold name database token path framed).threshold = severity := by
  have notEmpty : name.isEmpty = false := by simpa using nonempty
  simp only [runTable, notEmpty, chosen, bind, Except.bind, Config.severity_eq_ok_iff.mpr level, Except.mapError, pure,
    Except.pure]
  exact ⟨rfl, rfl⟩

theorem tableQuery_eq (config : Config) (name : String) (token : UInt64) :
    ∃ sent, tableQuery config name token =
      ⟨token, .array [.unsigned 1, (Term.table config.database name config.useOutdated).encode, .object sent]⟩ := by
  have built (context : Context) : (Handle.table none name).run context =
      ⟨.table context.database name context.useOutdated, context, []⟩ := Handle.table_eq none name context
  have steady : (Handle.table none name).Steady := fun context => ⟨context.allocated, by rw [built]⟩
  obtain ⟨sent, started, -⟩ := Query.start_sends steady config.options_steady (OptionList.ofEntries_nodup _)
    (config.context token)
  rw [built] at started
  exact ⟨sent, started⟩

theorem tableText_framed_eq_ok_iff {q : Query} {output : String} :
    tableText q true = .ok output ↔ q.payload.length < 2 ^ 32 ∧ IsFrameText q.token q.payload output := by
  have framed : tableText q true = .ok output ↔ ∃ bytes, q.frame = .ok bytes ∧ output = hexText bytes := by
    rw [tableText, if_pos rfl, mapError_eq_ok_iff]
    cases q.frame <;> simp [Except.map, eq_comm]
  rw [framed]
  constructor
  · rintro ⟨bytes, made, same⟩
    obtain ⟨short, rfl⟩ := Query.frame_eq_ok_iff.mp made
    exact ⟨short, (isFrameText_iff short).mpr same⟩
  · rintro ⟨short, digits⟩
    exact ⟨_, Query.frame_eq_ok_iff.mpr ⟨short, rfl⟩, (isFrameText_iff short).mp digits⟩

private theorem tableText_error {q : Query} {e : CommandError} (failed : tableText q framed = .error e) :
    e.code = "REQL_CLI_WIRE_ERROR" := by
  cases framed with
  | false => cases failed
  | true =>
    rw [tableText, if_pos rfl] at failed
    obtain ⟨cause, -, rfl⟩ := mapError_eq_error_iff.mp failed
    rfl

/-- What the command needs: a table, a configuration that can be used, and the name of a database if it is given one. -/
structure Accepts (read : String → Except FileError String) (name : String) (database path : Option String)
    (base : Config) : Prop where
  table : name ≠ ""
  loaded : Config.Loaded read path base
  database : ∀ given ∈ database, Config.IsName given

variable {base : Config}

theorem Accepts.runs (accepts : Accepts read name database path base) (threshold : Severity) (token : UInt64)
    (framed : Bool) :
    (runTable read threshold name database token path framed).result =
        tableText (tableQuery (base.withDatabase database) name token) framed ∧
      Severity.ofName? base.logLevel = some (runTable read threshold name database token path framed).threshold := by
  obtain ⟨severity, level⟩ := accepts.loaded.valid.2
  have chosen := tableConfig_eq_ok_iff.mpr ⟨base, accepts.loaded, accepts.database, rfl⟩
  obtain ⟨result, threshold⟩ := runTable_of_ok accepts.table chosen level
  exact ⟨result, by rw [threshold, level]⟩

theorem Accepts.isName (accepts : Accepts read name database path base) :
    Config.IsName (base.withDatabase database).database := by
  cases database with
  | none => exact accepts.loaded.valid.1
  | some given => exact accepts.database given rfl

/-- Without what it needs the command fails, and the threshold stays. -/
theorem runTable_refused (refused : ¬ ∃ base, Accepts read name database path base) (threshold : Severity)
    (token : UInt64) (framed : Bool) :
    (∃ e, (runTable read threshold name database token path framed).result = .error e) ∧
      (runTable read threshold name database token path framed).threshold = threshold := by
  by_cases empty : name = ""
  · rw [empty, runTable_empty]
    exact ⟨⟨_, rfl⟩, rfl⟩
  · cases chosen : (tableConfig read path database).2 with
    | error e =>
      obtain ⟨failed, kept⟩ := runTable_of_error empty chosen
      exact ⟨⟨_, failed⟩, kept⟩
    | ok config =>
      obtain ⟨base, loaded, named, -⟩ := tableConfig_eq_ok_iff.mp chosen
      exact absurd ⟨base, empty, loaded, named⟩ refused

theorem accepts_of_ok {output : String}
    (printed : (runTable read threshold name database token path framed).result = .ok output) :
    ∃ base, Accepts read name database path base := by
  by_contra refused
  obtain ⟨⟨e, failed⟩, -⟩ := runTable_refused refused threshold token framed
  rw [printed] at failed
  cases failed

theorem runTable_framed_eq_ok_iff {output : String} :
    (runTable read threshold name database token path true).result = .ok output ↔
      ∃ text, (runTable read threshold name database token path false).result = .ok text ∧
        text.toUTF8.toList.length < 2 ^ 32 ∧ IsFrameText token text.toUTF8.toList output := by
  by_cases accepted : ∃ base, Accepts read name database path base
  · obtain ⟨base, accepts⟩ := accepted
    obtain ⟨sent, query⟩ := tableQuery_eq (base.withDatabase database) name token
    rw [(accepts.runs threshold token true).1, (accepts.runs threshold token false).1, tableText_framed_eq_ok_iff]
    rw [query, tableText, if_neg Bool.false_ne_true]
    simp only [Except.ok.injEq, exists_eq_left']
    rfl
  · constructor
    · exact fun printed => absurd (accepts_of_ok printed) accepted
    · rintro ⟨text, printed, -⟩
      exact absurd (accepts_of_ok printed) accepted

end Command

namespace Proofs.TableCommand
open Command

/-- The command prints the query exactly if it has what it needs, and its frame exactly if moreover the text of the
query is shorter than 2^32 bytes. The frame is that of the same text. Whatever is printed, the threshold is that of the
configuration and every database that the reference to the table names has a proper name; an error of the input or of
the configuration leaves the threshold as it was. -/
theorem table_printed (read : String → Except FileError String) (threshold : Severity) (name : String)
    (database : Option String) (token : UInt64) (path : Option String) :
    let run := runTable read threshold name database token path
    ((∃ text, (run false).result = .ok text) ↔
      name ≠ "" ∧ (∃ base, Config.Loaded read path base) ∧ ∀ given ∈ database, Config.IsName given) ∧
    ((∃ output, (run true).result = .ok output) ↔
      ∃ text, (run false).result = .ok text ∧ text.toUTF8.toList.length < 2 ^ 32) ∧
    (∀ output, (run true).result = .ok output ↔ ∃ text, (run false).result = .ok text ∧
      text.toUTF8.toList.length < 2 ^ 32 ∧ IsFrameText token text.toUTF8.toList output) ∧
    (∀ framed output, (run framed).result = .ok output → ∃ base, Config.Loaded read path base ∧
      Severity.ofName? base.logLevel = some (run framed).threshold ∧
      let table := Term.table (database.getD base.database) name base.useOutdated
      (∃ sent, (run false).result = .ok (Datum.text (.array [.unsigned 1, table.encode, .object sent]))) ∧
      ∀ p args named, table.at? p = some (.call .db args named) →
        ∃ db, args = [.literal (.string db)] ∧ named = [] ∧ Config.IsName db) ∧
    ∀ framed e, (run framed).result = .error e →
      e.code = "REQL_CLI_INVALID_INPUT" ∨ e.code = "REQL_CLI_CONFIG_ERROR" → (run framed).threshold = threshold := by
  intro run
  refine ⟨⟨?_, ?_⟩, ⟨?_, ?_⟩, fun output => runTable_framed_eq_ok_iff, fun framed output printed => ?_,
    fun framed e failed input => ?_⟩
  · rintro ⟨text, printed⟩
    obtain ⟨base, table, loaded, named⟩ := accepts_of_ok printed
    exact ⟨table, ⟨base, loaded⟩, named⟩
  · rintro ⟨table, ⟨base, loaded⟩, named⟩
    have accepts : Accepts read name database path base := ⟨table, loaded, named⟩
    exact ⟨_, (accepts.runs threshold token false).1⟩
  · rintro ⟨output, printed⟩
    obtain ⟨text, plain, short, -⟩ := runTable_framed_eq_ok_iff.mp printed
    exact ⟨text, plain, short⟩
  · rintro ⟨text, plain, short⟩
    exact ⟨_, runTable_framed_eq_ok_iff.mpr ⟨text, plain, short, (isFrameText_iff short).mpr rfl⟩⟩
  · obtain ⟨base, accepts⟩ := accepts_of_ok printed
    obtain ⟨sent, query⟩ := tableQuery_eq (base.withDatabase database) name token
    refine ⟨base, accepts.loaded, (accepts.runs threshold token framed).2, ⟨sent, ?_⟩, fun p args named found => ?_⟩
    · rw [(accepts.runs threshold token false).1, query]
      rfl
    · obtain ⟨rfl, rfl⟩ := Term.at?_table found
      exact ⟨_, rfl, rfl, accepts.isName⟩
  · by_cases accepted : ∃ base, Accepts read name database path base
    · obtain ⟨base, accepts⟩ := accepted
      rw [(accepts.runs threshold token framed).1] at failed
      rw [tableText_error failed] at input
      exact absurd input (by decide)
    · exact (runTable_refused accepted threshold token framed).2

/-- A file with a level of its own, once with a database that may replace that of the file and once with another. -/
theorem table_printed_override :
    let content := "\x7b\"default_database\":\"app\",\"use_outdated\":false,\"log_level\":\"info\"\x7d"
    let read := fun file => if file = "reql.json" then .ok content else .error .notFound
    let run := fun given => runTable read .fatal "events" (some given) 2 (some "reql.json")
    let text := "[1,[15,[[14,[\"blog\"]],\"events\"],\x7b\"use_outdated\":false\x7d],\x7b\"db\":[14,[\"blog\"]]\x7d]"
    (run "blog" false).result = .ok text ∧
      (∃ base, Config.Loaded read (some "reql.json") base ∧
        Severity.ofName? base.logLevel = some (run "blog" false).threshold) ∧
      (run "blog" false).threshold = .info ∧
      (∃ output, (run "blog" true).result = .ok output ∧ IsFrameText 2 text.toUTF8.toList output) ∧
      (∃ e, (run "no-dashes" true).result = .error e ∧ e.code = "REQL_CLI_CONFIG_ERROR") ∧
      (run "no-dashes" true).threshold = .fatal := by
  intro content read run text
  have printed : (run "blog" false).result = .ok text := mapError_eq_ok_iff.mp
    (show (run "blog" false).result.mapError CommandError.code = .ok text by decide +kernel)
  have refused : ∃ e, (run "no-dashes" true).result = .error e ∧ e.code = "REQL_CLI_CONFIG_ERROR" :=
    mapError_eq_error_iff.mp (by decide +kernel)
  have short : text.toUTF8.toList.length < 2 ^ 32 := by decide +kernel
  obtain ⟨_, ⟨_, frames⟩, made, settles, _⟩ := table_printed read .fatal "events" (some "blog") 2 (some "reql.json")
  obtain ⟨_, _, _, _, keeps⟩ := table_printed read .fatal "events" (some "no-dashes") 2 (some "reql.json")
  obtain ⟨base, loaded, level, -⟩ := settles false text printed
  obtain ⟨output, framed⟩ := frames ⟨text, printed, short⟩
  obtain ⟨same, samePrinted, _, digits⟩ := (made output).mp framed
  obtain rfl := Except.ok.inj (samePrinted.symm.trans printed)
  obtain ⟨e, failed, code⟩ := refused
  exact ⟨printed, ⟨base, loaded, level⟩, by decide +kernel, ⟨output, framed, digits⟩, ⟨e, failed, code⟩,
    keeps true e failed (.inr code)⟩

end Proofs.TableCommand

end QueryTerms
