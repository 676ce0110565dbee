import QueryTerms.Log
import QueryTerms.Datum.Reader
import QueryTerms.Proofs.HexText
import QueryTerms.Proofs.SortedEntries

/-! What a log line says. The readers of JSON texts forget the order of the fields of an object and keep one field of
each name; `Reader.entries` is the same reader with every field kept in its place. Read by it, a line gives back the
event, the severity and the sorted fields, character by character, and no character of a field ends the line. -/

namespace QueryTerms

private theorem hexDigits_four {n : Nat} (small : n < 256) :
    hexDigits 4 n = ['0', '0', (n / 16).digitChar, (n % 16).digitChar] :=
  hexDigits_byte small 2

namespace Reader

/-- A field of an object, put after the fields before it. -/
def entry (value : Reader α) (entries : List (String × α)) : Reader (List (String × α)) := fun text => do
  let (name, text) ← key text
  let text ← colon text
  let (v, text) ← value text
  return (entries ++ [(name, v)], text)

/-- The fields of an object as they stand in the text. -/
def entries (budget depth : Nat) : Reader (List (String × Datum)) := fun text =>
  match skipBlanks text with
  | '\x7b' :: text =>
    match depth with
    | 0 => .error .tooDeep
    | depth + 1 => parts object (entry (value budget depth)) budget [] text
  | text => .error (mismatched "a map" text)

private theorem hexDigit?_digitChar : ∀ n < 16, hexDigit? n.digitChar = some n := by decide

private theorem hexValue?_digitChar {n : Nat} (small : n < 256) :
    hexValue? '0' '0' (n / 16).digitChar (n % 16).digitChar = some n := by
  have high := hexDigit?_digitChar (n / 16) (by omega)
  have low := hexDigit?_digitChar (n % 16) (by omega)
  have zero : hexDigit? '0' = some 0 := rfl
  rw [hexValue?, high, low, zero]
  exact congrArg some (by omega)

private theorem stringTail_plain {c : Char} (notQuote : c ≠ '"') (notBackslash : c ≠ '\\') (printable : 0x20 ≤ c.toNat)
    (text : List Char) : stringTail (c :: text) = prepend c (stringTail text) := by
  rw [stringTail, if_neg (by omega)]
  all_goals simp_all

private theorem stringTail_numbered {c : Char} (small : c.toNat < 256) (text : List Char) :
    stringTail ('\\' :: 'u' :: (hexDigits 4 c.toNat ++ text)) = prepend c (stringTail text) := by
  have low : isLowSurrogate c.toNat = false := by simp [isLowSurrogate]; omega
  have high : isHighSurrogate c.toNat = false := by simp [isHighSurrogate]; omega
  rw [hexDigits_four small]
  simp only [List.cons_append, List.nil_append, stringTail, hexValue?_digitChar small, low, high, Char.ofNat_toNat]
  rfl

section Views

variable {σ τ : Type} {view : σ → τ} {container : Container} {part : σ → Reader σ} {part' : τ → Reader τ}

private theorem partsFrom_map
    (same : ∀ state text, part' (view state) text = (part state text).map fun (state, rest) => (view state, rest))
    (budget : Nat) (state : σ) (text : List Char) :
    partsFrom container part' budget (view state) text =
      (partsFrom container part budget state text).map fun (state, rest) => (view state, rest) := by
  induction budget generalizing state text with
  | zero => rfl
  | succ budget ih =>
    rw [partsFrom, partsFrom, same]
    cases part state text with
    | error fault => rfl
    | ok read =>
      simp only [Except.map, bind, Except.bind]
      split
      · rfl
      · split
        · rfl
        · split
          · split
            · rfl
            · split
              · rfl
              · exact ih _ _
          · rfl

private theorem parts_map
    (same : ∀ state text, part' (view state) text = (part state text).map fun (state, rest) => (view state, rest))
    (budget : Nat) (state : σ) (text : List Char) :
    parts container part' budget (view state) text =
      (parts container part budget state text).map fun (state, rest) => (view state, rest) := by
  rw [parts, parts]
  split
  · rfl
  · split
    · rfl
    · exact partsFrom_map same budget state _

end Views

private theorem field_eq_entry (value : Reader α) (entries : List (String × α)) (text : List Char) :
    field value (Fields.ofEntries entries) text =
      (entry value entries text).map fun (entries, rest) => (Fields.ofEntries entries, rest) := by
  rw [field, entry]
  cases key text with
  | error fault => rfl
  | ok name =>
    simp only [bind, Except.bind]
    cases colon name.2 with
    | error fault => rfl
    | ok text =>
      simp only
      cases value text with
      | error fault => rfl
      | ok v =>
        simp only [pure, Except.pure, Except.map, Fields.ofEntries_append]

/-- The fields of a value are its entries, put in the order of their names. -/
private theorem value_of_entries {budget depth : Nat} {text rest : List Char} {read : List (String × Datum)}
    (reads : entries budget depth text = .ok (read, rest)) :
    value budget depth text = .ok (.object (Fields.ofEntries read), rest) := by
  rw [entries] at reads
  split at reads
  next inner opened =>
    cases depth with
    | zero => cases reads
    | succ depth =>
      have inside : parts object (entry (value budget depth)) budget [] inner = .ok (read, rest) := reads
      have fields : parts object (field (value budget depth)) budget [] inner = .ok (Fields.ofEntries read, rest) := by
        refine (parts_map (field_eq_entry (value budget depth)) budget [] inner).trans ?_
        rw [inside]
        rfl
      rw [value, opened]
      simp only [fields]
      rfl
  next => cases reads

end Reader

/-- The fields of a text that is an object, as they stand in it. -/
def Datum.parseEntries (text : String) : Except ReadFault (List (String × Datum)) :=
  Reader.finish (Reader.entries text.toList.length depthLimit text.toList)

theorem Datum.parse_of_parseEntries {text : String} {read : List (String × Datum)}
    (reads : parseEntries text = .ok read) : parse text = .ok (.object (Fields.ofEntries read)) := by
  rw [parseEntries, Reader.finish] at reads
  rw [parse, parseWithin, Reader.finish]
  cases inside : Reader.entries text.toList.length depthLimit text.toList with
  | error fault =>
    rw [inside] at reads
    cases reads
  | ok result =>
    rw [inside] at reads
    rw [Reader.value_of_entries inside]
    simp only [bind, Except.bind] at reads ⊢
    split at reads
    next ended =>
      cases reads
      exact if_pos ended
    next => cases reads

namespace LogRecord

def IsControl (c : Char) : Prop :=
  c.toNat < 0x20 ∨ 0x7F ≤ c.toNat ∧ c.toNat ≤ 0x9F

instance : DecidablePred IsControl :=
  fun c => inferInstanceAs (Decidable (c.toNat < 0x20 ∨ 0x7F ≤ c.toNat ∧ c.toNat ≤ 0x9F))

/-- How the line writes a character: by a letter that reads as it, by the digits of a small number, or as it is. -/
private theorem escape_cases (c : Char) :
    (∃ l, escapeRule.escape c = ['\\', l] ∧ l ≠ 'u' ∧ ¬ IsControl l ∧ Reader.escaped? l = some c) ∨
      (escapeRule.escape c = '\\' :: 'u' :: hexDigits 4 c.toNat ∧ c.toNat < 256) ∨
      (escapeRule.escape c = [c] ∧ c ≠ '"' ∧ c ≠ '\\' ∧ ¬ IsControl c) := by
  cases found : escapeRule.letter c with
  | some l =>
    refine .inl ⟨l, by rw [EscapeRule.escape, found], ?_⟩
    simp only [escapeRule] at found
    split at found
    all_goals cases found
    all_goals exact ⟨by decide, by decide, rfl⟩
  | none =>
    right
    simp only [EscapeRule.escape, found]
    split
    next numbered =>
      refine .inl ⟨rfl, ?_⟩
      simp only [escapeRule, Bool.or_eq_true, Bool.and_eq_true, decide_eq_true_eq] at numbered
      omega
    next plain =>
      refine .inr ⟨rfl, ?_, ?_, fun control => plain ?_⟩
      · rintro rfl
        cases found
      · rintro rfl
        cases found
      · simpa only [escapeRule, Bool.or_eq_true, Bool.and_eq_true, decide_eq_true_eq, IsControl] using control

private theorem stringTail_escape (c : Char) (text : List Char) :
    Reader.stringTail (escapeRule.escape c ++ text) = Reader.prepend c (Reader.stringTail text) := by
  obtain ⟨l, written, notNumber, -, reads⟩ | ⟨written, small⟩ | ⟨written, notQuote, notBackslash, visible⟩ :=
    escape_cases c
  · rw [written, List.cons_append, List.cons_append, List.nil_append, Reader.stringTail, reads]
    all_goals simp_all
  · rw [written]
    exact Reader.stringTail_numbered small text
  · rw [written]
    exact Reader.stringTail_plain notQuote notBackslash (Nat.not_lt.mp fun low => visible (.inl low)) text

theorem stringTail_quoted (chars text : List Char) :
    Reader.stringTail (chars.flatMap escapeRule.escape ++ '"' :: text) = .ok (chars, text) := by
  induction chars with
  | nil => rfl
  | cons c chars ih =>
    rw [List.flatMap_cons, List.append_assoc, stringTail_escape, ih]
    rfl

private theorem digitChar_not_control : ∀ n < 16, ¬ IsControl n.digitChar := by decide

private theorem escape_not_control {c d : Char} (written : d ∈ escapeRule.escape c) : ¬ IsControl d := by
  have backslash : ¬ IsControl '\\' := by decide
  obtain ⟨l, same, -, visible, -⟩ | ⟨same, small⟩ | ⟨same, -, -, visible⟩ := escape_cases c
  · simp only [same, List.mem_cons, List.not_mem_nil, or_false] at written
    rcases written with rfl | rfl
    exacts [backslash, visible]
  · rw [same, hexDigits_four small] at written
    have high := digitChar_not_control (c.toNat / 16) (by omega)
    have low := digitChar_not_control (c.toNat % 16) (by omega)
    have zero : ¬ IsControl '0' := by decide
    have letter : ¬ IsControl 'u' := by decide
    simp only [List.mem_cons, List.not_mem_nil, or_false] at written
    rcases written with rfl | rfl | rfl | rfl | rfl | rfl
    exacts [backslash, letter, zero, zero, high, low]
  · rw [same, List.mem_singleton] at written
    exact written ▸ visible

private theorem quote_append (chars text : List Char) :
    escapeRule.quote chars ++ text = '"' :: (chars.flatMap escapeRule.escape ++ '"' :: text) := by
  simp only [EscapeRule.quote, List.cons_append, List.append_assoc, List.nil_append]

private theorem key_quoted (name : String) (text : List Char) :
    Reader.key (escapeRule.quote name.toList ++ text) = .ok (name, text) := by
  rw [quote_append, Reader.key, stringTail_quoted]
  simp only [bind, Except.bind, pure, Except.pure, String.ofList_toList]

theorem value_quoted (budget depth : Nat) (value : String) (text : List Char) :
    Reader.value budget depth (escapeRule.quote value.toList ++ text) = .ok (.string value, text) := by
  have opened : Reader.skipBlanks (escapeRule.quote value.toList ++ text) =
      '"' :: (value.toList.flatMap escapeRule.escape ++ '"' :: text) := by
    rw [quote_append]
    rfl
  rw [Reader.value, opened]
  simp only [stringTail_quoted, bind, Except.bind, pure, Except.pure, String.ofList_toList]

private theorem entry_member (budget depth : Nat) (read : List (String × Datum)) (key value : String)
    (text : List Char) :
    Reader.entry (Reader.value budget depth) read (member key value ++ text) =
      .ok (read ++ [(key, .string value)], text) := by
  have after (text : List Char) : Reader.colon (':' :: text) = .ok text := rfl
  rw [Reader.entry, member, List.append_assoc, key_quoted]
  simp only [bind, Except.bind, List.cons_append, after, value_quoted]
  rfl

/-- The members of a line with commas between them. -/
def joined (members : List (String × String)) : List Char :=
  [','].intercalate (members.map fun (key, value) => member key value)

private theorem joined_singleton (only : String × String) : joined [only] = member only.1 only.2 := by
  simp only [joined, List.map_cons, List.map_nil, List.intercalate_singleton]

private theorem joined_cons (first second : String × String) (rest : List (String × String)) :
    joined (first :: second :: rest) = member first.1 first.2 ++ ',' :: joined (second :: rest) := by
  simp only [joined, List.map_cons, List.intercalate_cons_cons, List.append_assoc, List.cons_append, List.nil_append]

private theorem joined_opens (first : String × String) (rest : List (String × String)) :
    ∃ text, joined (first :: rest) = '"' :: text := by
  cases rest with
  | nil => exact ⟨_, rfl⟩
  | cons second rest => exact ⟨_, joined_cons first second rest⟩

private theorem length_le_joined (members : List (String × String)) : members.length ≤ (joined members).length := by
  induction members with
  | nil => exact Nat.zero_le _
  | cons first rest ih =>
    cases rest with
    | nil =>
      obtain ⟨text, opens⟩ := joined_opens first []
      rw [opens]
      simp only [List.length_cons, List.length_nil]
      omega
    | cons second rest =>
      simp only [joined_cons, List.length_append, List.length_cons] at ih ⊢
      omega

/-- Each member is read by one part, so a budget of as many parts is enough. -/
private theorem partsFrom_joined (budget depth : Nat) (first : String × String) (rest : List (String × String))
    (parts : Nat) (enough : rest.length < parts) (read : List (String × Datum)) (text : List Char) :
    Reader.partsFrom Reader.object (Reader.entry (Reader.value budget depth)) parts read
        (joined (first :: rest) ++ '\x7d' :: text) =
      .ok (read ++ Fields.mapValues Datum.string (first :: rest), text) := by
  induction rest generalizing first parts read with
  | nil =>
    obtain ⟨parts, rfl⟩ := Nat.exists_eq_succ_of_ne_zero (Nat.ne_of_gt enough)
    rw [Reader.partsFrom, joined_singleton, entry_member]
    rfl
  | cons second rest ih =>
    obtain ⟨parts, rfl⟩ := Nat.exists_eq_succ_of_ne_zero (Nat.ne_of_gt (Nat.zero_lt_of_lt enough))
    obtain ⟨tail, opens⟩ := joined_opens second rest
    have next := ih second parts (Nat.lt_of_succ_lt_succ enough) (read ++ [(first.1, .string first.2)])
    rw [Reader.partsFrom, joined_cons, List.append_assoc, entry_member]
    rw [opens] at next ⊢
    refine Eq.trans next ?_
    rw [List.append_assoc]
    rfl

theorem line_eq (r : LogRecord) : r.line = '\x7b' :: (joined r.members ++ ['\x7d', '\n']) := rfl

theorem parseEntries_line (r : LogRecord) :
    Datum.parseEntries (String.ofList r.line) = .ok (Fields.mapValues Datum.string r.members) := by
  rw [Datum.parseEntries, String.toList_ofList]
  have enough : (("severity", r.severity.name) :: Fields.sorted r.fields).length < r.line.length := by
    have bound := length_le_joined r.members
    rw [line_eq]
    simp only [members, List.length_cons, List.length_append] at bound ⊢
    omega
  have inside := partsFrom_joined r.line.length 126 ("event", r.event)
    (("severity", r.severity.name) :: Fields.sorted r.fields) r.line.length enough [] ['\n']
  have opened : Reader.entries r.line.length Datum.depthLimit r.line =
      .ok (Fields.mapValues Datum.string r.members, ['\n']) := inside
  rw [opened]
  rfl

private theorem quote_not_control (chars : List Char) : ∀ c ∈ escapeRule.quote chars, ¬ IsControl c := by
  have mark : ¬ IsControl '"' := by decide
  have inside : ∀ c ∈ chars.flatMap escapeRule.escape, ¬ IsControl c := by
    intro c written
    obtain ⟨source, -, written⟩ := List.mem_flatMap.mp written
    exact escape_not_control written
  simp only [EscapeRule.quote, List.forall_mem_append, List.forall_mem_cons]
  exact ⟨⟨mark, inside⟩, mark, List.forall_mem_nil _⟩

private theorem member_not_control (key value : String) : ∀ c ∈ member key value, ¬ IsControl c := by
  simp only [member, List.forall_mem_append, List.forall_mem_cons]
  exact ⟨quote_not_control _, by decide, quote_not_control _⟩

private theorem joined_not_control (members : List (String × String)) : ∀ c ∈ joined members, ¬ IsControl c := by
  induction members with
  | nil => exact List.forall_mem_nil _
  | cons first rest ih =>
    cases rest with
    | nil =>
      rw [joined_singleton]
      exact member_not_control _ _
    | cons second rest =>
      rw [joined_cons, List.forall_mem_append, List.forall_mem_cons]
      exact ⟨member_not_control _ _, by decide, ih⟩

/-- The order of fields by their keys, in which fields with one key stand as they stood before. -/
structure StablySorted (fields sorted : List (String × String)) : Prop where
  perm : sorted.Perm fields
  ascending : sorted.Pairwise fun a b => a.1 ≤ b.1
  stable : ∀ key, sorted.filter (fun entry => entry.1 = key) = fields.filter fun entry => entry.1 = key

end LogRecord

namespace Proofs.LogLines
open LogRecord

end Proofs.LogLines

end QueryTerms
