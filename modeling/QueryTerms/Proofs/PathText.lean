import QueryTerms.Backtrace
import Mathlib.Data.List.TakeWhile

/-! The text of a backtrace and its reader. With a mark before every step the text falls apart into steps from the left,
as long as no key holds a mark. The text leaves out the mark of a key that comes first; since no key starts with a
bracket, the reader can put it back. -/

namespace QueryTerms

namespace PathStep

/-- A key with at least one character and without the characters that start a step, as the names of options are. -/
def Plain : PathStep → Prop
  | .position _ => True
  | .key name => name ≠ "" ∧ ∀ c ∈ name.toList, c ≠ '.' ∧ c ≠ '['

/-- The position that digits stand for, in their shortest form. -/
def readIndex? (digits : List Char) : Option UInt64 :=
  (some (UInt64.ofNat (Nat.ofDigitChars 10 digits 0))).filter fun index => Nat.toDigits 10 index.toNat = digits

/-- Whether a key goes on with the character. -/
def inKey (c : Char) : Bool :=
  c != '.' && c != '['

/-- The first step of a text, and the text after it. -/
def read? : List Char → Option (PathStep × List Char)
  | '[' :: text =>
    match text.dropWhile (· != ']') with
    | ']' :: rest => (readIndex? (text.takeWhile (· != ']'))).map fun index => (.position index, rest)
    | _ => none
  | '.' :: text =>
    if (text.takeWhile inKey).isEmpty then none
    else some (.key (String.ofList (text.takeWhile inKey)), text.dropWhile inKey)
  | _ => none

theorem readIndex?_eq_some_iff {digits : List Char} {index : UInt64} :
    readIndex? digits = some index ↔ digits = Nat.toDigits 10 index.toNat := by
  rw [readIndex?, Option.filter_eq_some_iff, decide_eq_true_iff, Option.some.injEq]
  constructor
  · rintro ⟨-, same⟩
    exact same.symm
  · rintro rfl
    exact ⟨by rw [Nat.ofDigitChars_ten_toDigits, UInt64.ofNat_toNat], rfl⟩

private theorem text_position_append (index : UInt64) (rest : List Char) :
    text (.position index) ++ rest = '[' :: (Nat.toDigits 10 index.toNat ++ ']' :: rest) := by
  simp [text]

private theorem text_key_append (name : String) (rest : List Char) :
    text (.key name) ++ rest = '.' :: (name.toList ++ rest) := rfl

/-- A run of characters ends where the first other one stands. -/
private theorem takeWhile_append_stop {p : Char → Bool} {run : List Char} (all : ∀ c ∈ run, p c = true)
    (rest : List Char) (stop : ∀ c ∈ rest.head?, p c = false) :
    (run ++ rest).takeWhile p = run ∧ (run ++ rest).dropWhile p = rest := by
  rw [List.takeWhile_append_of_pos all, List.dropWhile_append_of_pos all]
  cases rest with
  | nil => simp
  | cons c rest => simp [stop c rfl]

theorem read?_text_append {step : PathStep} (plain : step.Plain) {rest : List Char}
    (stop : ∀ c ∈ rest.head?, inKey c = false) : read? (step.text ++ rest) = some (step, rest) := by
  cases step with
  | position index =>
    have digits : ∀ c ∈ Nat.toDigits 10 index.toNat, (c != ']') = true := by
      intro c member
      have digit := Nat.isDigit_of_mem_toDigits (by decide) (by decide) member
      rw [bne_iff_ne]
      rintro rfl
      cases digit
    obtain ⟨taken, left⟩ := takeWhile_append_stop digits (']' :: rest) (by simp)
    simp only [text_position_append, read?, taken, left, readIndex?_eq_some_iff.mpr rfl, Option.map_some]
  | key name =>
    have inside : ∀ c ∈ name.toList, inKey c = true := by
      intro c member
      simpa [inKey] using plain.2 c member
    obtain ⟨taken, left⟩ := takeWhile_append_stop inside rest stop
    have nonempty : name.toList.isEmpty = false := by simpa using plain.1
    simp only [text_key_append, read?, taken, left, nonempty, String.ofList_toList]
    rfl

theorem eq_text_append_of_read? {step : PathStep} {text rest : List Char} (found : read? text = some (step, rest)) :
    step.Plain ∧ text = step.text ++ rest := by
  unfold read? at found
  split at found
  next text =>
    split at found
    next rest' left =>
      obtain ⟨index, digits, same⟩ := Option.map_eq_some_iff.mp found
      obtain ⟨rfl, rfl⟩ := Prod.mk.inj same
      rw [text_position_append, ← readIndex?_eq_some_iff.mp digits, ← left, List.takeWhile_append_dropWhile]
      exact ⟨trivial, rfl⟩
    next => cases found
  next text =>
    split at found
    next => cases found
    next nonempty =>
      obtain ⟨rfl, rfl⟩ := Prod.mk.inj (Option.some.inj found)
      rw [text_key_append, String.toList_ofList, List.takeWhile_append_dropWhile]
      refine ⟨⟨by simpa using nonempty, fun c member => ?_⟩, rfl⟩
      rw [String.toList_ofList] at member
      simpa [inKey] using List.mem_takeWhile_imp member
  next => cases found

private theorem exists_text_eq_cons (step : PathStep) : ∃ c text, step.text = c :: text ∧ inKey c = false := by
  cases step with
  | position index => exact ⟨'[', _, rfl, by decide⟩
  | key name => exact ⟨'.', _, rfl, by decide⟩

private theorem read?_shorter {step : PathStep} {text rest : List Char} (found : read? text = some (step, rest)) :
    rest.length < text.length := by
  obtain ⟨-, rfl⟩ := eq_text_append_of_read? found
  obtain ⟨c, text, same, -⟩ := step.exists_text_eq_cons
  rw [same, List.length_append, List.length_cons]
  omega

end PathStep

namespace Backtrace

/-- The text of a path with a mark before every step. -/
def marked (path : Backtrace) : List Char :=
  path.flatMap PathStep.text

/-- The steps of which a text with all its marks consists. -/
def readMarked? (text : List Char) : Option Backtrace :=
  if text.isEmpty then some [] else
  match _ : PathStep.read? text with
  | none => none
  | some (step, rest) => (readMarked? rest).map (step :: ·)
termination_by text.length
decreasing_by exact PathStep.read?_shorter ‹_›

private theorem marked_cons (step : PathStep) (path : Backtrace) : marked (step :: path) = step.text ++ marked path :=
  List.flatMap_cons

private theorem marked_stops (path : Backtrace) : ∀ c ∈ path.marked.head?, PathStep.inKey c = false := by
  cases path with
  | nil => simp [marked]
  | cons step rest =>
    obtain ⟨c, text, same, outside⟩ := step.exists_text_eq_cons
    simp [marked_cons, same, outside]

private theorem readMarked?_cons {step : PathStep} {text rest : List Char}
    (found : PathStep.read? text = some (step, rest)) :
    readMarked? text = (readMarked? rest).map (step :: ·) := by
  have nonempty : text.isEmpty = false := by
    cases text with
    | nil => cases found
    | cons c text => rfl
  rw [readMarked?, nonempty, if_neg Bool.false_ne_true]
  split
  next missing =>
    rw [found] at missing
    cases missing
  next step' rest' found' =>
    rw [found] at found'
    obtain ⟨rfl, rfl⟩ := Prod.mk.inj (Option.some.inj found')
    rfl

theorem readMarked?_marked {path : Backtrace} (plain : ∀ step ∈ path, step.Plain) :
    readMarked? path.marked = some path := by
  induction path with
  | nil => rw [marked, List.flatMap_nil, readMarked?]; rfl
  | cons step rest ih =>
    obtain ⟨here, others⟩ := List.forall_mem_cons.mp plain
    rw [marked_cons, readMarked?_cons (PathStep.read?_text_append here (marked_stops rest)), ih others]
    rfl

theorem eq_marked_of_readMarked? {text : List Char} {path : Backtrace} (found : readMarked? text = some path) :
    (∀ step ∈ path, step.Plain) ∧ text = path.marked := by
  fun_induction readMarked? text generalizing path with
  | case1 text empty =>
    obtain rfl := Option.some.inj found
    exact ⟨nofun, List.isEmpty_iff.mp empty⟩
  | case2 => cases found
  | case3 text _ step rest first ih =>
    obtain ⟨path, others, rfl⟩ := Option.map_eq_some_iff.mp found
    obtain ⟨plain, rfl⟩ := PathStep.eq_text_append_of_read? first
    obtain ⟨plainRest, same⟩ := ih others
    exact ⟨List.forall_mem_cons.mpr ⟨plain, plainRest⟩, by rw [marked_cons, ← same]⟩

theorem marked_injective {path other : Backtrace} (plain : ∀ step ∈ path, step.Plain)
    (otherPlain : ∀ step ∈ other, step.Plain) (same : path.marked = other.marked) : path = other := by
  have first := readMarked?_marked plain
  rw [same, readMarked?_marked otherPlain] at first
  exact (Option.some.inj first).symm

/-- Puts back the mark of a key at the start of a text. -/
def mark : List Char → List Char
  | '[' :: text => '[' :: text
  | text => '.' :: text

private theorem mark_cases (text : List Char) :
    (text.head? = some '[' ∧ mark text = text) ∨ (text.head? ≠ some '[' ∧ mark text = '.' :: text) := by
  unfold mark
  split
  next => exact .inl ⟨rfl, rfl⟩
  next other =>
    refine .inr ⟨fun opens => ?_, rfl⟩
    obtain ⟨rest, rfl⟩ := List.head?_eq_some_iff.mp opens
    exact other rest rfl

private theorem mark_ne_nil (text : List Char) : mark text ≠ [] := by
  unfold mark
  split <;> exact List.cons_ne_nil _ _

private theorem mark_injective {text other : List Char} (same : mark text = mark other) : text = other := by
  rcases mark_cases text with ⟨opens, first⟩ | ⟨_, first⟩ <;>
  rcases mark_cases other with ⟨opens', second⟩ | ⟨_, second⟩ <;>
  rw [first, second] at same
  · exact same
  · simp [same] at opens
  · simp [← same] at opens'
  · exact List.cons.inj same |>.2

private theorem text_key (name : String) (rest : Backtrace) :
    text (.key name :: rest) = name.toList ++ rest.marked := rfl

theorem mark_text {path : Backtrace} (nonempty : path ≠ []) (plain : ∀ step ∈ path, step.Plain) :
    mark path.text = path.marked := by
  cases path with
  | nil => exact absurd rfl nonempty
  | cons step rest =>
    cases step with
    | position index => rfl
    | key name =>
      obtain ⟨notEmpty, inside⟩ := plain (.key name) List.mem_cons_self
      rcases mark_cases (text (.key name :: rest)) with ⟨opens, -⟩ | ⟨-, added⟩
      · obtain ⟨c, chars, same⟩ := List.exists_cons_of_ne_nil (mt String.toList_eq_nil_iff.mp notEmpty)
        rw [text_key, same, List.cons_append, List.head?_cons] at opens
        exact absurd (Option.some.inj opens) (inside c (same ▸ List.mem_cons_self)).2
      · exact added

/-- The path that a text stands for. -/
def read? (text : String) : Option Backtrace :=
  if text = "<root>" then some [] else readMarked? (mark text.toList)

/-- All keys are plain, and the path is not the one key that looks like the empty path. -/
def Plain (path : Backtrace) : Prop :=
  path ≠ [.key "<root>"] ∧ ∀ step ∈ path, step.Plain

private theorem toList_description (path : Backtrace) : path.description.toList = path.text :=
  String.toList_ofList

/-- Of the paths with plain keys, only one key of the same text looks like the empty path. -/
theorem description_ne_root {path : Backtrace} (nonempty : path ≠ []) (plain : path.Plain) :
    path.description ≠ "<root>" := by
  intro same
  have rootPlain : ∀ step ∈ [PathStep.key "<root>"], step.Plain := by simp [PathStep.Plain]
  have text : path.text = text [.key "<root>"] := by rw [← toList_description, same]; rfl
  apply plain.1
  apply marked_injective plain.2 rootPlain
  rw [← mark_text nonempty plain.2, text, mark_text (List.cons_ne_nil _ _) rootPlain]

theorem read?_description {path : Backtrace} (plain : path.Plain) : read? path.description = some path := by
  by_cases empty : path = []
  · rw [empty]
    rfl
  · rw [read?, if_neg (description_ne_root empty plain), toList_description, mark_text empty plain.2,
      readMarked?_marked plain.2]

theorem plain_of_read? {text : String} {path : Backtrace} (found : read? text = some path) :
    path.Plain ∧ path.description = text := by
  unfold read? at found
  split at found
  next root =>
    obtain rfl := Option.some.inj found
    exact ⟨⟨nofun, nofun⟩, root.symm⟩
  next notRoot =>
    obtain ⟨plain, same⟩ := eq_marked_of_readMarked? found
    have nonempty : path ≠ [] := by
      rintro rfl
      exact mark_ne_nil _ same
    have chars : text.toList = path.text := mark_injective (same.trans (mark_text nonempty plain).symm)
    have description : path.description = text := by rw [Backtrace.description, ← chars, String.ofList_toList]
    refine ⟨⟨?_, plain⟩, description⟩
    rintro rfl
    exact notRoot description.symm

end Backtrace

namespace Proofs.PathText
open Backtrace

/-- The text of a path with plain keys is read back to exactly its steps, and no other text is read. So no two such
paths have the same text. -/
theorem description_reads_back :
    (∀ text path, Backtrace.read? text = some path ↔ Backtrace.Plain path ∧ description path = text) ∧
    ∀ path other, Backtrace.Plain path → Backtrace.Plain other → description path = description other →
      path = other := by
  refine ⟨fun text path => ⟨plain_of_read?, ?_⟩, fun path other plain otherPlain same => ?_⟩
  · rintro ⟨plain, rfl⟩
    exact read?_description plain
  · have reads := read?_description plain
    rw [same, read?_description otherPlain] at reads
    exact (Option.some.inj reads).symm

/-- Keys of digits, with a closing bracket and like the empty path, and positions side by side. -/
theorem description_reads_back_mixed :
    let path : Backtrace := [.key "5", .position 0, .position 0xFFFFFFFFFFFFFFFF, .key "<root>", .key "]7"]
    Backtrace.Plain path ∧ description path = "5[0][18446744073709551615].<root>.]7" ∧
      Backtrace.read? "5[0][18446744073709551615].<root>.]7" = some path ∧
      ∀ other, Backtrace.Plain other → description path = description other → path = other := by
  intro path
  have plain : Backtrace.Plain path := by simp [path, Backtrace.Plain, PathStep.Plain]
  have text : description path = "5[0][18446744073709551615].<root>.]7" := by decide +kernel
  exact ⟨plain, text, (description_reads_back.1 _ path).mpr ⟨plain, text⟩,
    fun other otherPlain same => description_reads_back.2 path other plain otherPlain same⟩

end Proofs.PathText

end QueryTerms
