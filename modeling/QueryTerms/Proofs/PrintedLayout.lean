import QueryTerms.Proofs.Blocks
import QueryTerms.Proofs.TermForms
import QueryTerms.Term.Printer

/-! Printed terms and their text on one line. The lines of a printed term are broken only where that text does not fit
on a line, a call that does not fit is broken, and breaking changes the text in blanks and line ends only. All three
come from comparing blocks with texts along the printer's own operations. -/

namespace QueryTerms

namespace Printer

/-- Parts between an opening and a closing bracket, all on one line. -/
def flatGroup (opening : List Char) (parts : List (List Char)) (closing : List Char) : List Char :=
  opening ++ [',', ' '].intercalate parts ++ closing

/-- A call on one line, from the texts of its arguments. -/
def flatCall (op : Operator) (role : Term.Role) (args named : List (List Char)) : List Char :=
  match role, op, args, named with
  | .reference id, _, _, _ => varName id
  | .binder params, _, [_, body], _ => lambdaHead params ++ [' '] ++ body
  | _, .makeArray, _, [] => flatGroup ['['] args [']']
  | _, .makeObj, [], _ => flatGroup ['\x7b'] named ['\x7d']
  | _, .bracket, [value, index], [] => flatGroup (value ++ ['[']) [index] [']']
  | _, _, _, _ => flatGroup (op.name.toList ++ ['(']) (args ++ named) [')']

end Printer

namespace Term
open Printer

mutual
/-- The printed form with every list, call, index and function on one line. -/
def flat : Term → List Char
  | .literal d => d.chars
  | .annotated note inner => "/* ".toList ++ note.toList ++ " */ ".toList ++ flat inner
  | .call op args named => flatCall op (role op args named) (flatArgs args) (flatNamed named)

def flatArgs : List Term → List (List Char)
  | [] => []
  | t :: rest => flat t :: flatArgs rest

def flatNamed : List (String × Term) → List (List Char)
  | [] => []
  | (key, t) :: rest => (key.toList ++ [':', ' '] ++ flat t) :: flatNamed rest
end

end Term

namespace Printer

/-- The parts on one line. -/
def single (opening : Block) (parts : List Block) (closing : List Char) : Block :=
  opening ++ Block.join [',', ' '] parts ++ (⟨closing, []⟩ : Block)

/-- The parts on lines of their own. -/
def spread (opening : Block) (parts : List Block) (closing : List Char) : Block :=
  ⟨opening.first, opening.below ++ broken parts ++ [⟨0, closing⟩]⟩

/-- A head and a body on one line. -/
def beside (head : List Char) (body : Block) : Block :=
  (⟨head ++ [' '], []⟩ : Block) ++ body

private theorem layout_eq (opening : Block) (parts : List Block) (closing : List Char) :
    layout opening parts closing =
      if parts.isEmpty || fits (single opening parts closing) then single opening parts closing
      else spread opening parts closing :=
  rfl

private theorem lambda_eq (head : List Char) (body : Block) :
    lambda head body = if fits (beside head body) then beside head body else body.under head :=
  rfl

theorem fits_iff {b : Block} : fits b = true ↔ b.below = [] ∧ b.first.length ≤ maxWidth := by
  simp [fits]

private theorem below_spread_ne_nil (opening : Block) (parts : List Block) (closing : List Char) :
    (spread opening parts closing).below ≠ [] := by
  simp [spread]

/-- A comparison of blocks with texts on one line that the printer keeps. What is broken since it does not fit on a line
compares as it did on one line. -/
structure Keeps (R : Block → List Char → Prop) : Prop where
  line (s : List Char) : R ⟨s, []⟩ s
  text (s : List Char) : R (.ofChars s) s
  append {a b : Block} {s t : List Char} : R a s → R b t → R (a ++ b) (s ++ t)
  spread {opening : Block} {parts : List Block} {closing s : List Char} : R (single opening parts closing) s →
    fits (single opening parts closing) = false → R (spread opening parts closing) s
  under {head s : List Char} {body : Block} : R (beside head body) s → fits (beside head body) = false →
    R (body.under head) s

private theorem forall₂_pair {α β : Type} {S : α → β → Prop} {a b : α} {ys : List β}
    (related : List.Forall₂ S [a, b] ys) : ∃ c d, ys = [c, d] ∧ S a c ∧ S b d := by
  obtain ⟨c, _, first, rest, rfl⟩ := List.forall₂_cons_left_iff.mp related
  obtain ⟨d, _, second, last, rfl⟩ := List.forall₂_cons_left_iff.mp rest
  obtain rfl := List.forall₂_nil_left_iff.mp last
  exact ⟨c, d, rfl, first, second⟩

namespace Keeps

variable {R : Block → List Char → Prop}

theorem join (keeps : Keeps R) (separator : List Char) {parts : List Block} {texts : List (List Char)}
    (related : List.Forall₂ R parts texts) : R (Block.join separator parts) (separator.intercalate texts) := by
  induction related with
  | nil => exact keeps.line []
  | @cons part text _ _ first rest ih =>
    cases rest with
    | nil => simpa [Block.join] using first
    | cons =>
      rw [Block.join, List.intercalate_cons_cons]
      · exact keeps.append (keeps.append first (keeps.line separator)) ih
      · simp

theorem layout (keeps : Keeps R) {opening : Block} {text closing : List Char} {parts : List Block}
    {texts : List (List Char)} (before : R opening text) (related : List.Forall₂ R parts texts) :
    R (layout opening parts closing) (flatGroup text texts closing) := by
  have whole : R (single opening parts closing) (flatGroup text texts closing) :=
    keeps.append (keeps.append before (keeps.join _ related)) (keeps.line closing)
  rw [layout_eq]
  split
  next => exact whole
  next wide =>
    rw [Bool.not_eq_true, Bool.or_eq_false_iff] at wide
    exact keeps.spread whole wide.2

theorem lambda (keeps : Keeps R) (head : List Char) {body : Block} {text : List Char} (related : R body text) :
    R (lambda head body) (head ++ [' '] ++ text) := by
  have whole : R (beside head body) (head ++ [' '] ++ text) := keeps.append (keeps.line _) related
  rw [lambda_eq]
  split
  next => exact whole
  next wide => exact keeps.under whole (Bool.eq_false_iff.mpr wide)

theorem call (keeps : Keeps R) (op : Operator) (role : Term.Role) {args named : List Block}
    {texts namedTexts : List (List Char)} (related : List.Forall₂ R args texts)
    (relatedNamed : List.Forall₂ R named namedTexts) :
    R (call op role args named) (flatCall op role texts namedTexts) := by
  have pair {s t : List Char} (two : texts = [s, t]) : ∃ a b, args = [a, b] := by
    obtain ⟨a, b, same, _⟩ := forall₂_pair (two ▸ related.flip)
    exact ⟨a, b, same⟩
  have noArgs (none : texts = []) : args = [] := List.forall₂_nil_right_iff.mp (none ▸ related)
  have noNamed (none : namedTexts = []) : named = [] := List.forall₂_nil_right_iff.mp (none ▸ relatedNamed)
  have noFunction (other : ∀ params a b, role = .binder params → args = [a, b] → False) (params : List VarId)
      (s t : List Char) (binder : role = .binder params) (two : texts = [s, t]) : False := by
    obtain ⟨a, b, same⟩ := pair two
    exact other params a b binder same
  unfold Printer.call
  split
  next => exact keeps.line _
  next =>
    obtain ⟨_, _, rfl, _, body⟩ := forall₂_pair related
    exact keeps.lambda _ body
  next notReference notFunction =>
    obtain rfl := List.forall₂_nil_left_iff.mp relatedNamed
    rw [flatCall.eq_3]
    · exact keeps.layout (keeps.line _) related
    · exact notReference
    · exact noFunction notFunction
  next notReference =>
    obtain rfl := List.forall₂_nil_left_iff.mp related
    rw [flatCall.eq_4]
    · exact keeps.layout (keeps.line _) relatedNamed
    · exact notReference
  next value index notReference notFunction =>
    obtain ⟨_, _, rfl, valueRelated, indexRelated⟩ := forall₂_pair related
    obtain rfl := List.forall₂_nil_left_iff.mp relatedNamed
    rw [flatCall.eq_5]
    · exact keeps.layout (keeps.append valueRelated (keeps.line _)) (.cons indexRelated .nil)
    · exact notReference
    · exact notFunction
  next notReference notFunction notObject notArray notIndex =>
    rw [flatCall.eq_6]
    · exact keeps.layout (keeps.line _) (List.rel_append related relatedNamed)
    · exact notReference
    · exact noFunction notFunction
    · exact fun object none => notObject object (noArgs none)
    · exact fun array none => notArray array (noNamed none)
    · intro s t index two none
      obtain ⟨a, b, same⟩ := pair two
      exact notIndex a b index same (noNamed none)

end Keeps

/-- A block that is one line only if it is the text, and is that line if the text fits on one. -/
structure Fitted (b : Block) (text : List Char) : Prop where
  same : b.below = [] → b.first = text
  kept : text.length ≤ maxWidth → '\n' ∉ text → b = ⟨text, []⟩

private theorem Fitted.of_wide {whole b : Block} {text : List Char} (fitted : Fitted whole text)
    (wide : fits whole = false) (broken : b.below ≠ []) : Fitted b text := by
  refine ⟨fun line => absurd line broken, fun short single => ?_⟩
  rw [fitted.kept short single, Bool.eq_false_iff, Ne, fits_iff] at wide
  exact absurd ⟨rfl, short⟩ wide

theorem keeps_fitted : Keeps Fitted where
  line s := ⟨fun _ => rfl, fun _ _ => rfl⟩
  text s := by
    constructor
    · intro line
      have whole := Block.chars_ofChars s
      rwa [Block.chars, line, List.flatMap_nil, List.append_nil] at whole
    · intro _ single
      exact Block.ofChars_eq_line single
  append {a b s t} first second := by
    constructor
    · intro line
      obtain ⟨left, right⟩ := Block.below_append_eq_nil line
      obtain ⟨head, below⟩ := a
      obtain rfl : below = [] := left
      rw [Block.append_of_line, ← first.same rfl, ← second.same right]
    · intro short single
      rw [List.length_append] at short
      rw [List.mem_append, not_or] at single
      rw [first.kept (by omega) single.1, second.kept (by omega) single.2, Block.line_append_line]
  spread fitted wide := fitted.of_wide wide (below_spread_ne_nil _ _ _)
  under fitted wide := fitted.of_wide wide (Block.below_under_ne_nil _ _)

private theorem squeezeAll_broken (parts : List Block) :
    Line.squeezeAll (broken parts) = squeeze ([','].intercalate (parts.map Block.chars)) := by
  fun_induction broken parts with
  | case1 => rfl
  | case2 part => simp [Block.squeezeAll_indented]
  | case3 part rest more ih =>
    obtain ⟨next, others, rfl⟩ := List.exists_cons_of_ne_nil more
    rw [List.map_cons, List.map_cons, List.intercalate_cons_cons, Line.squeezeAll_append, Block.squeezeAll_indented,
      ih, squeeze_append, squeeze_append, List.map_cons]

private theorem squeeze_join (parts : List Block) :
    squeeze (Block.join [',', ' '] parts).chars = squeeze ([','].intercalate (parts.map Block.chars)) := by
  fun_induction Block.join [',', ' '] parts with
  | case1 => rfl
  | case2 part => simp
  | case3 part rest more ih =>
    obtain ⟨next, others, rfl⟩ := List.exists_cons_of_ne_nil more
    rw [List.map_cons, List.map_cons, List.intercalate_cons_cons, Block.chars_append, Block.chars_append,
      squeeze_append, squeeze_append, ih]
    simp [Block.chars_of_line, squeeze]

theorem keeps_squeeze : Keeps fun b s => squeeze b.chars = squeeze s where
  line s := by rw [Block.chars_of_line]
  text s := by rw [Block.chars_ofChars]
  append first second := by rw [Block.chars_append, squeeze_append, squeeze_append, first, second]
  spread {opening parts closing s} whole _ := by
    rw [← whole, single, Block.chars_append, Block.chars_append, squeeze_append, squeeze_append, squeeze_join,
      Block.chars_of_line, Block.squeeze_chars opening, Block.squeeze_chars, Block.lines, spread]
    simp [squeezeAll_broken, Block.lines]
  under {head s body} whole _ := by
    rw [← whole, Block.squeeze_under, beside, Block.chars_append, Block.chars_of_line, squeeze_append, squeeze_append]
    simp

/-- A block that is on one line only if it fits there. -/
def Short (b : Block) : Prop :=
  b.below = [] → b.first.length ≤ maxWidth

private theorem layout_short (opening : Block) {parts : List Block} (closing : List Char) (nonempty : parts ≠ []) :
    Short (layout opening parts closing) := by
  intro line
  rw [layout_eq] at line ⊢
  cases narrow : fits (single opening parts closing) with
  | true =>
    rw [Bool.or_true, if_pos rfl]
    exact (fits_iff.mp narrow).2
  | false =>
    rw [narrow, Bool.or_false, if_neg (by simpa using nonempty)] at line
    exact absurd line (below_spread_ne_nil _ _ _)

private theorem lambda_short (head : List Char) (body : Block) : Short (lambda head body) := by
  intro line
  rw [lambda_eq] at line ⊢
  cases narrow : fits (beside head body) with
  | true =>
    rw [if_pos rfl]
    exact (fits_iff.mp narrow).2
  | false =>
    rw [narrow, if_neg (by decide)] at line
    exact absurd line (Block.below_under_ne_nil _ _)

private theorem call_short (op : Operator) {role : Term.Role} {args named : List Block}
    (notReference : ∀ id, role ≠ .reference id) (nonempty : args ++ named ≠ []) : Short (call op role args named) := by
  unfold call
  split
  next => exact absurd rfl (notReference _)
  next => exact lambda_short _ _
  next => exact layout_short _ _ (by simpa using nonempty)
  next => exact layout_short _ _ (by simpa using nonempty)
  next => exact layout_short _ _ (List.cons_ne_nil _ _)
  next => exact layout_short _ _ nonempty

end Printer

namespace Term
open Printer

variable {R : Block → List Char → Prop}

mutual
theorem printed_flat (keeps : Keeps R) : (t : Term) → R t.printed t.flat
  | .literal d => by
    rw [printed, flat]
    exact keeps.line _
  | .annotated note inner => by
    rw [printed, flat]
    exact keeps.append (keeps.text _) (printed_flat keeps inner)
  | .call op args named => by
    rw [printed, flat]
    exact keeps.call op _ (printedArgs_flat keeps args) (printedNamed_flat keeps named)

private theorem printedArgs_flat (keeps : Keeps R) :
    (args : List Term) → List.Forall₂ R (printedArgs args) (flatArgs args)
  | [] => .nil
  | t :: rest => .cons (printed_flat keeps t) (printedArgs_flat keeps rest)

private theorem printedNamed_flat (keeps : Keeps R) :
    (named : List (String × Term)) → List.Forall₂ R (printedNamed named) (flatNamed named)
  | [] => .nil
  | (key, t) :: rest =>
    .cons (keeps.append (keeps.text (key.toList ++ [':', ' '])) (printed_flat keeps t)) (printedNamed_flat keeps rest)
end

private theorem render_toList (t : Term) : t.render.toList = t.printed.chars :=
  String.toList_ofList

theorem printed_short {op : Operator} {args : List Term} {named : List (String × Term)}
    (notVar : ∀ v, call op args named ≠ var v) (nonempty : args ≠ [] ∨ named ≠ []) :
    Short (call op args named).printed := by
  rw [printed]
  apply call_short
  · intro v reference
    exact notVar v (role_eq_reference_iff.mp reference)
  · intro none
    obtain ⟨noArgs, noNamed⟩ := List.append_eq_nil_iff.mp none
    cases args with
    | cons => cases noArgs
    | nil =>
      cases named with
      | cons => cases noNamed
      | nil => simp at nonempty

theorem newline_mem_printed {t : Term} (broken : '\n' ∈ t.stripNotes.printed.chars) : '\n' ∈ t.printed.chars := by
  induction t using formInduction with
  | annotated note inner ih =>
    rw [printed, Block.chars_append]
    exact List.mem_append_right _ (ih broken)
  | literal d => exact broken
  | reference v => exact broken
  | function params body => exact broken
  | plain op args named => exact broken

/-- Whether the text of a term has parts that can be put on lines of their own: the term is a function, or a call with
arguments other than a reference, seen through labels. -/
def Breakable (t : Term) : Prop :=
  t.funcParts?.isSome ∨
    t.asVar? = none ∧ ∃ op args named, t.stripNotes = .call op args named ∧ (args ≠ [] ∨ named ≠ [])

theorem Breakable.short {t : Term} (breakable : t.Breakable) : Short t.stripNotes.printed := by
  rcases breakable with function | ⟨notVar, op, args, named, bare, nonempty⟩
  · obtain ⟨⟨params, body⟩, parts⟩ := Option.isSome_iff_exists.mp function
    rw [funcParts?_eq_some_iff.mp parts]
    exact printed_short (fun v same => by cases same) (.inl (List.cons_ne_nil _ _))
  · rw [bare]
    apply printed_short _ nonempty
    intro v same
    rw [asVar?_eq_some_iff.mpr (bare.trans same)] at notVar
    cases notVar

end Term

namespace Proofs.PrintedLayout
open Term Printer

/-- The printed form is the text on one line if that has at most eighty characters and no line end. A function or a call
with arguments whose text does not is broken into lines. In any case the two differ in blanks and line ends only. -/
theorem render_layout (t : Term) :
    (t.flat.length ≤ 80 → '\n' ∉ t.flat → t.render.toList = t.flat) ∧
    (t.Breakable → 80 < t.stripNotes.flat.length ∨ '\n' ∈ t.stripNotes.flat → '\n' ∈ t.render.toList) ∧
    squeeze t.render.toList = squeeze t.flat := by
  rw [render_toList]
  refine ⟨?_, ?_, printed_flat keeps_squeeze t⟩
  · intro short single
    rw [(printed_flat keeps_fitted t).kept short single, Block.chars_of_line]
  · intro breakable wide
    apply newline_mem_printed
    by_cases line : t.stripNotes.printed.below = []
    · have same : t.stripNotes.printed.first = t.stripNotes.flat := (printed_flat keeps_fitted t.stripNotes).same line
      have short : t.stripNotes.flat.length ≤ 80 := same ▸ breakable.short line
      rcases wide with long | broken
      · exact absurd short (Nat.not_le.mpr long)
      · exact List.mem_append_left _ (same ▸ broken)
    · exact Block.newline_mem_chars line

theorem render_layout_lines :
    let short := Term.call .table [.literal (.string "users")] [("use_outdated", .literal (.bool true))]
    let label := "a label that is about as long as a printed line is allowed to be, and then some"
    let long := Term.annotated "query"
      (.call .not [.call .bracket [.call .now [] [], .annotated label (.literal .null)] []] [])
    (short.flat.length ≤ 80 ∧ '\n' ∉ short.flat ∧ short.render.toList = short.flat) ∧
    long.Breakable ∧ 80 < long.stripNotes.flat.length ∧ '\n' ∈ long.render.toList ∧
    long.render.toList ≠ long.flat ∧ squeeze long.render.toList = squeeze long.flat := by
  intro short label long
  have fitting : short.flat.length ≤ 80 := by decide +kernel
  have single : '\n' ∉ short.flat := by decide +kernel
  have breakable : long.Breakable := .inr ⟨rfl, .not, _, _, rfl, .inl (List.cons_ne_nil _ _)⟩
  have wide : 80 < long.stripNotes.flat.length := by decide +kernel
  have broken := (render_layout long).2.1 breakable (.inl wide)
  have flatLong : '\n' ∉ long.flat := by decide +kernel
  exact ⟨⟨fitting, single, (render_layout short).1 fitting single⟩, breakable, wide, broken,
    fun same => flatLong (same ▸ broken), (render_layout long).2.2⟩

end Proofs.PrintedLayout

end QueryTerms
