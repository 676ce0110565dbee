import QueryTerms.Text.Block

/-! What blocks hold. The text of a block is put together as its parts are, and moving lines to the right changes it in
blanks and line ends only. -/

namespace QueryTerms

/-- The text without its blanks and line ends. -/
def squeeze (s : List Char) : List Char :=
  s.filter fun c => c ≠ ' ' ∧ c ≠ '\r' ∧ c ≠ '\n'

@[simp] theorem squeeze_nil : squeeze [] = [] := rfl

@[simp] theorem squeeze_append (s t : List Char) : squeeze (s ++ t) = squeeze s ++ squeeze t :=
  List.filter_append ..

@[simp] theorem squeeze_blank (s : List Char) : squeeze (' ' :: s) = squeeze s := rfl

@[simp] theorem squeeze_newline (s : List Char) : squeeze ('\n' :: s) = squeeze s := rfl

private theorem squeeze_blanks (n : Nat) : squeeze (List.replicate n ' ') = [] := by
  rw [squeeze, List.filter_eq_nil_iff]
  intro c member
  simp [List.eq_of_mem_replicate member]

namespace Line

theorem squeeze_chars (line : Line) : squeeze line.chars = squeeze line.text := by
  rw [chars, squeeze_append, squeeze_blanks, List.nil_append]

private theorem squeeze_dropReturn (line : Line) : squeeze line.dropReturn.text = squeeze line.text := by
  unfold dropReturn
  split
  next last =>
    obtain ⟨rest, whole⟩ := List.getLast?_eq_some_iff.mp last
    simp [whole, squeeze]
  next => rfl

/-- The text of lines without blanks and line ends. -/
def squeezeAll (lines : List Line) : List Char :=
  lines.flatMap fun line => squeeze line.text

@[simp] theorem squeezeAll_nil : squeezeAll [] = [] := rfl

@[simp] theorem squeezeAll_cons (line : Line) (lines : List Line) :
    squeezeAll (line :: lines) = squeeze line.text ++ squeezeAll lines :=
  List.flatMap_cons ..

@[simp] theorem squeezeAll_append (first second : List Line) :
    squeezeAll (first ++ second) = squeezeAll first ++ squeezeAll second :=
  List.flatMap_append ..

private theorem squeezeAll_addToLast (suffix : List Char) (lines : List Line) :
    squeezeAll (addToLast suffix lines) = squeezeAll lines ++ squeeze suffix := by
  fun_induction addToLast suffix lines with
  | case1 => simp
  | case2 line => simp
  | case3 line rest _ ih => simp [ih]

/-- Moving lines to the right loses at most carriage returns and an empty last line. -/
private theorem squeezeAll_indentAll (lines : List Line) : squeezeAll (indentAll lines) = squeezeAll lines := by
  fun_induction indentAll lines with
  | case1 => rfl
  | case2 line empty =>
    have nothing : line.chars = [] := List.isEmpty_iff.mp empty
    have blank : squeeze line.text = [] := by rw [← squeeze_chars, nothing, squeeze_nil]
    simp [blank]
  | case3 line => simp [indent]
  | case4 line rest _ ih => simp [indent, squeeze_dropReturn, ih]

private theorem addToLast_ne_nil (suffix : List Char) (lines : List Line) : addToLast suffix lines ≠ [] := by
  fun_cases addToLast suffix lines <;> simp

private theorem flatMap_addToLast (suffix : List Char) {lines : List Line} (nonempty : lines ≠ []) :
    (addToLast suffix lines).flatMap (fun line => '\n' :: line.chars) =
      lines.flatMap (fun line => '\n' :: line.chars) ++ suffix := by
  fun_induction addToLast suffix lines with
  | case1 => contradiction
  | case2 line => simp [chars]
  | case3 line rest more ih => simp [ih more]

end Line

namespace Block

@[simp] theorem line_append_line (s t : List Char) : (⟨s, []⟩ : Block) ++ (⟨t, []⟩ : Block) = ⟨s ++ t, []⟩ := rfl

theorem append_of_line (s : List Char) (b : Block) : (⟨s, []⟩ : Block) ++ b = ⟨s ++ b.first, b.below⟩ := rfl

private theorem append_of_below {a : Block} (broken : a.below ≠ []) (b : Block) :
    a ++ b = ⟨a.first, Line.addToLast b.first a.below ++ b.below⟩ := by
  obtain ⟨first, below⟩ := a
  cases below with
  | nil => contradiction
  | cons line rest => rfl

theorem below_append_eq_nil {a b : Block} (line : (a ++ b).below = []) : a.below = [] ∧ b.below = [] := by
  by_cases broken : a.below = []
  · obtain ⟨s, below⟩ := a
    obtain rfl : below = [] := broken
    exact ⟨rfl, line⟩
  · rw [append_of_below broken] at line
    exact absurd (List.append_eq_nil_iff.mp line).1 (Line.addToLast_ne_nil _ _)

theorem chars_of_line (s : List Char) : chars ⟨s, []⟩ = s :=
  List.append_nil s

theorem chars_append (a b : Block) : (a ++ b).chars = a.chars ++ b.chars := by
  by_cases broken : a.below = []
  · obtain ⟨s, below⟩ := a
    obtain rfl : below = [] := broken
    simp [append_of_line, chars]
  · rw [append_of_below broken]
    simp [chars, Line.flatMap_addToLast _ broken]

theorem newline_mem_chars {b : Block} (broken : b.below ≠ []) : '\n' ∈ b.chars := by
  obtain ⟨first, below⟩ := b
  cases below with
  | nil => contradiction
  | cons line rest => simp [chars]

/-- Splitting at the line feeds loses nothing. -/
theorem chars_ofChars (s : List Char) : (ofChars s).chars = s := by
  induction s with
  | nil => rfl
  | cons c rest ih =>
    rw [ofChars]
    split
    next same => simpa [chars, Line.chars, same] using ih
    next => simpa [chars] using ih

theorem ofChars_eq_line {s : List Char} (single : '\n' ∉ s) : ofChars s = ⟨s, []⟩ := by
  induction s with
  | nil => rfl
  | cons c rest ih =>
    obtain ⟨other, others⟩ := List.ne_and_not_mem_of_not_mem_cons single
    rw [ofChars, ih others, if_neg other.symm]

theorem squeeze_chars (b : Block) : squeeze b.chars = Line.squeezeAll b.lines := by
  have below (lines : List Line) :
      squeeze (lines.flatMap fun line => '\n' :: line.chars) = Line.squeezeAll lines := by
    induction lines with
    | nil => rfl
    | cons line rest ih => simp [Line.squeeze_chars, ih]
  rw [chars, squeeze_append, below, lines, Line.squeezeAll_cons]

theorem squeezeAll_indented (b : Block) (suffix : List Char) :
    Line.squeezeAll (b.indented suffix) = squeeze b.chars ++ squeeze suffix := by
  rw [indented, Line.squeezeAll_addToLast, Line.squeezeAll_indentAll, squeeze_chars]

theorem squeeze_under (head : List Char) (b : Block) :
    squeeze (b.under head).chars = squeeze head ++ squeeze b.chars := by
  rw [squeeze_chars, lines, Line.squeezeAll_cons, under, squeezeAll_indented, squeeze_nil, List.append_nil]

theorem below_under_ne_nil (head : List Char) (b : Block) : (b.under head).below ≠ [] :=
  Line.addToLast_ne_nil _ _

end Block

end QueryTerms
