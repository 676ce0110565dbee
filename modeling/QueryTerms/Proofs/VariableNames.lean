import QueryTerms.Term.Printer
import Mathlib.Data.List.Induction
import Mathlib.Data.List.Shortlex

/-! The printed names of variables. A name is a number in base 26 whose digits are the letters from `a`, which counts
one, to `z`, which counts 26. Without a digit for zero no number has two forms, and the numbers follow one another as
their names do by length and then in the order of the alphabet. -/

namespace QueryTerms

/-- The place of a letter in the alphabet, counted from one. -/
def letterPlace (c : Char) : Nat :=
  c.toNat + 1 - 'a'.toNat

/-- The number that letters stand for, the most significant letter first. -/
def lettersValue (name : List Char) : Nat :=
  name.foldl (fun n c => 26 * n + letterPlace c) 0

def IsLetter (c : Char) : Prop :=
  'a' ≤ c ∧ c ≤ 'z'

@[simp] theorem lettersValue_nil : lettersValue [] = 0 := rfl

@[simp] theorem lettersValue_concat (name : List Char) (c : Char) :
    lettersValue (name ++ [c]) = 26 * lettersValue name + letterPlace c := by
  rw [lettersValue, List.foldl_append]
  rfl

private theorem letter_facts :
    ∀ k < 26, IsLetter (Char.ofNat ('a'.toNat + k)) ∧ letterPlace (Char.ofNat ('a'.toNat + k)) = k + 1 := by
  unfold IsLetter
  decide

namespace IsLetter

variable {c d : Char}

theorem bounds (letter : IsLetter c) : 97 ≤ c.toNat ∧ c.toNat ≤ 122 := letter

private theorem place_add (letter : IsLetter c) : letterPlace c + 96 = c.toNat := by
  have bounds := letter.bounds
  have first : 'a'.toNat = 97 := rfl
  rw [letterPlace, first]
  omega

theorem place (letter : IsLetter c) : 1 ≤ letterPlace c ∧ letterPlace c ≤ 26 := by
  have bounds := letter.bounds
  have code := letter.place_add
  omega

private theorem place_lt_iff (letter : IsLetter c) (other : IsLetter d) : letterPlace c < letterPlace d ↔ c < d := by
  have less : c < d ↔ c.toNat < d.toNat := Iff.rfl
  rw [less, ← letter.place_add, ← other.place_add]
  omega

private theorem ofNat_place (letter : IsLetter c) : Char.ofNat ('a'.toNat + (letterPlace c - 1)) = c := by
  have least := letter.place.1
  have code : 97 + (letterPlace c - 1) = c.toNat := by
    rw [← letter.place_add]
    omega
  exact (congrArg Char.ofNat code).trans c.ofNat_toNat

end IsLetter

private theorem letters_succ (n : Nat) : letters (n + 1) = letters (n / 26) ++ [Char.ofNat ('a'.toNat + n % 26)] := by
  rw [letters, if_neg (Nat.succ_ne_zero n), Nat.add_sub_cancel]

theorem letters_spec (n : Nat) : (∀ c ∈ letters n, IsLetter c) ∧ lettersValue (letters n) = n := by
  induction n using Nat.strongRecOn with
  | ind n ih =>
    cases n with
    | zero => simp [letters]
    | succ n =>
      obtain ⟨isLetters, value⟩ := ih (n / 26) (by omega)
      obtain ⟨isLetter, place⟩ := letter_facts (n % 26) (Nat.mod_lt n (by decide))
      rw [letters_succ]
      refine ⟨fun c member => ?_, ?_⟩
      · rcases List.mem_append.mp member with earlier | last
        · exact isLetters c earlier
        · exact List.mem_singleton.mp last ▸ isLetter
      · rw [lettersValue_concat, value, place]
        omega

/-- A word is written from its value. The digit of a letter is one less than its place, so that it stays below the
base. -/
theorem letters_lettersValue {name : List Char} (word : ∀ c ∈ name, IsLetter c) :
    letters (lettersValue name) = name := by
  induction name using List.reverseRecOn with
  | nil => rw [lettersValue_nil, letters, if_pos rfl]
  | append_singleton name c ih =>
    obtain ⟨wordBefore, last⟩ := List.forall_mem_append.mp word
    have letter : IsLetter c := last c List.mem_cons_self
    obtain ⟨least, most⟩ := letter.place
    have digits : lettersValue (name ++ [c]) = (26 * lettersValue name + (letterPlace c - 1)) + 1 := by
      rw [lettersValue_concat]
      omega
    have quotient : (26 * lettersValue name + (letterPlace c - 1)) / 26 = lettersValue name := by omega
    have remainder : (26 * lettersValue name + (letterPlace c - 1)) % 26 = letterPlace c - 1 := by omega
    rw [digits, letters_succ, quotient, remainder, ih wordBefore, letter.ofNat_place]

theorem lettersValue_injective {name other : List Char} (word : ∀ c ∈ name, IsLetter c)
    (otherWord : ∀ c ∈ other, IsLetter c) (same : lettersValue name = lettersValue other) : name = other := by
  rw [← letters_lettersValue word, same, letters_lettersValue otherWord]

private theorem lex_concat_iff {r : α → α → Prop} {as bs : List α} {a b : α} (same : as.length = bs.length) :
    List.Lex r (as ++ [a]) (bs ++ [b]) ↔ List.Lex r as bs ∨ as = bs ∧ r a b := by
  induction as generalizing bs with
  | nil =>
    obtain rfl := List.length_eq_zero_iff.mp same.symm
    simp
  | cons _ as ih =>
    cases bs with
    | nil => simp at same
    | cons _ bs =>
      have shorter : as.length = bs.length := Nat.succ.inj same
      simp only [List.cons_append, List.cons_lex_cons_iff, ih shorter, List.cons.injEq, and_or_left, or_assoc,
        and_assoc]

private theorem shortlex_concat_iff {r : α → α → Prop} {as bs : List α} {a b : α} :
    List.Shortlex r (as ++ [a]) (bs ++ [b]) ↔ List.Shortlex r as bs ∨ as = bs ∧ r a b := by
  simp only [List.shortlex_def, List.length_append, List.length_singleton, Nat.add_lt_add_iff_right,
    Nat.add_right_cancel_iff]
  by_cases same : as.length = bs.length
  · simp only [lex_concat_iff same, same, Nat.lt_irrefl, true_and, false_or]
  · have differ : as ≠ bs := fun equal => same (congrArg List.length equal)
    simp [same, differ]

/-- Words count in the order of their lengths, and words of one length in the order of the alphabet. -/
theorem lettersValue_lt_iff {name other : List Char} (word : ∀ c ∈ name, IsLetter c)
    (otherWord : ∀ c ∈ other, IsLetter c) :
    lettersValue name < lettersValue other ↔ List.Shortlex (· < ·) name other := by
  induction name using List.reverseRecOn generalizing other with
  | nil =>
    cases other using List.reverseRecOn with
    | nil => simp
    | append_singleton other d =>
      have place := (otherWord d (by simp)).place
      have shorter : List.Shortlex (· < ·) [] (other ++ [d]) := .of_length_lt (by simp)
      simp only [lettersValue_nil, lettersValue_concat, shorter, iff_true]
      omega
  | append_singleton name c ih =>
    cases other using List.reverseRecOn with
    | nil => simp
    | append_singleton other d =>
      obtain ⟨wordBefore, last⟩ := List.forall_mem_append.mp word
      obtain ⟨otherBefore, otherLast⟩ := List.forall_mem_append.mp otherWord
      have letter : IsLetter c := last c List.mem_cons_self
      have otherLetter : IsLetter d := otherLast d List.mem_cons_self
      have place := letter.place
      have otherPlace := otherLetter.place
      have equal : lettersValue name = lettersValue other ↔ name = other :=
        ⟨lettersValue_injective wordBefore otherBefore, fun same => same ▸ rfl⟩
      rw [shortlex_concat_iff, ← ih wordBefore otherBefore, ← equal, ← letter.place_lt_iff otherLetter,
        lettersValue_concat, lettersValue_concat]
      omega

/-- A word of letters, as the names of variables are. -/
def IsWord (name : List Char) : Prop :=
  name ≠ [] ∧ ∀ c ∈ name, IsLetter c

private theorem varName_eq_letters {id : VarId} (drawn : id ≠ 0) : varName id = letters id.toNat := by
  rw [varName, if_neg drawn]

private theorem letters_isWord {n : Nat} (positive : 0 < n) : IsWord (letters n) := by
  obtain ⟨isLetters, value⟩ := letters_spec n
  refine ⟨fun empty => ?_, isLetters⟩
  rw [empty, lettersValue_nil] at value
  omega

private theorem IsWord.value_pos {name : List Char} (word : IsWord name) : 0 < lettersValue name := by
  apply Nat.pos_of_ne_zero
  intro zero
  have same := letters_lettersValue word.2
  rw [zero, letters, if_pos rfl] at same
  exact word.1 same.symm

private theorem lowLine_not_word : ¬ IsWord ['_'] := by
  rintro ⟨-, letters⟩
  exact absurd (letters '_' List.mem_cons_self) (by unfold IsLetter; decide)

private theorem VarId.toNat_pos {id : VarId} (drawn : id ≠ 0) : 0 < id.toNat :=
  Nat.pos_of_ne_zero fun zero => drawn (UInt64.toNat_inj.mp zero)

theorem varName_eq_lowLine_iff {id : VarId} : varName id = ['_'] ↔ id = 0 := by
  constructor
  · intro same
    by_contra drawn
    have word := letters_isWord (VarId.toNat_pos drawn)
    rw [← varName_eq_letters drawn, same] at word
    exact lowLine_not_word word
  · rintro rfl
    rfl

theorem varName_injective {id other : VarId} (same : varName id = varName other) : id = other := by
  by_cases drawn : id = 0
  · rw [varName_eq_lowLine_iff.mpr drawn] at same
    rw [drawn, varName_eq_lowLine_iff.mp same.symm]
  by_cases otherDrawn : other = 0
  · rw [varName_eq_lowLine_iff.mpr otherDrawn] at same
    rw [otherDrawn, varName_eq_lowLine_iff.mp same]
  rw [varName_eq_letters drawn, varName_eq_letters otherDrawn] at same
  apply UInt64.toNat_inj.mp
  rw [← (letters_spec id.toNat).2, same, (letters_spec other.toNat).2]

private theorem IsWord.varName_of_value {name : List Char} {id : VarId} (word : IsWord name)
    (same : id.toNat = lettersValue name) : varName id = name := by
  have drawn : id ≠ 0 := by
    rintro rfl
    exact Nat.ne_of_lt word.value_pos same
  rw [varName_eq_letters drawn, same, letters_lettersValue word.2]

theorem Term.render_var (id : VarId) : (var id).render = String.ofList (varName id) := by
  change String.ofList (varName id ++ []) = _
  rw [List.append_nil]

namespace Proofs.VariableNames

/-- The names of the variables from one on are the words of letters whose values are below 2^64, each the name of the
variable of its value, and they are in the order of the variables. The low line is left to the number that no variable
has. So no two variables are printed alike. -/
theorem varName_numbering :
    (∀ id : VarId, id ≠ 0 → IsWord (varName id) ∧ lettersValue (varName id) = id.toNat) ∧
    (∀ name, IsWord name → lettersValue name < UInt64.size →
      ∃ id : VarId, id.toNat = lettersValue name ∧ ∀ other, varName other = name ↔ other = id) ∧
    (∀ id other : VarId, id ≠ 0 → other ≠ 0 →
      (id < other ↔ List.Shortlex (· < ·) (varName id) (varName other))) ∧
    (∀ id : VarId, varName id = ['_'] ↔ id = 0) ∧
    ∀ id other : VarId, (Term.var id).render = (Term.var other).render → id = other := by
  refine ⟨fun id drawn => ?_, fun name word small => ?_, fun id other drawn otherDrawn => ?_,
    fun id => varName_eq_lowLine_iff, fun id other same => ?_⟩
  · rw [varName_eq_letters drawn]
    exact ⟨letters_isWord (VarId.toNat_pos drawn), (letters_spec id.toNat).2⟩
  · have value : (UInt64.ofNat (lettersValue name)).toNat = lettersValue name := UInt64.toNat_ofNat_of_lt' small
    have named := word.varName_of_value value
    refine ⟨_, value, fun other => ⟨fun same => varName_injective (same.trans named.symm), ?_⟩⟩
    rintro rfl
    exact named
  · obtain ⟨isLetters, value⟩ := letters_spec id.toNat
    obtain ⟨otherLetters, otherValue⟩ := letters_spec other.toNat
    rw [varName_eq_letters drawn, varName_eq_letters otherDrawn, ← lettersValue_lt_iff isLetters otherLetters, value,
      otherValue, UInt64.lt_iff_toNat_lt]
  · rw [Term.render_var, Term.render_var] at same
    exact varName_injective (String.ofList_injective same)

/-- The greatest number, the words on both sides of a carry and their order. -/
theorem varName_numbering_carry :
    IsWord (varName 0xFFFFFFFFFFFFFFFF) ∧ lettersValue (varName 0xFFFFFFFFFFFFFFFF) = 0xFFFFFFFFFFFFFFFF ∧
    (∃ id : VarId, id.toNat = 702 ∧ ∀ other, varName other = ['z', 'z'] ↔ other = id) ∧
    (∃ id : VarId, id.toNat = 703 ∧ ∀ other, varName other = ['a', 'a', 'a'] ↔ other = id) ∧
    ((702 : VarId) < 703 ↔ List.Shortlex (· < ·) (varName 702) (varName 703)) := by
  obtain ⟨words, named, ordered, _⟩ := varName_numbering
  obtain ⟨word, value⟩ := words 0xFFFFFFFFFFFFFFFF (by decide)
  refine ⟨word, value, ?_, ?_, ordered 702 703 (by decide) (by decide)⟩
  · exact named ['z', 'z'] (by simp [IsWord, IsLetter]) (by decide)
  · exact named ['a', 'a', 'a'] (by simp [IsWord, IsLetter]) (by decide)

end Proofs.VariableNames

end QueryTerms
