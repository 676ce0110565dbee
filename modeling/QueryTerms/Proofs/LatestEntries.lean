import QueryTerms.Proofs.NamedParts
import Mathlib.Data.List.Dedup
import Mathlib.Data.List.Induction

/-! Named parts that are collected in turn. The last entry of a key is the one that is found; the fields of an object
stand in ascending order of their keys, and an option list has every key once. -/

namespace QueryTerms

namespace Fields

variable {α β : Type}

theorem get?_cons (key : String) (entry : String × α) (fields : Fields α) :
    get? key (entry :: fields) = if key = entry.1 then some entry.2 else get? key fields := by
  rw [get?, List.lookup_cons]
  by_cases same : key = entry.1
  · simp [same]
  · rw [beq_eq_false_iff_ne.mpr same, if_neg same]
    rfl

theorem get?_append (key : String) (fields later : Fields α) :
    get? key (fields ++ later) = (get? key fields).or (get? key later) :=
  List.lookup_append

theorem get?_mapValues (f : α → β) (key : String) (fields : Fields α) :
    get? key (mapValues f fields) = (get? key fields).map f := by
  induction fields with
  | nil => rfl
  | cons entry rest ih =>
    rw [mapValues_cons, get?_cons, get?_cons, ih]
    split <;> rfl

theorem get?_eq_none_iff {key : String} {fields : Fields α} : get? key fields = none ↔ key ∉ keys fields := by
  rw [get?, List.lookup_eq_none_iff, keys, List.mem_map, not_exists]
  simp only [bne_iff_ne, not_and]
  exact forall₂_congr fun entry _ => ne_comm

theorem mem_keys_iff {key : String} {fields : Fields α} : key ∈ keys fields ↔ ∃ a, get? key fields = some a := by
  rw [← Option.ne_none_iff_exists', ne_eq, get?_eq_none_iff, not_not]

theorem contains_iff {key : String} {fields : Fields α} : contains key fields = true ↔ key ∈ keys fields := by
  simp [contains, keys]

/-- A value that is found stands where its key stands first. -/
theorem exists_of_get? {key : String} {fields : Fields α} {a : α} (found : get? key fields = some a) :
    ∃ earlier later, fields = earlier ++ (key, a) :: later := by
  obtain ⟨earlier, later, split, _⟩ := List.lookup_eq_some_iff.mp found
  exact ⟨earlier, later, split⟩

theorem get?_of_nodup {earlier later : Fields α} {key : String} {a : α}
    (distinct : (keys (earlier ++ (key, a) :: later)).Nodup) : get? key (earlier ++ (key, a) :: later) = some a := by
  have absent : key ∉ keys earlier := by
    simp only [keys, List.map_append, List.map_cons, List.nodup_append] at distinct
    exact fun member => distinct.2.2 key member key List.mem_cons_self rfl
  rw [get?_append, get?_eq_none_iff.mpr absent, get?_cons, if_pos rfl]
  rfl

private theorem keys_reverse (fields : Fields α) : keys fields.reverse = (keys fields).reverse :=
  List.map_reverse

theorem get?_reverse {fields : Fields α} (distinct : (keys fields).Nodup) (key : String) :
    get? key fields.reverse = get? key fields := by
  cases found : get? key fields with
  | none =>
    rw [get?_eq_none_iff] at found ⊢
    rwa [keys_reverse, List.mem_reverse]
  | some a =>
    obtain ⟨earlier, later, rfl⟩ := exists_of_get? found
    have backwards : (earlier ++ (key, a) :: later).reverse = later.reverse ++ (key, a) :: earlier.reverse := by simp
    rw [backwards]
    apply get?_of_nodup
    rw [← backwards, keys_reverse, List.nodup_reverse]
    exact distinct

theorem get?_insert (key : String) (value : α) (fields : Fields α) (other : String) :
    get? other (insert key value fields) = if other = key then some value else get? other fields := by
  induction fields with
  | nil => rw [insert, get?_cons]
  | cons entry rest ih =>
    rw [insert]
    split
    · rw [get?_cons]
    · split
      next same =>
        rw [get?_cons, get?_cons, ← same]
        split <;> rfl
      next different =>
        rw [get?_cons, get?_cons, ih]
        by_cases here : other = entry.1
        · have apart : other ≠ key := fun same => different (same.symm.trans here)
          simp only [if_pos here, if_neg apart]
        · simp only [if_neg here]

theorem mem_keys_insert {key other : String} {value : α} {fields : Fields α} :
    other ∈ keys (insert key value fields) ↔ other = key ∨ other ∈ keys fields := by
  rw [mem_keys_iff, mem_keys_iff, get?_insert]
  by_cases same : other = key <;> simp [same]

theorem insert_ascending {key : String} {value : α} {fields : Fields α} (ascending : (keys fields).Pairwise (· < ·)) :
    (keys (insert key value fields)).Pairwise (· < ·) := by
  induction fields with
  | nil => exact .cons (by simp) .nil
  | cons entry rest ih =>
    obtain ⟨above, restAscending⟩ := List.pairwise_cons.mp ascending
    rw [insert]
    split
    next less =>
      refine List.pairwise_cons.mpr ⟨fun other member => ?_, ascending⟩
      rcases List.mem_cons.mp member with same | later
      · exact same ▸ less
      · exact String.lt_trans less (above other later)
    next notLess =>
      split
      next same => exact List.pairwise_cons.mpr ⟨same ▸ above, restAscending⟩
      next different =>
        refine List.pairwise_cons.mpr ⟨fun other member => ?_, ih restAscending⟩
        rcases mem_keys_insert.mp member with rfl | later
        · exact String.not_le.mp fun lessEqual => different (String.le_antisymm lessEqual (String.not_lt.mp notLess))
        · exact above other later

theorem ofEntries_append (entries : List (String × α)) (entry : String × α) :
    ofEntries (entries ++ [entry]) = insert entry.1 entry.2 (ofEntries entries) := by
  simp only [ofEntries, List.foldl_append, List.foldl_cons, List.foldl_nil]

theorem get?_foldl_insert (key : String) (entries fields : Fields α) :
    get? key (entries.foldl (fun fields entry => insert entry.1 entry.2 fields) fields) =
      (get? key entries.reverse).or (get? key fields) := by
  induction entries using List.reverseRecOn with
  | nil => rfl
  | append_singleton entries entry ih =>
    rw [List.foldl_append, List.foldl_cons, List.foldl_nil, get?_insert, ih, List.reverse_append,
      List.reverse_singleton, List.singleton_append, get?_cons]
    split <;> rfl

theorem get?_ofEntries (entries : List (String × α)) (key : String) :
    get? key (ofEntries entries) = get? key entries.reverse :=
  (get?_foldl_insert key entries []).trans Option.or_none

theorem ofEntries_ascending (entries : List (String × α)) : (keys (ofEntries entries)).Pairwise (· < ·) := by
  induction entries using List.reverseRecOn with
  | nil => exact .nil
  | append_singleton entries entry ih =>
    rw [ofEntries_append]
    exact insert_ascending ih

theorem mem_keys_ofEntries {entries : List (String × α)} {key : String} :
    key ∈ keys (ofEntries entries) ↔ key ∈ keys entries := by
  rw [mem_keys_iff, get?_ofEntries, ← mem_keys_iff, keys_reverse, List.mem_reverse]

/-- The entries whose key does not come again. -/
def latest : List (String × α) → List (String × α)
  | [] => []
  | entry :: rest => if entry.1 ∈ keys rest then latest rest else entry :: latest rest

theorem keys_latest (entries : List (String × α)) : keys (latest entries) = (keys entries).dedup := by
  induction entries with
  | nil => rfl
  | cons entry rest ih =>
    have split : keys (entry :: rest) = entry.1 :: keys rest := rfl
    rw [latest, split]
    by_cases again : entry.1 ∈ keys rest
    · rw [if_pos again, List.dedup_cons_of_mem again, ih]
    · rw [if_neg again, List.dedup_cons_of_notMem again, ← ih]
      rfl

private theorem mem_keys_append {key : String} {earlier later : List (String × α)} :
    key ∈ keys (earlier ++ later) ↔ key ∈ keys earlier ∨ key ∈ keys later := by
  simp [keys]

/-- Later entries take the place of earlier ones with their keys. -/
theorem latest_append (earlier later : List (String × α)) :
    latest (earlier ++ later) = (latest earlier).filter (fun entry => entry.1 ∉ keys later) ++ latest later := by
  induction earlier with
  | nil => rfl
  | cons entry rest ih =>
    rw [List.cons_append, latest, latest, ih]
    by_cases again : entry.1 ∈ keys rest
    · rw [if_pos (mem_keys_append.mpr (.inl again)), if_pos again]
    · by_cases replaced : entry.1 ∈ keys later
      · rw [if_pos (mem_keys_append.mpr (.inr replaced)), if_neg again,
          List.filter_cons_of_neg (by simpa using replaced)]
      · have last : entry.1 ∉ keys (rest ++ later) := fun member => (mem_keys_append.mp member).elim again replaced
        rw [if_neg last, if_neg again, List.filter_cons_of_pos (by simpa using replaced)]
        rfl

theorem mem_keys_latest {entries : List (String × α)} {key : String} :
    key ∈ keys (latest entries) ↔ key ∈ keys entries := by
  rw [keys_latest, List.mem_dedup]

theorem get?_latest (entries : List (String × α)) (key : String) :
    get? key (latest entries) = get? key entries.reverse := by
  induction entries with
  | nil => rfl
  | cons entry rest ih =>
    rw [List.reverse_cons, get?_append, ← ih, get?_cons, latest]
    by_cases same : key = entry.1
    · rw [if_pos same]
      split
      next again =>
        obtain ⟨value, found⟩ := mem_keys_iff.mp (mem_keys_latest.mpr again)
        rw [same, found]
        rfl
      next last =>
        rw [same, get?_eq_none_iff.mpr (mt mem_keys_latest.mp last), get?_cons, if_pos rfl]
        rfl
    · have other : get? key (if entry.1 ∈ keys rest then latest rest else entry :: latest rest) =
          get? key (latest rest) := by
        split
        · rfl
        · rw [get?_cons, if_neg same]
      rw [other, if_neg same]
      exact Option.or_none.symm

end Fields

namespace OptionList

variable {α : Type}

theorem entries_push (entries : List (String × α)) (key : String) (value : α) :
    (push key value ⟨Fields.latest entries⟩).entries = Fields.latest (entries ++ [(key, value)]) := by
  have others : (fun entry : String × α => entry.1 != key) =
      fun entry => decide (entry.1 ∉ Fields.keys [(key, value)]) := by
    funext entry
    by_cases same : entry.1 = key <;> simp [Fields.keys, same]
  rw [Fields.latest_append, ← others]
  rfl

theorem entries_ofEntries (entries : List (String × α)) : (ofEntries entries).entries = Fields.latest entries := by
  induction entries using List.reverseRecOn with
  | nil => rfl
  | append_singleton entries entry ih =>
    simp only [ofEntries, List.foldl_append, List.foldl_cons, List.foldl_nil] at ih ⊢
    rw [← entries_push, ← ih]

theorem get?_ofEntries (entries : List (String × α)) (key : String) :
    Fields.get? key (ofEntries entries).entries = Fields.get? key entries.reverse := by
  rw [entries_ofEntries, Fields.get?_latest]

theorem mem_keys_ofEntries {entries : List (String × α)} {key : String} :
    key ∈ (ofEntries entries).keys ↔ key ∈ Fields.keys entries := by
  rw [keys, entries_ofEntries]
  exact Fields.mem_keys_latest

theorem ofEntries_nodup (entries : List (String × α)) : (ofEntries entries).keys.Nodup := by
  have distinct := List.nodup_dedup (Fields.keys entries)
  rwa [← Fields.keys_latest, ← entries_ofEntries] at distinct

end OptionList

end QueryTerms
