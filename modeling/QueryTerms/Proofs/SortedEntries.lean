import QueryTerms.Proofs.LatestEntries
import QueryTerms.Expr.Basic

/-! Named parts in the order of their keys. Parts with distinct keys have one such order, in whatever order they come,
and it is the one in which the fields of an object stand. Where keys are equal, sorting leaves the order as it was. -/

namespace QueryTerms

namespace Fields

variable {α : Type} {entries entries' fields fields' : List (String × α)}

private theorem mem_iff_get? (distinct : (keys fields).Nodup) {key : String} {a : α} :
    (key, a) ∈ fields ↔ get? key fields = some a := by
  constructor
  · intro member
    obtain ⟨earlier, later, rfl⟩ := List.append_of_mem member
    exact get?_of_nodup distinct
  · intro found
    obtain ⟨earlier, later, rfl⟩ := exists_of_get? found
    simp

theorem keys_perm (same : entries.Perm entries') : (keys entries).Perm (keys entries') :=
  same.map Prod.fst

private theorem get?_perm (distinct : (keys entries).Nodup) (same : entries.Perm entries') (key : String) :
    get? key entries = get? key entries' := by
  apply Option.ext
  intro a
  rw [← mem_iff_get? distinct, ← mem_iff_get? ((keys_perm same).nodup_iff.mp distinct), same.mem_iff]

theorem nodup_of_ascending (ascending : (keys fields).Pairwise (· < ·)) : (keys fields).Nodup := by
  refine ascending.imp fun {a b} less same => ?_
  exact String.lt_irrefl b (same ▸ less)

/-- Fields are known by what is found in them. -/
theorem eq_of_get? (ascending : (keys fields).Pairwise (· < ·)) (ascending' : (keys fields').Pairwise (· < ·))
    (same : ∀ key, get? key fields = get? key fields') : fields = fields' := by
  have distinct := nodup_of_ascending ascending
  have distinct' := nodup_of_ascending ascending'
  have perm : fields.Perm fields' := by
    rw [List.perm_ext_iff_of_nodup (List.Nodup.of_map _ distinct) (List.Nodup.of_map _ distinct')]
    rintro ⟨key, a⟩
    rw [mem_iff_get? distinct, mem_iff_get? distinct', same]
  have antisymm (a b : String × α) (_ : a ∈ fields) (_ : b ∈ fields') (less : a.1 < b.1) (greater : b.1 < a.1) :
      a = b :=
    absurd (String.lt_trans less greater) (String.lt_irrefl _)
  exact List.Perm.eq_of_pairwise antisymm (List.pairwise_map.mp ascending) (List.pairwise_map.mp ascending') perm

theorem get?_ofEntries_of_nodup (distinct : (keys entries).Nodup) (key : String) :
    get? key (ofEntries entries) = get? key entries := by
  rw [get?_ofEntries, get?_reverse distinct]

theorem ofEntries_eq_of_perm (distinct : (keys entries).Nodup) (same : entries.Perm entries') :
    ofEntries entries = ofEntries entries' := by
  apply eq_of_get? (ofEntries_ascending _) (ofEntries_ascending _)
  intro key
  rw [get?_ofEntries_of_nodup distinct, get?_ofEntries_of_nodup ((keys_perm same).nodup_iff.mp distinct),
    get?_perm distinct same]

theorem ofEntries_latest (entries : List (String × α)) : ofEntries (latest entries) = ofEntries entries := by
  have distinct : (keys (latest entries)).Nodup := by
    rw [keys_latest]
    exact List.nodup_dedup _
  apply eq_of_get? (ofEntries_ascending _) (ofEntries_ascending _)
  intro key
  rw [get?_ofEntries_of_nodup distinct, get?_latest, get?_ofEntries]

theorem sorted_perm (entries : List (String × α)) : (sorted entries).Perm entries :=
  List.mergeSort_perm ..

private theorem le_trans_keys (a b c : String × α) (first : decide (a.1 ≤ b.1) = true)
    (second : decide (b.1 ≤ c.1) = true) :
    decide (a.1 ≤ c.1) = true := by
  rw [decide_eq_true_iff] at first second ⊢
  exact String.le_trans first second

private theorem le_total_keys (a b : String × α) : (decide (a.1 ≤ b.1) || decide (b.1 ≤ a.1)) = true := by
  rw [Bool.or_eq_true, decide_eq_true_iff, decide_eq_true_iff]
  exact String.le_total _ _

theorem sorted_pairwise (entries : List (String × α)) : (sorted entries).Pairwise (fun a b => a.1 ≤ b.1) :=
  (List.pairwise_mergeSort le_trans_keys le_total_keys entries).imp of_decide_eq_true

theorem sorted_eq_ofEntries (distinct : (keys entries).Nodup) : sorted entries = ofEntries entries := by
  have distinct' : (keys (sorted entries)).Nodup := (keys_perm (sorted_perm entries)).nodup_iff.mpr distinct
  have ascending : (keys (sorted entries)).Pairwise (· < ·) := by
    have upwards : (keys (sorted entries)).Pairwise (· ≤ ·) := List.pairwise_map.mpr (sorted_pairwise entries)
    refine (upwards.and distinct').imp fun {a b} both => ?_
    exact String.not_le.mp fun less => both.2 (String.le_antisymm both.1 less)
  apply eq_of_get? ascending (ofEntries_ascending _)
  intro key
  rw [get?_ofEntries_of_nodup distinct, get?_perm distinct' (sorted_perm entries)]

/-- Sorting moves no entry past another one with the same key. -/
theorem filter_sorted (entries : List (String × α)) (key : String) :
    (sorted entries).filter (fun entry => entry.1 = key) = entries.filter (fun entry => entry.1 = key) := by
  let chosen := entries.filter fun entry => entry.1 = key
  have equal : chosen.Pairwise fun a b => decide (a.1 ≤ b.1) = true := by
    refine List.pairwise_of_forall_mem_list fun a first b second => ?_
    have here := of_decide_eq_true (List.mem_filter.mp first).2
    have there := of_decide_eq_true (List.mem_filter.mp second).2
    rw [here, there]
    exact decide_eq_true (String.le_refl key)
  have kept : chosen.Sublist (sorted entries) :=
    List.sublist_mergeSort le_trans_keys le_total_keys equal List.filter_sublist
  have found : chosen.Sublist ((sorted entries).filter fun entry => entry.1 = key) := by
    have again := kept.filter fun entry => entry.1 = key
    simpa only [chosen, List.filter_filter, Bool.and_self] using again
  exact (found.eq_of_length ((sorted_perm entries).filter _).length_eq.symm).symm

end Fields

theorem Fields.latest_of_nodup {entries : List (String × α)} (distinct : (keys entries).Nodup) :
    latest entries = entries := by
  induction entries with
  | nil => rfl
  | cons entry rest ih =>
    obtain ⟨absent, others⟩ : entry.1 ∉ keys rest ∧ (keys rest).Nodup := List.nodup_cons.mp distinct
    rw [latest, if_neg absent, ih others]

theorem OptionList.entries_of_nodup {entries : List (String × α)} (distinct : (Fields.keys entries).Nodup) :
    (ofEntries entries).entries = entries := by
  rw [entries_ofEntries, Fields.latest_of_nodup distinct]

theorem MapKind.visit_eq (kind : MapKind) (entries : List (String × α)) :
    kind.visit entries = Fields.ofEntries entries := by
  cases kind with
  | ordered => rfl
  | hashed =>
    have distinct : (Fields.keys (OptionList.ofEntries entries).entries).Nodup := OptionList.ofEntries_nodup entries
    rw [visit, Fields.sorted_eq_ofEntries distinct, OptionList.entries_ofEntries, Fields.ofEntries_latest]

end QueryTerms
