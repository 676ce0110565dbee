import QueryTerms.OptionList
import Mathlib.Data.List.Forall2

/-! Named parts and functions of their values. Which of two equal keys counts and where a key stands depends on
the keys alone, so a function of the values can be applied before or after the parts are collected. -/

namespace QueryTerms

namespace Fields

variable {α β γ : Type}

theorem mapValues_cons (f : α → β) (entry : String × α) (fields : Fields α) :
    mapValues f (entry :: fields) = (entry.1, f entry.2) :: mapValues f fields :=
  rfl

theorem mapValues_mapValues (f : α → β) (g : β → γ) (fields : Fields α) :
    mapValues g (mapValues f fields) = mapValues (g ∘ f) fields := by
  simp [mapValues]

private theorem mapValues_insert (f : α → β) (key : String) (value : α) (fields : Fields α) :
    mapValues f (insert key value fields) = insert key (f value) (mapValues f fields) := by
  induction fields with
  | nil => rfl
  | cons entry rest ih =>
    simp only [insert, mapValues_cons]
    split
    · rfl
    · split
      · rfl
      · rw [mapValues_cons, ih]

theorem mapValues_ofEntries (f : α → β) (entries : List (String × α)) :
    mapValues f (ofEntries entries) = ofEntries (mapValues f entries) := by
  have step (fields : Fields α) (entry : String × α) := (mapValues_insert f entry.1 entry.2 fields).symm
  exact ((List.foldl_map ..).trans (List.foldl_hom (mapValues f) step)).symm

private theorem mem_of_mem_insert {key : String} {value : α} {fields : Fields α} {entry : String × α}
    (member : entry ∈ insert key value fields) : entry = (key, value) ∨ entry ∈ fields := by
  induction fields with
  | nil => exact .inl (List.mem_singleton.mp member)
  | cons first rest ih =>
    rw [insert] at member
    split at member
    · exact List.mem_cons.mp member
    · split at member
      · exact (List.mem_cons.mp member).imp_right (List.mem_cons_of_mem _)
      · rcases List.mem_cons.mp member with same | later
        · exact .inr (same ▸ List.mem_cons_self)
        · exact (ih later).imp_right (List.mem_cons_of_mem _)

theorem mem_of_mem_ofEntries {entries : List (String × α)} {entry : String × α}
    (member : entry ∈ ofEntries entries) : entry ∈ entries := by
  have among := List.foldlRecOn (motive := fun fields : Fields α => ∀ entry ∈ fields, entry ∈ entries) entries
    (fun fields entry => insert entry.1 entry.2 fields) (b := []) (by simp)
  refine among (fun fields before next inside entry member => ?_) entry member
  rcases mem_of_mem_insert member with same | older
  · exact same ▸ inside
  · exact before entry older

/-- Fields with the same keys, of which the values are related. -/
abbrev Related (R : α → β → Prop) : Fields α → Fields β → Prop :=
  List.Forall₂ fun a b => a.1 = b.1 ∧ R a.2 b.2

theorem Related.insert {R : α → β → Prop} {fields : Fields α} {fields' : Fields β} {key key' : String} {a : α} {b : β}
    (sameKey : key = key') (first : R a b) (related : Related R fields fields') :
    Related R (Fields.insert key a fields) (Fields.insert key' b fields') := by
  subst sameKey
  induction related with
  | nil => exact .cons ⟨rfl, first⟩ .nil
  | @cons x y xs ys same rest ih =>
    simp only [Fields.insert, same.1]
    split
    · exact .cons ⟨rfl, first⟩ (.cons ⟨rfl, same.2⟩ rest)
    · split
      · exact .cons ⟨rfl, first⟩ rest
      · exact .cons ⟨rfl, same.2⟩ ih

theorem Related.eq {fields fields' : Fields α} (related : Related Eq fields fields') : fields = fields' := by
  rw [← List.forall₂_eq_eq_eq]
  exact related.imp fun _ _ same => Prod.ext same.1 same.2

theorem Related.keys {R : α → β → Prop} {fields : Fields α} {fields' : Fields β} (related : Related R fields fields') :
    Fields.keys fields = Fields.keys fields' := by
  rw [← List.forall₂_eq_eq_eq, Fields.keys, Fields.keys, List.forall₂_map_left_iff, List.forall₂_map_right_iff]
  exact related.imp fun _ _ same => same.1

theorem Related.ofEntries {R : α → β → Prop} {entries : List (String × α)} {entries' : List (String × β)}
    (related : Related R entries entries') : Related R (Fields.ofEntries entries) (Fields.ofEntries entries') :=
  List.rel_foldl (fun _ _ before _ _ same => Related.insert same.1 same.2 before) .nil related

end Fields

namespace OptionList

variable {α β : Type}

private theorem mapValues_push (f : α → β) (key : String) (value : α) (options : OptionList α) :
    Fields.mapValues f (options.push key value).entries =
      (push key (f value) ⟨Fields.mapValues f options.entries⟩).entries := by
  simp [push, Fields.mapValues, List.filter_map, Function.comp_def]

theorem mapValues_ofEntries (f : α → β) (entries : List (String × α)) :
    Fields.mapValues f (ofEntries entries).entries = (ofEntries (Fields.mapValues f entries)).entries := by
  let mapped (options : OptionList α) : OptionList β := ⟨Fields.mapValues f options.entries⟩
  have step (options : OptionList α) (entry : String × α) :
      push entry.1 (f entry.2) (mapped options) = mapped (push entry.1 entry.2 options) :=
    congrArg OptionList.mk (mapValues_push f entry.1 entry.2 options).symm
  have collected : ofEntries (Fields.mapValues f entries) = mapped (ofEntries entries) :=
    calc
      _ = entries.foldl (fun options entry => push entry.1 (f entry.2) options) (mapped empty) := List.foldl_map ..
      _ = _ := List.foldl_hom mapped step
  rw [collected]

theorem mem_of_mem_ofEntries {entries : List (String × α)} {entry : String × α}
    (member : entry ∈ (ofEntries entries).entries) : entry ∈ entries := by
  have among := List.foldlRecOn (motive := fun options : OptionList α => ∀ entry ∈ options.entries, entry ∈ entries)
    entries (fun options entry => push entry.1 entry.2 options) (b := empty) (by simp [empty])
  refine among (fun options before next inside entry member => ?_) entry member
  rcases List.mem_append.mp member with older | same
  · exact before entry (List.mem_filter.mp older).1
  · exact List.mem_singleton.mp same ▸ inside

private theorem push_related {R : α → β → Prop} {options : OptionList α} {options' : OptionList β}
    (related : Fields.Related R options.entries options'.entries) (entry : String × α) (entry' : String × β)
    (first : entry.1 = entry'.1 ∧ R entry.2 entry'.2) :
    Fields.Related R (options.push entry.1 entry.2).entries (options'.push entry'.1 entry'.2).entries := by
  apply List.rel_append
  · exact List.rel_filter (fun other other' same => by simp [same.1, first.1]) related
  · exact .cons first .nil

theorem ofEntries_related {R : α → β → Prop} {entries : List (String × α)} {entries' : List (String × β)}
    (related : Fields.Related R entries entries') :
    Fields.Related R (ofEntries entries).entries (ofEntries entries').entries :=
  List.rel_foldl (P := fun (options : OptionList α) (options' : OptionList β) =>
      Fields.Related R options.entries options'.entries)
    (fun _ _ before entry entry' first => push_related before entry entry' first) .nil related

end OptionList

end QueryTerms
