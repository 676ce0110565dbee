import QueryTerms.Proofs.Envelope
import QueryTerms.Proofs.SortedEntries

/-! Objects from host maps. A hash map gives its entries in an order that means nothing, so they are put in order before
they are built: whatever that order was, the object and the variables drawn for it are those of an ordered map. The
order of the keys is the order of the bytes of their UTF-8 forms. -/

namespace QueryTerms

namespace Utf8

/-- The last digits of a code point in base 64, each as a byte. -/
def digits : Nat → Nat → List UInt8
  | 0, _ => []
  | count + 1, code => digits count (code / 64) ++ [UInt8.ofNat (code % 64 + 128)]

/-- What is left of a code point without its last digits. -/
def high : Nat → Nat → Nat
  | 0, code => code
  | count + 1, code => high count (code / 64)

/-- How many digits follow the first byte of a code point, and what the first byte is. -/
def form (code : Nat) : Nat × Nat :=
  if code ≤ 127 then (0, code)
  else if code ≤ 2047 then (1, code / 64 + 192)
  else if code ≤ 65535 then (2, code / 4096 + 224)
  else (3, code / 262144 + 240)

private theorem form_cases (code : Nat) :
    (code ≤ 127 ∧ form code = (0, code)) ∨
    (127 < code ∧ code ≤ 2047 ∧ form code = (1, code / 64 + 192)) ∨
    (2047 < code ∧ code ≤ 65535 ∧ form code = (2, code / 4096 + 224)) ∨
    (65535 < code ∧ form code = (3, code / 262144 + 240)) := by
  grind [form]

private theorem form_fits {code : Nat} (top : code ≤ 0x10FFFF) : (form code).2 < 256 := by
  rcases form_cases code with ⟨_, found⟩ | ⟨_, _, found⟩ | ⟨_, _, found⟩ | ⟨_, found⟩ <;>
  · simp only [found]
    omega

/-- Of two code points, the lesser one has the lesser first byte, or else as many digits and the same high part. -/
private theorem form_lt {code other : Nat} (less : code < other) (top : other ≤ 0x10FFFF) :
    (form code).2 < (form other).2 ∨ (form code).1 = (form other).1 ∧ (form code).2 = (form other).2 ∧
      high (form code).1 code = high (form code).1 other := by
  rcases form_cases code with ⟨_, first⟩ | ⟨_, _, first⟩ | ⟨_, _, first⟩ | ⟨_, first⟩ <;>
  rcases form_cases other with ⟨_, second⟩ | ⟨_, _, second⟩ | ⟨_, _, second⟩ | ⟨_, second⟩ <;>
  · simp only [first, second, high, true_and]
    omega

private theorem code_le (c : Char) : c.toNat ≤ 0x10FFFF := by
  rcases c.valid with below | within
  · have bound : c.toNat < 0xD800 := below
    omega
  · have bound : c.toNat < 0x110000 := within.2
    omega

private theorem encodeChar_eq (c : Char) :
    String.utf8EncodeChar c = UInt8.ofNat (form c.toNat).2 :: digits (form c.toNat).1 c.toNat := by
  have top := code_le c
  simp only [String.utf8EncodeChar, form, Char.toNat] at top ⊢
  generalize c.val.toNat = code at top ⊢
  split
  · rfl
  · split
    · rw [Nat.mod_eq_of_lt (by omega)]
      rfl
    · split
      · rw [Nat.mod_eq_of_lt (by omega)]
        rfl
      · rw [Nat.mod_eq_of_lt (by omega)]
        simp only [digits, Nat.div_div_eq_div_mul]
        rfl

private theorem byte_lt {a b : Nat} (less : a < b) (fits : b < 256) : UInt8.ofNat a < UInt8.ofNat b := by
  rw [UInt8.lt_iff_toNat_lt, UInt8.toNat_ofNat_of_lt' (Nat.lt_trans less fits), UInt8.toNat_ofNat_of_lt' fits]
  exact less

/-- Digits of the same number are compared from the highest one on, whatever follows them. -/
private theorem digits_lt {count code other : Nat} (same : high count code = high count other) (less : code < other)
    (rest rest' : List UInt8) : digits count code ++ rest < digits count other ++ rest' := by
  induction count generalizing code other rest rest' with
  | zero => exact absurd same (Nat.ne_of_lt less)
  | succ count ih =>
    simp only [digits, List.append_assoc, List.singleton_append]
    by_cases before : code / 64 = other / 64
    · rw [before]
      apply List.append_left_lt
      exact List.cons_lt_cons_iff.mpr (.inl (byte_lt (by omega) (by omega)))
    · exact ih same (by omega) _ _

private theorem encodeChar_lt {c d : Char} (less : c < d) (rest rest' : List UInt8) :
    String.utf8EncodeChar c ++ rest < String.utf8EncodeChar d ++ rest' := by
  have below : c.toNat < d.toNat := less
  rw [encodeChar_eq, encodeChar_eq, List.cons_append, List.cons_append, List.cons_lt_cons_iff]
  rcases form_lt below (code_le d) with first | ⟨count, first, same⟩
  · exact .inl (byte_lt first (form_fits (code_le d)))
  · rw [← count, first]
    exact .inr ⟨rfl, digits_lt same below rest rest'⟩

private theorem encode_lt {cs ds : List Char} (less : cs < ds) :
    cs.flatMap String.utf8EncodeChar < ds.flatMap String.utf8EncodeChar := by
  induction less with
  | nil =>
    rw [List.flatMap_cons, encodeChar_eq]
    exact List.nil_lt_cons _ _
  | rel first => exact encodeChar_lt first _ _
  | cons _ ih => exact List.append_left_lt ih

/-- The bytes of a text. -/
def bytes (s : String) : List UInt8 := s.toUTF8.data.toList

theorem bytes_lt {s t : String} (less : s < t) : bytes s < bytes t := by
  have encoded (s : String) : bytes s = s.toList.flatMap String.utf8EncodeChar := by
    rw [bytes, String.toUTF8_eq_toByteArray, ← String.utf8Encode_toList, List.utf8Encode, List.data_toByteArray]
  rw [encoded, encoded]
  exact encode_lt less

end Utf8

private theorem Fields.ofEntries_of_ascending {fields : Fields α} (ascending : (keys fields).Pairwise (· < ·)) :
    ofEntries fields = fields :=
  eq_of_get? (ofEntries_ascending _) ascending (get?_ofEntries_of_nodup (nodup_of_ascending ascending))

theorem Fields.ofEntries_perm {entries : List (String × α)} (distinct : (keys entries).Nodup) :
    (ofEntries entries).Perm entries := by
  rw [← sorted_eq_ofEntries distinct]
  exact sorted_perm entries

theorem Handle.mapping_run (kind : MapKind) (entries : List (String × Handle)) (context : Context) :
    let upwards := Fields.ofEntries entries
    ((Handle.mapping kind entries).run context).result = .call .makeObj [] (Build.results upwards context) ∧
      ((Handle.mapping kind entries).run context).context = Build.contextAfter upwards context := by
  intro upwards
  obtain ⟨result, left⟩ := Build.fields_run upwards context
  have ascending : (Fields.keys (Build.results upwards context)).Pairwise (· < ·) := by
    rw [Build.keys_results]
    exact Fields.ofEntries_ascending entries
  rw [Fields.ofEntries_of_ascending ascending] at result
  rw [Handle.mapping, kind.visit_eq, ← result]
  exact ⟨rfl, left⟩

namespace Proofs.HostMaps

/-- In whatever order a hash map gives its entries, the object is built as from the ordered map: one value after the
other, the key with the least bytes first. -/
theorem mapping_hashed_eq {entries enumeration : List (String × Handle)} (distinct : (Fields.keys entries).Nodup)
    (same : enumeration.Perm entries) (context : Context) :
    let built := (Handle.mapping .ordered entries).run context
    (Handle.mapping .hashed enumeration).run context = built ∧
    ∃ upwards, upwards.Perm entries ∧ upwards.Pairwise (fun a b => Utf8.bytes a.1 < Utf8.bytes b.1) ∧
      built.result = .call .makeObj [] (Build.results upwards context) ∧
      built.context = Build.contextAfter upwards context := by
  intro built
  have distinct' := (Fields.keys_perm same).nodup_iff.mpr distinct
  refine ⟨?_, Fields.ofEntries entries, Fields.ofEntries_perm distinct, ?_, Handle.mapping_run .ordered entries context⟩
  · simp only [built, Handle.mapping, MapKind.visit_eq, Fields.ofEntries_eq_of_perm distinct' same]
  · have ascending := List.pairwise_map.mp (Fields.ofEntries_ascending entries)
    exact ascending.imp Utf8.bytes_lt

/-- The second key is the lesser one by its bytes, though not by its UTF-16 units. -/
theorem mapping_hashed_eq_astral :
    let same : Handle := .func 1 fun ids => .var (ids.headD 0)
    let pair : Handle := .func 2 fun ids => .var (ids.headD 0)
    let entries : List (String × Handle) := [("𝄞", same), ("�", pair), ("b", .var 9)]
    let built := (Handle.mapping .ordered entries).run { allocated := 9 }
    (Handle.mapping .hashed entries.reverse).run { allocated := 9 } = built ∧
    (∃ upwards, upwards.Perm entries ∧ upwards.Pairwise (fun a b => Utf8.bytes a.1 < Utf8.bytes b.1) ∧
      built.result = .call .makeObj [] (Build.results upwards { allocated := 9 })) ∧
    built.result =
      .call .makeObj [] [("b", .var 9), ("�", .func [10, 11] (.var 10)), ("𝄞", .func [12] (.var 12))] := by
  intro same pair entries built
  obtain ⟨equal, upwards, perm, ascending, result, _⟩ :=
    mapping_hashed_eq (by decide) entries.reverse_perm { allocated := 9 }
  exact ⟨equal, ⟨upwards, perm, ascending, result⟩, rfl⟩

end Proofs.HostMaps

end QueryTerms
