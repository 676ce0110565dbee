import QueryTerms.Query
import Mathlib.Algebra.Order.Group.Nat
import Mathlib.Data.List.Forall2

/-! Frames on a connection. A reader that knows nothing but the two widths takes a token, a length and so many bytes
again and again; it gets back the queries that were sent, in their order, and nothing is left over. -/

namespace QueryTerms

def ofLittleEndian : List UInt8 → Nat
  | [] => 0
  | b :: rest => b.toNat + 256 * ofLittleEndian rest

/-- The first so many bytes and the bytes after them. -/
def cut? (count : Nat) (bytes : List UInt8) : Option (List UInt8 × List UInt8) :=
  if count ≤ bytes.length then some (bytes.take count, bytes.drop count) else none

/-- The token and the payload of the first frame, and the bytes after it. -/
def readFrame? (bytes : List UInt8) : Option ((UInt64 × List UInt8) × List UInt8) := do
  let (token, bytes) ← cut? 8 bytes
  let (size, bytes) ← cut? 4 bytes
  let (payload, bytes) ← cut? (ofLittleEndian size) bytes
  return ((UInt64.ofNat (ofLittleEndian token), payload), bytes)

private theorem length_of_cut? {count : Nat} {bytes first rest : List UInt8}
    (found : cut? count bytes = some (first, rest)) :
    bytes.length = count + rest.length := by
  unfold cut? at found
  split at found
  next enough =>
    obtain ⟨_, rfl⟩ := Prod.mk.inj (Option.some.inj found)
    rw [List.length_drop]
    omega
  next => cases found

private theorem readFrame?_shorter {bytes rest : List UInt8} {packet : UInt64 × List UInt8}
    (found : readFrame? bytes = some (packet, rest)) : rest.length < bytes.length := by
  simp only [readFrame?, Option.bind_eq_bind, Option.bind_eq_some_iff, Prod.exists, Option.pure_def, Option.some.injEq,
    Prod.mk.injEq] at found
  obtain ⟨token, afterToken, first, size, afterSize, second, payload, afterPayload, third, _, rfl⟩ := found
  have tokenLength := length_of_cut? first
  have sizeLength := length_of_cut? second
  have payloadLength := length_of_cut? third
  omega

/-- The tokens and payloads of the frames that the bytes consist of; nothing if some bytes are no frame. -/
def readFrames? (bytes : List UInt8) : Option (List (UInt64 × List UInt8)) :=
  if bytes.isEmpty then some [] else
  match _ : readFrame? bytes with
  | none => none
  | some (packet, rest) => (readFrames? rest).map (packet :: ·)
termination_by bytes.length
decreasing_by exact readFrame?_shorter ‹_›

@[simp] theorem length_littleEndian (count n : Nat) : (littleEndian count n).length = count := by
  induction count generalizing n with
  | zero => rfl
  | succ count ih => rw [littleEndian, List.length_cons, ih]

theorem ofLittleEndian_littleEndian {count n : Nat} (small : n < 256 ^ count) :
    ofLittleEndian (littleEndian count n) = n := by
  induction count generalizing n with
  | zero =>
    rw [pow_zero, Nat.lt_one_iff] at small
    rw [small]
    rfl
  | succ count ih =>
    have smaller : n / 256 < 256 ^ count := by
      apply Nat.div_lt_of_lt_mul
      rwa [pow_succ, mul_comm] at small
    rw [littleEndian, ofLittleEndian, ih smaller, UInt8.toNat_ofNat']
    exact Nat.mod_add_div n 256

theorem littleEndian_ofLittleEndian (bytes : List UInt8) :
    littleEndian bytes.length (ofLittleEndian bytes) = bytes := by
  induction bytes with
  | nil => rfl
  | cons b rest ih =>
    have small := b.toNat_lt
    have lowest : UInt8.ofNat (b.toNat + 256 * ofLittleEndian rest) = b := by
      rw [← UInt8.toNat_inj, UInt8.toNat_ofNat']
      omega
    have others : (b.toNat + 256 * ofLittleEndian rest) / 256 = ofLittleEndian rest := by omega
    rw [List.length_cons, ofLittleEndian, littleEndian, lowest, others, ih]

private theorem cut?_append (first rest : List UInt8) : cut? first.length (first ++ rest) = some (first, rest) := by
  simp [cut?]

private theorem cut?_littleEndian_append (count n : Nat) (rest : List UInt8) :
    cut? count (littleEndian count n ++ rest) = some (littleEndian count n, rest) := by
  have cut := cut?_append (littleEndian count n) rest
  rwa [length_littleEndian] at cut

namespace Query

theorem frame_eq_ok_iff {q : Query} {bytes : List UInt8} :
    q.frame = .ok bytes ↔ q.payload.length < UInt32.size ∧
      bytes = littleEndian 8 q.token.toNat ++ (littleEndian 4 q.payload.length ++ q.payload) := by
  simp only [frame, List.append_assoc]
  split
  next short => simp [short, eq_comm]
  next long => simp [long]

theorem frame_eq_error_iff {q : Query} {e : PayloadTooLarge} :
    q.frame = .error e ↔ UInt32.size ≤ q.payload.length ∧ e = ⟨q.payload.length⟩ := by
  simp only [frame]
  split
  next short => simp [short]
  next long => simp [Nat.le_of_not_lt long, eq_comm]

/-- A frame says where it ends, whatever follows it. -/
private theorem readFrame?_frame_append {q : Query} {bytes : List UInt8} (framed : q.frame = .ok bytes)
    (rest : List UInt8) :
    readFrame? (bytes ++ rest) = some ((q.token, q.payload), rest) := by
  obtain ⟨short, rfl⟩ := frame_eq_ok_iff.mp framed
  have token : ofLittleEndian (littleEndian 8 q.token.toNat) = q.token.toNat :=
    ofLittleEndian_littleEndian q.token.toNat_lt
  have size : ofLittleEndian (littleEndian 4 q.payload.length) = q.payload.length :=
    ofLittleEndian_littleEndian short
  simp only [readFrame?, List.append_assoc, cut?_littleEndian_append, Option.bind_eq_bind, Option.bind_some, token,
    size, cut?_append, UInt64.ofNat_toNat, Option.pure_def]

theorem readFrames?_frame_append {q : Query} {bytes : List UInt8} (framed : q.frame = .ok bytes) (rest : List UInt8) :
    readFrames? (bytes ++ rest) = (readFrames? rest).map ((q.token, q.payload) :: ·) := by
  have nonempty : (bytes ++ rest).isEmpty = false := by
    obtain ⟨_, rfl⟩ := frame_eq_ok_iff.mp framed
    rfl
  have first := readFrame?_frame_append framed rest
  rw [readFrames?, nonempty, if_neg Bool.false_ne_true]
  split
  next missing =>
    rw [first] at missing
    cases missing
  next packet rest' found =>
    rw [first] at found
    obtain ⟨rfl, rfl⟩ := Prod.mk.inj (Option.some.inj found)
    rfl

end Query

namespace Proofs.Framing

/-- The frames of queries, sent one after the other, are read back to the tokens and payloads of the queries, and no
byte is left. Framing fails exactly if the payload has 2^32 bytes or more, and says how many. -/
theorem frames_read_back :
    (∀ (queries : List Query) (frames : List (List UInt8)),
      List.Forall₂ (fun q bytes => q.frame = .ok bytes) queries frames →
      readFrames? frames.flatten = some (queries.map fun q => (q.token, q.payload))) ∧
    ∀ (q : Query) (e : PayloadTooLarge),
      q.frame = .error e ↔ 2 ^ 32 ≤ q.payload.length ∧ e.size = q.payload.length := by
  refine ⟨fun queries frames framed => ?_, fun q e => ?_⟩
  · induction framed with
    | nil => rw [List.flatten_nil, readFrames?]; rfl
    | cons first _ ih =>
      rw [List.flatten_cons, Query.readFrames?_frame_append first, ih, Option.map_some, List.map_cons]
  · rw [Query.frame_eq_error_iff, PayloadTooLarge.mk.injEq]
    rfl

theorem frames_read_back_pair :
    let queries := [Query.control .stop 0x0102, Query.mk 7 (.array [.unsigned 1, .string "é"])]
    let frames : List (List UInt8) :=
      [[2, 1, 0, 0, 0, 0, 0, 0, 3, 0, 0, 0, 91, 51, 93],
       [7, 0, 0, 0, 0, 0, 0, 0, 8, 0, 0, 0, 91, 49, 44, 34, 195, 169, 34, 93]]
    List.Forall₂ (fun q bytes => q.frame = .ok bytes) queries frames ∧
      readFrames? frames.flatten = some (queries.map fun q => (q.token, q.payload)) := by
  intro queries frames
  have framed : List.Forall₂ (fun q bytes => q.frame = .ok bytes) queries frames :=
    .cons (by decide +kernel) (.cons (by decide +kernel) .nil)
  exact ⟨framed, frames_read_back.1 queries frames framed⟩

end Proofs.Framing

end QueryTerms
