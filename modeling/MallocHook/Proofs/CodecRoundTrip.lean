/-
Module: MallocHook.Proofs.CodecRoundTrip
Purpose: Fields that are written are read back, and bytes that are read are written back if their
  numbers are minimal and the last field is whole.
Trusted boundary: varintsOf, iterFieldsAt
Main exports: readFieldAt_minimal, codec_round_trip
-/
import MallocHook.Core.ProtoCursor

namespace MallocHook

open WireFormat List

/-- The bytes of the number at an offset. -/
def varintBytes (buf : Bytes) (offset : Nat) : Bytes :=
  (readVarintAt buf offset).elim [] fun found => (buf.drop offset).take (found.2 - offset)

/-- The numbers of the field at an offset: its key, and its value or the length of it. -/
def varintsOf (buf : Bytes) (entry : Nat × WireField) : List Bytes :=
  let key := varintBytes buf entry.1
  if entry.2.value.wireType = 0 ∨ entry.2.value.wireType = 2 then
    [key, varintBytes buf (entry.1 + key.length)] else [key]

theorem readVarintAt_encodeVarint (value : Nat) (before after : Bytes) :
    readVarintAt (before ++ encodeVarint value ++ after) before.length =
      some (value, before.length + (encodeVarint value).length) := by
  rw [readVarintAt, append_assoc, drop_left, readVarintFrom_eq (by decide), readVarint_encodeVarint]
  simp

variable {buf : Bytes}

theorem readVarintAt_spec {offset value next : Nat} (reads : readVarintAt buf offset = some (value, next)) :
    ∃ used, next = offset + used.length ∧ buf.drop offset = used ++ buf.drop next ∧
      ∀ tail, readVarint (used ++ tail) = some (value, tail) := by
  rw [readVarintAt, readVarintFrom_eq (by decide)] at reads
  obtain ⟨⟨number, rest⟩, onList, same⟩ := Option.map_eq_some_iff.1 reads
  obtain ⟨used, -, split, again⟩ := readVarint_spec onList
  simp only [split, length_append, Nat.add_sub_cancel, Nat.zero_add, Nat.pow_zero, Nat.one_mul,
    Prod.mk.injEq] at same
  obtain ⟨rfl, rfl⟩ := same
  refine ⟨used, rfl, ?_, again⟩
  rw [← drop_drop, split, drop_left]

/-- A number without a group to spare is the one that is written for its value. -/
theorem readVarintAt_minimal {offset value next : Nat} (reads : readVarintAt buf offset = some (value, next))
    (minimal : MinimalVarint (varintBytes buf offset)) :
    next = offset + (varintBytes buf offset).length ∧
    buf.drop offset = encodeVarint value ++ buf.drop next := by
  obtain ⟨used, end_, split, again⟩ := readVarintAt_spec reads
  have bytes : varintBytes buf offset = used := by
    rw [varintBytes, reads, Option.elim_some, split, end_, Nat.add_sub_cancel_left, take_left]
  rw [bytes] at minimal ⊢
  rw [← eq_encodeVarint_of_minimal (again []) minimal]
  exact ⟨end_, split⟩

/-- Bytes of a value that are all there. -/
theorem take_append_drop_at (offset size : Nat) (inside : offset + size ≤ buf.length) :
    ((buf.drop offset).take size).length = size ∧
      buf.drop offset = (buf.drop offset).take size ++ buf.drop (offset + size) := by
  constructor
  · rw [length_take, length_drop]
    omega
  · rw [← drop_drop, take_append_drop]

theorem readValueAt_minimal {wireType offset next : Nat} {value : WireValue}
    (reads : readValueAt buf wireType offset = some (value, next)) (inside : next ≤ buf.length)
    (minimal : value.wireType = 0 ∨ value.wireType = 2 → MinimalVarint (varintBytes buf offset)) :
    value.wireType = wireType ∧ buf.drop offset = value.encode ++ buf.drop next := by
  unfold readValueAt at reads
  split at reads
  · obtain ⟨⟨number, _⟩, readsNumber, same⟩ := Option.map_eq_some_iff.1 reads
    cases same
    exact ⟨rfl, (readVarintAt_minimal readsNumber (minimal (.inl rfl))).2⟩
  · cases reads
    exact ⟨rfl, (take_append_drop_at offset 8 inside).2⟩
  · obtain ⟨⟨size, afterSize⟩, readsSize, same⟩ := Option.map_eq_some_iff.1 reads
    cases same
    obtain ⟨length, split⟩ := take_append_drop_at afterSize size inside
    refine ⟨rfl, ?_⟩
    rw [WireValue.encode, length, append_assoc, ← split]
    exact (readVarintAt_minimal readsSize (minimal (.inr rfl))).2
  · cases reads
    exact ⟨rfl, (take_append_drop_at offset 4 inside).2⟩
  · cases reads

/-- One round reads the bytes that are written for its field. -/
theorem readFieldAt_minimal {offset next : Nat} {field : WireField}
    (reads : readFieldAt buf offset = some (field, next)) (inside : next ≤ buf.length)
    (minimal : ∀ number ∈ varintsOf buf (offset, field), MinimalVarint number) :
    buf.drop offset = copyField field ++ buf.drop next := by
  obtain ⟨⟨key, afterKey⟩, readsKey, reads⟩ := Option.bind_eq_some_iff.1 reads
  obtain ⟨⟨value, _⟩, readsValue, ⟨⟩⟩ := Option.map_eq_some_iff.1 reads
  have keyMinimal : MinimalVarint (varintBytes buf offset) := by
    refine minimal _ ?_
    rw [varintsOf]
    split <;> exact mem_cons_self
  obtain ⟨rfl, splitKey⟩ := readVarintAt_minimal readsKey keyMinimal
  obtain ⟨wireType, splitValue⟩ := readValueAt_minimal readsValue inside fun withNumber =>
    minimal _ (by simp [varintsOf, withNumber])
  have number : key >>> 3 = key / 8 := Nat.shiftRight_eq_div_pow _ 3
  have kind : key &&& 7 = key % 8 := Nat.and_two_pow_sub_one_eq_mod _ 3
  rw [copyField_eq, WireField.encode, encodeKey, wireType, number, kind, Nat.div_add_mod',
    splitKey, splitValue,
    append_assoc]

/-- The rounds together read what is left of the buffer. -/
theorem iterFieldsFrom_minimal {fuel offset : Nat} {entries : List (Nat × WireField)}
    (reads : iterFieldsFrom buf fuel offset = some (entries, buf.length))
    (minimal : ∀ entry ∈ entries, ∀ number ∈ varintsOf buf entry, MinimalVarint number) :
    offset ≤ buf.length ∧ entries.flatMap (fun entry => copyField entry.2) = buf.drop offset := by
  have done {offset : Nat} {entries : List (Nat × WireField)}
    (same : some ([], offset) = some (entries, buf.length)) :
      offset ≤ buf.length ∧ entries.flatMap (fun entry => copyField entry.2) = buf.drop offset := by
    cases same
    exact ⟨Nat.le_refl _, drop_length.symm⟩
  induction fuel generalizing offset entries with
  | zero =>
      rw [iterFieldsFrom] at reads
      split at reads
      · cases reads
      · exact done reads
  | succ fuel ih =>
      rw [iterFieldsFrom] at reads
      split at reads
      · next before =>
          obtain ⟨⟨field, next⟩, readsField, reads⟩ := Option.bind_eq_some_iff.1 reads
          obtain ⟨⟨later, stop⟩, readsLater, ⟨⟩⟩ := Option.map_eq_some_iff.1 reads
          obtain ⟨here, there⟩ := forall_mem_cons.1 minimal
          obtain ⟨inside, written⟩ := ih readsLater there
          refine ⟨Nat.le_of_lt before, ?_⟩
          rw [flatMap_cons, written, readFieldAt_minimal readsField inside here]
      · exact done reads

/-- Complete fields are read back from what is written for them, a number wherever it stands, and bytes
read to their end, with no number longer than it has to be, are written back. -/
theorem codec_round_trip :
    (∀ fields : List WireField, (∀ field ∈ fields, field.value.Complete) →
      (iterFieldsAt (fields.flatMap copyField)).map (fun run => run.1.map Prod.snd) = some fields) ∧
    (∀ (value : Nat) (before after : Bytes), readVarintAt (before ++ encodeVarint value ++ after)
      before.length =
      some (value, before.length + (encodeVarint value).length)) ∧
    ∀ (buf : Bytes) (entries : List (Nat × WireField)), iterFieldsAt buf = some (entries, buf.length) →
      (∀ entry ∈ entries, ∀ number ∈ varintsOf buf entry, MinimalVarint number) →
      entries.flatMap (fun entry => copyField entry.2) = buf := by
  refine ⟨fun fields complete => ?_, readVarintAt_encodeVarint, fun buf entries reads minimal =>
    (iterFieldsFrom_minimal reads minimal).2⟩
  have framed : Framed readField (fields.map fun field => (copyField field, field)) := by
    refine framed_of_delimits fun entry member => ?_
    obtain ⟨field, isField, rfl⟩ := mem_map.1 member
    rw [copyField_eq]
    exact encode_delimits (complete field isField)
  have all := readAll_of_framed framed
  rw [spans, map_map, map_map] at all
  rw [iterFieldsAt_eq, flatMap_def]
  exact all.trans (congrArg some (map_id fields))

theorem codec_round_trip_two_fields :
    (iterFieldsAt ([⟨1, .varint 300⟩, ⟨2, .len [7, 8]⟩].flatMap copyField)).map
    (fun run => run.1.map Prod.snd) =
        some [⟨1, .varint 300⟩, ⟨2, .len [7, 8]⟩] ∧
      [(0, ⟨1, .varint 300⟩), (3, ⟨2, .len [7, 8]⟩)].flatMap (fun entry => copyField entry.2) =
        [0x08, 0xac, 0x02, 0x12, 0x02, 7, 8] :=
  ⟨codec_round_trip.1 _ (by simp [WireValue.Complete]),
    codec_round_trip.2.2 _ _ (by decide +kernel) (by unfold MinimalVarint; decide +kernel)⟩

end MallocHook
