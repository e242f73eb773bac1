/-
Module: MallocHook.Core.ProtoCursor
Purpose: The readers of `perfetto_proto.py` as they are written, with an offset into the buffer, and
  their agreement with the readers on lists of bytes.
Trusted boundary: translation of read_varint and iter_fields of scripts/perfetto_proto.py and of
  _copy_field of scripts/build_perfetto_alloc_track.py; an exception is `none`
Main exports: readVarintAt, readFieldAt, iterFieldsAt, copyField
-/
import MallocHook.Core.PerfettoProto

namespace MallocHook

open WireFormat List

/-- The loop of `read_varint` over what is left of the buffer. -/
def readVarintFrom (offset shift value : Nat) : Bytes → Option (Nat × Nat)
  | [] => none
  | byte :: rest =>
      let value := value ||| (byte.toNat &&& 0x7f) <<< shift
      if byte.toNat &&& 0x80 = 0 then some (value, offset + 1)
        else readVarintFrom (offset + 1) (shift + 7) value rest

variable (buf : Bytes) (offset : Nat)

/-- `read_varint`: the number and the offset behind it. -/
def readVarintAt : Option (Nat × Nat) := readVarintFrom offset 0 0 (buf.drop offset)

/-- The value of a field, after its key. -/
def readValueAt (wireType offset : Nat) : Option (WireValue × Nat) :=
  match wireType with
  | 0 => (readVarintAt buf offset).map fun (value, offset) => (.varint value, offset)
  | 1 => some (.fixed64 ((buf.drop offset).take 8), offset + 8)
  | 2 =>
      (readVarintAt buf offset).map fun (size, offset) =>
        (.len ((buf.drop offset).take size), offset + size)
  | 5 => some (.fixed32 ((buf.drop offset).take 4), offset + 4)
  | _ => none

/-- One round of `iter_fields`: the field and the offset behind it. -/
def readFieldAt : Option (WireField × Nat) :=
  (readVarintAt buf offset).bind fun (key, offset) =>
    (readValueAt buf (key &&& 7) offset).map fun (value, offset) => (⟨key >>> 3, value⟩, offset)

/-- The loop of `iter_fields`: the fields, each with the offset it begins at, and the offset at the end. -/
def iterFieldsFrom (buf : Bytes) : Nat → Nat → Option (List (Nat × WireField) × Nat)
  | 0, offset => if offset < buf.length then none else some ([], offset)
  | fuel + 1, offset =>
      if offset < buf.length then
        (readFieldAt buf offset).bind fun (field, next) =>
          (iterFieldsFrom buf fuel next).map fun (later, stop) => ((offset, field) :: later, stop)
      else some ([], offset)

def iterFieldsAt : Option (List (Nat × WireField) × Nat) := iterFieldsFrom buf buf.length 0

/-- `_copy_field`. -/
def copyField (field : WireField) : Bytes :=
  match field.value with
  | .varint value => encodeVarField field.number value
  | .len payload => encodeLenField field.number payload
  | .fixed64 bytes | .fixed32 bytes => encodeKey field.number field.value.wireType ++ bytes

theorem copyField_eq (field : WireField) : copyField field = field.encode := by
  obtain ⟨number, value⟩ := field
  cases value <;> rfl

/-! ### The readers on lists -/

/-- What was read so far is below the bit where the next seven go. -/
theorem readVarintFrom_eq {shift value : Nat} (below : value < 2 ^ shift) (offset : Nat) (bytes : Bytes) :
    readVarintFrom offset shift value bytes =
      (readVarint bytes).map fun found => (value + 2 ^ shift * found.1,
      offset + (bytes.length - found.2.length)) := by
  induction bytes generalizing offset shift value with
  | nil => rfl
  | cons byte rest ih =>
      have low : byte.toNat &&& 0x7f = byte.toNat % 128 := Nat.and_two_pow_sub_one_eq_mod _ 7
      have high : byte.toNat &&& 0x80 = 0 ↔ byte.toNat < 128 :=
        (by decide +kernel : ∀ n < 256, n &&& 0x80 = 0 ↔ n < 128) _ byte.toNat_lt
      have joined : value ||| (byte.toNat % 128) <<< shift = value + 2 ^ shift * (byte.toNat % 128) := by
        rw [Nat.or_comm, ← Nat.shiftLeft_add_eq_or_of_lt below, Nat.shiftLeft_eq, Nat.mul_comm, Nat.add_comm]
      rw [readVarintFrom, readVarint, low, joined]
      by_cases small : byte.toNat < 128
      · rw [if_pos (high.2 small), if_pos small, Nat.mod_eq_of_lt small]
        simp
      · have group : byte.toNat % 128 = byte.toNat - 128 := by
          have := byte.toNat_lt
          omega
        have bound : value + 2 ^ shift * (byte.toNat - 128) < 2 ^ (shift + 7) := by
          have := Nat.mul_le_mul_left (2 ^ shift) (show byte.toNat - 128 ≤ 127 by omega)
          rw [Nat.pow_add]
          omega
        rw [if_neg (mt high.1 small), if_neg small, group, ih bound, Option.map_map]
        cases later : readVarint rest with
        | none => simp only [Option.map_none]
        | some found =>
            obtain ⟨used, -, rfl, -⟩ := readVarint_spec later
            simp only [Option.map_some, Function.comp_apply, Option.some.injEq, Prod.mk.injEq]
            constructor
            · rw [Nat.pow_add, Nat.mul_assoc, Nat.add_assoc, ← Nat.mul_add]
            · simp only [length_cons, length_append]
              omega

theorem readVarintAt_eq :
    (readVarintAt buf offset).map (fun found => (found.1, buf.drop found.2)) =
    readVarint (buf.drop offset) := by
  rw [readVarintAt, readVarintFrom_eq (by decide), Option.map_map]
  cases found : readVarint (buf.drop offset) with
  | none => rfl
  | some result =>
      obtain ⟨used, -, same, -⟩ := readVarint_spec found
      have rest : buf.drop (offset + ((buf.drop offset).length - result.2.length)) = result.2 := by
        rw [← drop_drop, same, length_append, Nat.add_sub_cancel, drop_left]
      simp only [Option.map_some, Function.comp_apply, rest, Nat.zero_add, Nat.pow_zero, Nat.one_mul]

theorem readValueAt_eq (wireType offset : Nat) :
    (readValueAt buf wireType offset).map (fun found => (found.1, buf.drop found.2)) =
      readValue wireType (buf.drop offset) := by
  unfold readValueAt
  split
  · rw [readValue, ← readVarintAt_eq]
    cases readVarintAt buf offset <;> rfl
  · simp [readValue]
  · rw [readValue, ← readVarintAt_eq]
    cases readVarintAt buf offset <;> simp
  · simp [readValue]
  · simp [readValue, *]

theorem readFieldAt_eq :
    (readFieldAt buf offset).map (fun found => (found.1, buf.drop found.2)) =
    readField (buf.drop offset) := by
  rw [readField, ← readVarintAt_eq, readFieldAt]
  cases readVarintAt buf offset with
  | none => rfl
  | some found =>
      have number : found.1 >>> 3 = found.1 / 8 := Nat.shiftRight_eq_div_pow _ 3
      have wireType : found.1 &&& 7 = found.1 % 8 := Nat.and_two_pow_sub_one_eq_mod _ 3
      simp only [Option.map_some, Option.bind_some, ← readValueAt_eq, number, wireType, Option.map_map]
      rfl

theorem iterFieldsFrom_eq (fuel offset : Nat) :
    (iterFieldsFrom buf fuel offset).map (fun run => run.1.map Prod.snd) = readAllAux readField fuel
    (buf.drop offset) := by
  induction fuel generalizing offset with
  | zero =>
      by_cases inside : offset < buf.length
      · rw [iterFieldsFrom, if_pos inside, drop_eq_getElem_cons inside]
        rfl
      · rw [iterFieldsFrom, if_neg inside, drop_of_length_le (Nat.le_of_not_lt inside)]
        rfl
  | succ fuel ih =>
      by_cases inside : offset < buf.length
      · rw [iterFieldsFrom, if_pos inside, drop_eq_getElem_cons inside, readAllAux,
          ← drop_eq_getElem_cons inside, ← readFieldAt_eq]
        cases readFieldAt buf offset with
        | none => rfl
        | some found =>
            simp only [Option.map_some, Option.bind_some, ← ih found.2, Option.map_map]
            rfl
      · rw [iterFieldsFrom, if_neg inside, drop_of_length_le (Nat.le_of_not_lt inside)]
        rfl

/-- The two readers yield the same fields. -/
theorem iterFieldsAt_eq : (iterFieldsAt buf).map (fun run => run.1.map Prod.snd) = iterFields buf :=
  iterFieldsFrom_eq buf buf.length 0

end MallocHook
