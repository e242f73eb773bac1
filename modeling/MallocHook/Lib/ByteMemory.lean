/-
Module: MallocHook.Lib.ByteMemory
Purpose: A memory of bytes at 64-bit addresses, with little-endian words. A write leaves reads of words
  apart from its range alone.
Trusted boundary: none
Main exports: ByteMemory, ByteMemory.word, ByteMemory.setWord
-/
import Mathlib.Data.UInt

/-- The contents of the addresses. -/
abbrev ByteMemory := UInt64 → UInt8

namespace ByteMemory

variable (memory : ByteMemory)

/-- A little-endian number of some bytes. -/
def read (address : UInt64) : Nat → Nat
  | 0 => 0
  | bytes + 1 => (memory address).toNat + 256 * read (address + 1) bytes

/-- The word at an address. -/
@[irreducible]
def word (address : UInt64) : UInt64 := UInt64.ofNat (memory.read address 8)

/-- Store a word. -/
def setWord (target value : UInt64) : ByteMemory := fun address =>
  if (address - target).toNat < 8 then UInt8.ofNat (value.toNat / 256 ^ (address - target).toNat)
    else memory address

/-- Store bytes that are read from elsewhere. -/
def copy (target source : UInt64) (length : Nat) : ByteMemory := fun address =>
  if (address - target).toNat < length then memory (source + (address - target)) else memory address

/-- Store the same byte everywhere in a range. -/
def fill (target : UInt64) (length : Nat) (byte : UInt8) : ByteMemory := fun address =>
  if (address - target).toNat < length then byte else memory address

variable {memory memory' memory'' : ByteMemory} {low high : Nat}

/-! ### Addresses -/

theorem toNat_add {address offset : UInt64} (fits : address.toNat + offset.toNat < 2 ^ 64) :
    (address + offset).toNat = address.toNat + offset.toNat := by
  rw [UInt64.toNat_add, Nat.mod_eq_of_lt fits]

/-- An address is in a range that does not wrap if its offset is. -/
theorem offset_lt_iff {address start : UInt64} {length : Nat} (fits : start.toNat + length ≤ 2 ^ 64) :
    (address - start).toNat < length ↔ start.toNat ≤ address.toNat ∧
    address.toNat < start.toNat + length := by
  have := address.toNat_lt
  have := start.toNat_lt
  rw [UInt64.toNat_sub]
  omega

/-! ### What is left alone -/

/-- The memories are the same from `low` up to `high`. -/
def AgreeOn (low high : Nat) (memory memory' : ByteMemory) : Prop :=
  ∀ address, low ≤ address.toNat → address.toNat < high → memory' address = memory address

theorem AgreeOn.trans (first : AgreeOn low high memory memory')
    (second : AgreeOn low high memory' memory'') : AgreeOn low high memory memory'' :=
  fun address above below => (second address above below).trans (first address above below)

theorem AgreeOn.read_eq (agree : AgreeOn low high memory memory') (fits : high ≤ 2 ^ 64) (bytes : Nat)
    {address : UInt64} (above : low ≤ address.toNat) (below : address.toNat + bytes ≤ high) :
    memory'.read address bytes = memory.read address bytes := by
  induction bytes generalizing address with
  | zero => rfl
  | succ bytes ih =>
      rw [read, read, agree address above (by omega)]
      cases bytes with
      | zero => rfl
      | succ bytes =>
          have next : (address + 1).toNat = address.toNat + 1 :=
            toNat_add (show address.toNat + 1 < 2 ^ 64 by omega)
          rw [ih (by omega) (by omega)]

theorem AgreeOn.word_eq (agree : AgreeOn low high memory memory') (fits : high ≤ 2 ^ 64) {address : UInt64}
    (above : low ≤ address.toNat) (below : address.toNat + 8 ≤ high) :
    memory'.word address = memory.word address := by
  rw [word, word, agree.read_eq fits 8 above below]

/-- The memories differ in the range at most. -/
def WritesOnly (target : UInt64) (length : Nat) (memory memory' : ByteMemory) : Prop :=
  ∀ address, ¬(address - target).toNat < length → memory' address = memory address

/-- What lies apart from the range is left alone. -/
theorem WritesOnly.agreeOn {target : UInt64} {length : Nat}
    (writes : WritesOnly target length memory memory') (fits : target.toNat + length ≤ 2 ^ 64)
    (apart : high ≤ target.toNat ∨ target.toNat + length ≤ low) : AgreeOn low high memory memory' := by
  intro address above below
  refine writes address fun inside => ?_
  rw [offset_lt_iff fits] at inside
  omega

theorem setWord_writesOnly (memory : ByteMemory) (target value : UInt64) :
    WritesOnly target 8 memory (memory.setWord target value) :=
  fun _ outside => if_neg outside

theorem copy_writesOnly (memory : ByteMemory) (target source : UInt64) (length : Nat) :
    WritesOnly target length memory (memory.copy target source length) :=
  fun _ outside => if_neg outside

theorem fill_writesOnly (memory : ByteMemory) (target : UInt64) (length : Nat) (byte : UInt8) :
    WritesOnly target length memory (memory.fill target length byte) :=
  fun _ outside => if_neg outside

/-- A word that lies apart from the one that is stored. -/
theorem word_setWord_of_apart {target value address : UInt64} (fits : target.toNat + 8 ≤ 2 ^ 64)
    (fits' : address.toNat + 8 ≤ 2 ^ 64)
    (apart : address.toNat + 8 ≤ target.toNat ∨ target.toNat + 8 ≤ address.toNat) :
    (memory.setWord target value).word address = memory.word address :=
  ((setWord_writesOnly memory target value).agreeOn fits apart).word_eq fits' (Nat.le_refl _) (Nat.le_refl _)

/-! ### What is stored -/

/-- Bytes that are the digits of a number. -/
theorem read_digits {bytes : Nat} {address : UInt64} {value : Nat}
    (digits : ∀ i < bytes, memory (address + UInt64.ofNat i) = UInt8.ofNat (value / 256 ^ i)) :
    memory.read address bytes = value % 256 ^ bytes := by
  induction bytes generalizing address value with
  | zero => rw [Nat.pow_zero, Nat.mod_one, read]
  | succ bytes ih =>
      have first : memory address = UInt8.ofNat value := by
        have here := digits 0 (Nat.succ_pos _)
        rwa [Nat.pow_zero, Nat.div_one, show UInt64.ofNat 0 = 0 from rfl, UInt64.add_zero] at here
      have later : memory.read (address + 1) bytes = value / 256 % 256 ^ bytes := by
        refine ih fun i small => ?_
        have here := digits (i + 1) (Nat.succ_lt_succ small)
        rw [Nat.pow_succ', ← Nat.div_div_eq_div_mul, UInt64.ofNat_add, UInt64.add_comm (UInt64.ofNat i),
          ← UInt64.add_assoc] at here
        exact here
      have byte : (UInt8.ofNat value).toNat = value % 256 := UInt8.toNat_ofNat'
      rw [read, first, later, byte, Nat.pow_succ', Nat.mod_mul]

/-- A word that was stored is read back. -/
theorem word_setWord {target value : UInt64} : (memory.setWord target value).word target = value := by
  have digits : (memory.setWord target value).read target 8 = value.toNat % 256 ^ 8 := by
    refine read_digits fun i small => ?_
    have offset : (target + UInt64.ofNat i - target).toNat = i := by
      rw [UInt64.add_comm, UInt64.add_sub_cancel, UInt64.toNat_ofNat']
      exact Nat.mod_eq_of_lt (by omega)
    rw [setWord, offset, if_pos small]
  rw [word, digits, Nat.mod_eq_of_lt (show value.toNat < 256 ^ 8 from value.toNat_lt), UInt64.ofNat_toNat]

/-- Bytes that were copied from a range that is left alone. -/
theorem copy_apply {target source offset : UInt64} {length : Nat} (small : offset.toNat < length) :
    memory.copy target source length (target + offset) = memory (source + offset) := by
  have cancel : target + offset - target = offset := by rw [UInt64.add_comm, UInt64.add_sub_cancel]
  rw [copy, cancel, if_pos small]

end ByteMemory
