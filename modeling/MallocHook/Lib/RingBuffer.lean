/-
Module: MallocHook.Lib.RingBuffer
Purpose: A bounded first-in first-out queue in a fixed array. `toList` is the queue in order.
Trusted boundary: none
Main exports: RingBuffer, RingBuffer.push, RingBuffer.front
-/
import Mathlib.Data.Nat.ModEq

/-- A queue in an array of `capacity` slots. Slots outside the queue hold whatever they held. -/
structure RingBuffer (α : Type*) (capacity : Nat) where
  slots : Fin capacity → α
  head : Fin capacity
  size : Nat
  fits : size ≤ capacity

namespace RingBuffer

open List

variable {α : Type*} {capacity : Nat}

/-- The empty queue, every slot with its initial value. -/
def empty [NeZero capacity] (initial : α) : RingBuffer α capacity where
  slots := fun _ => initial
  head := ⟨0, Nat.pos_of_ne_zero (NeZero.ne capacity)⟩
  size := 0
  fits := Nat.zero_le _

variable (buffer : RingBuffer α capacity)

/-- The slot that many places after the oldest element, wrapping around. -/
def index (offset : Nat) : Fin capacity :=
  ⟨(buffer.head + offset) % capacity, Nat.mod_lt _ buffer.head.pos⟩

/-- The elements, oldest first. -/
def toList : List α := (List.range buffer.size).map fun offset => buffer.slots (buffer.index offset)

def push (room : buffer.size ≠ capacity) (element : α) : RingBuffer α capacity where
  slots := Function.update buffer.slots (buffer.index buffer.size) element
  head := buffer.head
  size := buffer.size + 1
  fits := Nat.lt_of_le_of_ne buffer.fits room

def front : α := buffer.slots buffer.head

def pop : RingBuffer α capacity where
  slots := buffer.slots
  head := buffer.index 1
  size := buffer.size - 1
  fits := Nat.le_trans (Nat.sub_le _ _) buffer.fits

@[simp] theorem length_toList : buffer.toList.length = buffer.size := by simp [toList]

theorem toList_eq_nil : buffer.toList = [] ↔ buffer.size = 0 := by
  rw [← length_eq_zero_iff, length_toList]

/-- Slots at different places of the queue are different. -/
theorem index_ne {first second : Nat} (earlier : first < second) (within : second < capacity) :
    buffer.index first ≠ buffer.index second := by
  intro same
  have congruent : first ≡ second [MOD capacity] :=
    Nat.ModEq.add_left_cancel' buffer.head (congrArg Fin.val same)
  exact Nat.ne_of_lt earlier (congruent.eq_of_lt_of_lt (by omega) within)

theorem toList_push (room : buffer.size ≠ capacity) (element : α) :
    (buffer.push room element).toList = buffer.toList ++ [element] := by
  have within : buffer.size < capacity := Nat.lt_of_le_of_ne buffer.fits room
  have kept : ∀ offset ∈ List.range buffer.size,
      (buffer.push room element).slots (buffer.index offset) = buffer.slots (buffer.index offset) := by
    intro offset member
    exact Function.update_of_ne (buffer.index_ne (mem_range.1 member) within) ..
  have placed : (buffer.push room element).slots (buffer.index buffer.size) = element :=
    Function.update_self ..
  calc (buffer.push room element).toList
      = (List.range (buffer.size + 1)).map fun offset =>
        (buffer.push room element).slots (buffer.index offset) := rfl
    _ = buffer.toList ++ [element] := by
        rw [range_succ, map_append, map_congr_left kept, map_singleton, placed]
        rfl

theorem toList_pop (nonempty : buffer.size ≠ 0) : buffer.toList = buffer.front :: buffer.pop.toList := by
  obtain ⟨size, isSucc⟩ := Nat.exists_eq_succ_of_ne_zero nonempty
  have first : buffer.index 0 = buffer.head := Fin.ext (by simp [index, Nat.mod_eq_of_lt buffer.head.isLt])
  have shifted : ∀ offset, buffer.index (offset + 1) = buffer.pop.index offset := by
    intro offset
    refine Fin.ext ?_
    simp only [index, pop, Nat.mod_add_mod]
    congr 1
    omega
  have popped : buffer.pop.size = size := by simp [pop, isSucc]
  unfold toList
  rw [isSucc, range_succ_eq_map, map_cons, map_map, popped, first]
  refine congrArg (buffer.front :: ·) (map_congr_left fun offset _ => ?_)
  exact congrArg buffer.slots (shifted offset)

end RingBuffer
