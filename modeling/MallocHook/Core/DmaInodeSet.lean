/-
Module: MallocHook.Core.DmaInodeSet
Purpose: The set of inodes by which a pass counts each dma-buf once. A new pass empties the table by
  taking the next generation.
Trusted boundary: translation of DmaInodeSet, InsertInode and ResetDmaInodeSet of
  backtrace/src/ObservedMemory.cpp
Main exports: DmaInodeSet, DmaInodeSet.occupant, insertInode
-/
import Mathlib.Algebra.GroupWithZero.Nat
import MallocHook.Lib.ProbeTable

namespace MallocHook

def kSlots : Nat := 4096

def kMaxDedupedBuffers : Nat := kSlots / 2

structure DmaInodeSet where
  inode : Fin kSlots → UInt64
  stamp : Fin kSlots → UInt32
  generation : UInt32
  count : Nat
  overflowed : Bool

namespace DmaInodeSet

/-- The zero-initialised set. -/
def zero : DmaInodeSet := ⟨fun _ => 0, fun _ => 0, 0, 0, false⟩

variable (set : DmaInodeSet)

/-- What a slot holds in this pass: nothing when its stamp is of another generation. -/
def occupant (slot : Fin kSlots) : Option UInt64 :=
  if set.stamp slot = set.generation then some (set.inode slot) else none

/-- The slot at which the probing for an inode starts. -/
def home (inode : UInt64) : Fin kSlots :=
  ⟨((inode * 0x9e3779b97f4a7c15) >>> 40).toNat % kSlots, Nat.mod_lt _ (by decide)⟩

/-- Stamp a slot with the current generation and put an inode in it. -/
def fill (slot : Fin kSlots) (inode : UInt64) : DmaInodeSet :=
  { set with
    stamp := Function.update set.stamp slot set.generation
    inode := Function.update set.inode slot inode
    count := set.count + 1 }

def overflow : DmaInodeSet := { set with overflowed := true }

end DmaInodeSet

/-- `InsertInode`: the answer and the set after it. -/
def insertInode (set : DmaInodeSet) (inode : UInt64) : Bool × DmaInodeSet :=
  if set.count ≥ kMaxDedupedBuffers then (true, set.overflow)
  else
    match ProbeTable.search set.occupant (DmaInodeSet.home inode) inode with
    | none => (true, set.overflow)
    | some steps =>
        let slot := ProbeTable.probe (DmaInodeSet.home inode) steps
        if set.stamp slot ≠ set.generation then (true, set.fill slot inode) else (false, set)

/-- `ResetDmaInodeSet`. -/
def resetDmaInodeSet (set : DmaInodeSet) : DmaInodeSet :=
  if set.generation + 1 = 0 then
    { set with count := 0, overflowed := false, stamp := fun _ => 0, generation := 1 }
  else { set with count := 0, overflowed := false, generation := set.generation + 1 }

variable {set : DmaInodeSet} {inode : UInt64}

theorem DmaInodeSet.occupant_fill (slot : Fin kSlots) :
    (set.fill slot inode).occupant = Function.update set.occupant slot (some inode) := by
  funext other
  by_cases here : other = slot
  · subst here
    simp [DmaInodeSet.occupant, DmaInodeSet.fill]
  · simp [DmaInodeSet.occupant, DmaInodeSet.fill, here]

theorem DmaInodeSet.occupant_eq_none {slot : Fin kSlots} :
    set.occupant slot = none ↔ set.stamp slot ≠ set.generation := by
  simp [DmaInodeSet.occupant]

/-- A full table takes every inode for a new one. -/
theorem insertInode_full (full : kMaxDedupedBuffers ≤ set.count) (inode : UInt64) :
    insertInode set inode = (true, set.overflow) :=
  if_pos full

/-- A search that ends at an empty slot fills it. -/
theorem insertInode_vacant (room : set.count < kMaxDedupedBuffers) {steps : Nat}
    (ends : ProbeTable.search set.occupant (DmaInodeSet.home inode) inode = some steps)
    (vacant : set.occupant (ProbeTable.probe (DmaInodeSet.home inode) steps) = none) :
    insertInode set inode = (true, set.fill (ProbeTable.probe (DmaInodeSet.home inode) steps) inode) := by
  rw [insertInode, if_neg (Nat.not_le.2 room), ends]
  exact if_pos (DmaInodeSet.occupant_eq_none.1 vacant)

/-- A search that ends at the inode changes nothing. -/
theorem insertInode_found (room : set.count < kMaxDedupedBuffers) {steps : Nat}
    (ends : ProbeTable.search set.occupant (DmaInodeSet.home inode) inode = some steps)
    (found : set.occupant (ProbeTable.probe (DmaInodeSet.home inode) steps) = some inode) :
    insertInode set inode = (false, set) := by
  rw [insertInode, if_neg (Nat.not_le.2 room), ends]
  apply if_neg
  rw [← DmaInodeSet.occupant_eq_none, found]
  exact Option.some_ne_none inode

/-- What an insertion can do to the set. -/
theorem insertInode_after (set : DmaInodeSet) (inode : UInt64) :
    (insertInode set inode).2 = set.overflow ∨ (insertInode set inode).2 = set ∨
      ∃ slot, (insertInode set inode).2 = set.fill slot inode := by
  unfold insertInode
  by_cases full : set.count ≥ kMaxDedupedBuffers
  · rw [if_pos full]
    exact .inl rfl
  · rw [if_neg full]
    cases ProbeTable.search set.occupant (DmaInodeSet.home inode) inode with
    | none => exact .inl rfl
    | some steps =>
        by_cases stale : set.stamp (ProbeTable.probe (DmaInodeSet.home inode) steps) ≠ set.generation
        · exact .inr (.inr ⟨_, congrArg Prod.snd (if_pos stale)⟩)
        · exact .inr (.inl (congrArg Prod.snd (if_neg stale)))

/-- An inode that the set does not hold is taken for a new one, whatever state the table is in. -/
theorem insertInode_unseen (unseen : ∀ slot, set.occupant slot ≠ some inode) :
    (insertInode set inode).1 = true := by
  unfold insertInode
  split
  · rfl
  · split
    · rfl
    · next steps ends =>
        obtain ⟨stopped, -⟩ := ProbeTable.search_eq_some.1 ends
        rw [if_pos (DmaInodeSet.occupant_eq_none.1 (stopped.resolve_right (unseen _)))]

end MallocHook
