/-
Module: MallocHook.Core.LiveTable
Purpose: The live-pointer table of `PointerData`: the 64 shards, the counters and the membership filter.
  Each definition is what one shard section of the source does.
Trusted boundary: translation of backtrace/src/PointerData.cpp
Main exports: PointerInfo, LiveTable, takeEntry, restoreEntry
-/
import MallocHook.Lib.Ledger

namespace MallocHook

open Function

/-- `uintptr_t`, and every `void*` once it is cast to it. -/
abbrev Pointer := UInt64

/-- `UINTPTR_MAX`. -/
def uintptrMax : Pointer := 0xFFFFFFFFFFFFFFFF

/-- Keys are stored mangled so that a scan of the table does not look like live pointers. -/
def manglePointer (pointer : Pointer) : Pointer := pointer ^^^ uintptrMax

def demanglePointer (pointer : Pointer) : Pointer := pointer ^^^ uintptrMax

@[simp] theorem demangle_mangle (pointer : Pointer) : demanglePointer (manglePointer pointer) = pointer := by
  rw [demanglePointer, manglePointer, UInt64.xor_assoc, UInt64.xor_self, UInt64.xor_zero]

@[simp] theorem mangle_demangle (pointer : Pointer) : manglePointer (demanglePointer pointer) = pointer :=
  demangle_mangle pointer

@[simp] theorem manglePointer_inj {p q : Pointer} : manglePointer p = manglePointer q ↔ p = q := by
  constructor
  · intro same
    rw [← demangle_mangle p, same, demangle_mangle]
  · exact congrArg manglePointer

/-- `HashPointer`, the 64-bit mix that spreads aligned pointers over the shards. -/
def hashPointer (pointer : Pointer) : UInt64 :=
  -- The constants stand on the left of the products: unfolding a product recurses on its right
  -- factor, and so stops at an unknown hash instead of counting down from the constant.
  let hash := pointer ^^^ (pointer >>> 33)
  let hash := 0xff51afd7ed558ccd * hash
  let hash := hash ^^^ (hash >>> 33)
  let hash := 0xc4ceb9fe1a85ec53 * hash
  hash ^^^ (hash >>> 33)

def kPointerShards : Nat := 64

/-- Index of the shard a mangled pointer lives in. -/
def shardFor (mangled : Pointer) : Fin kPointerShards :=
  ⟨(hashPointer mangled).toNat % kPointerShards, Nat.mod_lt _ (by decide)⟩

inductive MemType where
  | host
  | mmap
  | dma
deriving DecidableEq, Repr, Inhabited

structure Timeval where
  sec : Int
  usec : Int
deriving DecidableEq, Repr, Inhabited

/-- `PointerInfoType`: the record of one live allocation. -/
structure PointerInfo where
  size : Nat
  hashIndex : Nat
  memType : MemType
  allocTime : Timeval
deriving DecidableEq, Repr, Inhabited

namespace PointerInfo

/-- `size & ~(1U << 31)`. The complement is a 32-bit value that is then widened, so it clears bit 31
and every bit above it. -/
def realSize (info : PointerInfo) : Nat := info.size &&& (2 ^ 32 - 1 - 2 ^ 31)

def maxSize : Nat := 2 ^ 31 - 1

theorem realSize_eq_mod (info : PointerInfo) : info.realSize = info.size % 2 ^ 31 :=
  Nat.and_two_pow_sub_one_eq_mod info.size 31

theorem realSize_le (info : PointerInfo) : info.realSize ≤ info.size := info.realSize_eq_mod ▸ Nat.mod_le _ _

/-- The size of a record reads back as it was exactly up to `MaxSize`. -/
theorem realSize_eq_size {info : PointerInfo} : info.realSize = info.size ↔ info.size ≤ maxSize := by
  rw [realSize_eq_mod, Nat.mod_eq_iff_lt (by decide), maxSize]
  omega

end PointerInfo

/-- Indices below which a record carries no stack. -/
def kBacktraceExitIndex : Nat := 0

def kBacktraceEmptyIndex : Nat := 1

def kPointerFilterWords : Nat := 2 ^ 13

/-- The two filter words, each with its bit, that stand for a pointer. -/
def filterSlots (pointer : Pointer) : List (Fin kPointerFilterWords × UInt64) :=
  let hash := hashPointer pointer
  let one : UInt64 := 1
  [(⟨hash.toNat % kPointerFilterWords, Nat.mod_lt _ (by decide)⟩, one <<< ((hash >>> 16) &&& 63)),
    (⟨(hash >>> 6).toNat % kPointerFilterWords, Nat.mod_lt _ (by decide)⟩, one <<< ((hash >>> 22) &&& 63))]

/-- `shards_`, the atomic counters and `pointer_filter_`. The counters are integers, so that a subtraction
that would wrap shows as a negative value. -/
structure LiveTable where
  shards : Sharded (Fin kPointerShards) Pointer PointerInfo
  atHome : shards.AtHome shardFor
  pointerFilter : Fin kPointerFilterWords → UInt64
  currentUsed : Int
  currentHost : Int
  currentDma : Int
  peakTot : Int
  peakHost : Int
  peakDma : Int

namespace LiveTable

/-- The table as `Initialize` leaves it. -/
def empty : LiveTable where
  shards := fun _ => ∅
  atHome := .empty shardFor
  pointerFilter := fun _ => 0
  currentUsed := 0
  currentHost := 0
  currentDma := 0
  peakTot := 0
  peakHost := 0
  peakDma := 0

/-- The record of a pointer, looked up in the shard `ShardFor` selects for it. -/
def find (table : LiveTable) (pointer : Pointer) : Option PointerInfo :=
  table.shards.find shardFor (manglePointer pointer)

/-- A weight summed over all entries of all shards. -/
def total {M : Type*} [AddCommMonoid M] (weight : PointerInfo → M) (table : LiveTable) : M :=
  table.shards.total weight

/-- `shard.pointers[key] = info` in the shard of the pointer. -/
def store (table : LiveTable) (pointer : Pointer) (info : PointerInfo) : LiveTable :=
  { table with
    shards := table.shards.put shardFor (manglePointer pointer) info
    atHome := table.atHome.put (manglePointer pointer) info }

/-- `shard.pointers.erase(key)` in the shard of the pointer. -/
def erase (table : LiveTable) (pointer : Pointer) : LiveTable :=
  { table with
    shards := table.shards.drop shardFor (manglePointer pointer)
    atHome := table.atHome.drop (manglePointer pointer) }

/-- `current_used` and the counter of the memory type move together. `HOST` and `MMAP` share
`current_host`. -/
def charge (table : LiveTable) (type : MemType) (bytes : Int) : LiveTable :=
  match type with
  | .dma => { table with
      currentUsed := table.currentUsed + bytes
      currentDma := table.currentDma + bytes }
  | .host | .mmap => { table with
      currentUsed := table.currentUsed + bytes
      currentHost := table.currentHost + bytes }

/-- `RaisePeak`: the new maximum, and whether this call installed it. -/
def raisePeak (peak candidate : Int) : Int × Bool :=
  if candidate > peak then (candidate, true) else (peak, false)

/-- Raise the peak of the memory type to its counter. -/
def raiseTypePeak (table : LiveTable) (type : MemType) : LiveTable :=
  match type with
  | .dma => { table with peakDma := (raisePeak table.peakDma table.currentDma).1 }
  | .host | .mmap => { table with peakHost := (raisePeak table.peakHost table.currentHost).1 }

/-- Raise `peak_tot` to `current_used`. -/
def raiseTotalPeak (table : LiveTable) : LiveTable :=
  { table with peakTot := (raisePeak table.peakTot table.currentUsed).1 }

def markPointerFilter (table : LiveTable) (pointer : Pointer) : LiveTable :=
  let mark := fun (words : Fin kPointerFilterWords → UInt64) slot =>
    update words slot.1 (words slot.1 ||| slot.2)
  { table with pointerFilter := (filterSlots pointer).foldl mark table.pointerFilter }

/-- Find a record, reverse its accounting and erase it. -/
def detach (table : LiveTable) (pointer : Pointer) : Option PointerInfo × LiveTable :=
  match table.find pointer with
  | none => (none, table)
  | some info => (some info, (table.charge info.memType (-(info.size : Int))).erase pointer)

/-- `TakeEntry`. -/
def takeEntry (table : LiveTable) (pointer : Pointer) : Option PointerInfo × LiveTable :=
  table.detach pointer

/-- `RestoreEntry`: a bare assignment to the slot, and no peak is raised. -/
def restoreEntry (table : LiveTable) (pointer : Pointer) (info : PointerInfo) : LiveTable :=
  ((table.store pointer info).markPointerFilter pointer).charge info.memType info.size

/-- What `Add` and `Remap` carry out of their section. `moved` is the record `Remap` re-keyed, as it was.
-/
structure SectionResult where
  table : LiveTable
  displaced : Option PointerInfo
  moved : Option PointerInfo
  trackedTotal : Int
  raisedPeak : Bool

/-- `displaced_hash_index`, zero when nothing was displaced. -/
def SectionResult.displacedHashIndex (result : SectionResult) : Nat :=
  result.displaced.elim 0 PointerInfo.hashIndex

/-- The shard section of `Add`. -/
def addSection (table : LiveTable) (pointer : Pointer) (trackedSize hashIndex : Nat)
    (type : MemType) (now : Timeval) : SectionResult :=
  let displaced := table.detach pointer
  let table := displaced.2.store pointer ⟨trackedSize, hashIndex, type, now⟩
  let table := table.markPointerFilter pointer
  let table := table.charge type trackedSize
  let table := table.raiseTypePeak type
  { table := table.raiseTotalPeak
    displaced := displaced.1
    moved := none
    trackedTotal := table.currentUsed
    raisedPeak := (raisePeak table.peakTot table.currentUsed).2 }

/-- The tail of the `Remap` section, once the old slot is empty and the destination cleared. Only growth
raises the peak of the type; `peak_tot` is raised either way. -/
def resize (table : LiveTable) (type : MemType) (oldSize newSize : Nat) : LiveTable :=
  if newSize ≥ oldSize then
    (table.charge type ((newSize - oldSize : Nat) : Int)).raiseTypePeak type
  else
    table.charge type (-((oldSize - newSize : Nat) : Int))

/-- `Remap` past its lookup: move the record `info` found under the old key. -/
def rekey (table : LiveTable) (info : PointerInfo) (oldPointer newPointer : Pointer)
    (newSize : Nat) : SectionResult :=
  let displaced := (table.erase oldPointer).detach newPointer
  let table := displaced.2.store newPointer { info with size := newSize }
  let table := table.resize info.memType info.size newSize
  { table := table.raiseTotalPeak.markPointerFilter newPointer
    displaced := displaced.1
    moved := some info
    trackedTotal := table.currentUsed
    raisedPeak := (raisePeak table.peakTot table.currentUsed).2 }

/-- The two-shard section of `Remap`; `none` when the old pointer carries no record. -/
def remapSection (table : LiveTable) (oldPointer newPointer : Pointer) (newSize : Nat) :
    Option SectionResult :=
  (table.find oldPointer).map fun info => table.rekey info oldPointer newPointer newSize

/-- `Remap` up to the end of its section; `none` when it returns before changing anything. -/
def remap (table : LiveTable) (oldPointer newPointer : Pointer) (newSize : Nat) : Option SectionResult :=
  if oldPointer = 0 ∨ newPointer = 0 ∨ newSize > PointerInfo.maxSize then none
  else table.remapSection oldPointer newPointer newSize

/-! ### What each piece leaves alone -/

variable (table : LiveTable) (pointer : Pointer)

@[simp] theorem charge_shards (type : MemType) (bytes : Int) :
    (table.charge type bytes).shards = table.shards := by
  cases type <;> rfl

@[simp] theorem raiseTypePeak_shards (type : MemType) :
    (table.raiseTypePeak type).shards = table.shards := by
  cases type <;> rfl

@[simp] theorem raiseTotalPeak_shards : table.raiseTotalPeak.shards = table.shards := rfl

@[simp] theorem markPointerFilter_shards : (table.markPointerFilter pointer).shards = table.shards := rfl

@[simp] theorem resize_shards (type : MemType) (oldSize newSize : Nat) :
    (table.resize type oldSize newSize).shards = table.shards := by
  unfold resize
  split <;> simp

theorem find_congr {first second : LiveTable} (same : first.shards = second.shards) :
    first.find pointer = second.find pointer := by
  rw [find, find, same]

theorem total_congr {M : Type*} [AddCommMonoid M] (weight : PointerInfo → M) {first second : LiveTable}
    (same : first.shards = second.shards) : first.total weight = second.total weight := by
  rw [total, total, same]

@[simp] theorem find_empty : empty.find pointer = none := rfl

@[simp] theorem find_store (info : PointerInfo) (other : Pointer) :
    (table.store pointer info).find other = if other = pointer then some info else table.find other := by
  simp [find, store, Sharded.find_put]

variable (other : Pointer)

@[simp] theorem find_erase :
    (table.erase pointer).find other = if other = pointer then none else table.find other := by
  simp [find, erase, Sharded.find_drop]

/-! ### The sections, as seen through `find` -/

theorem detach_fst : (table.detach pointer).1 = table.find pointer := by
  unfold detach
  split <;> simp_all

@[simp] theorem find_detach :
    (table.detach pointer).2.find other = if other = pointer then none else table.find other := by
  unfold detach
  split
  · next absent =>
      split
      · next same => rw [same, absent]
      · rfl
  · rw [find_erase, find_congr other (charge_shards table _ _)]

@[simp] theorem takeEntry_fst : (table.takeEntry pointer).1 = table.find pointer := table.detach_fst pointer

@[simp] theorem find_takeEntry :
    (table.takeEntry pointer).2.find other = if other = pointer then none else table.find other :=
  table.find_detach pointer other

@[simp] theorem find_restoreEntry (info : PointerInfo) (other : Pointer) :
    (table.restoreEntry pointer info).find other =
      if other = pointer then some info else table.find other := by
  unfold restoreEntry
  rw [find_congr other (charge_shards _ _ _), find_congr other (markPointerFilter_shards _ _), find_store]

section

variable (trackedSize hashIndex : Nat) (type : MemType) (now : Timeval)

theorem addSection_shards :
    (table.addSection pointer trackedSize hashIndex type now).table.shards =
      ((table.detach pointer).2.store pointer ⟨trackedSize, hashIndex, type, now⟩).shards := by
  simp [addSection]

@[simp] theorem addSection_displaced :
    (table.addSection pointer trackedSize hashIndex type now).displaced = table.find pointer :=
  table.detach_fst pointer

@[simp] theorem find_addSection :
    (table.addSection pointer trackedSize hashIndex type now).table.find other =
      if other = pointer then some ⟨trackedSize, hashIndex, type, now⟩ else table.find other := by
  rw [find_congr other (table.addSection_shards pointer trackedSize hashIndex type now),
    find_store, find_detach]
  split <;> rfl

end

section

variable (info : PointerInfo) (oldPointer newPointer : Pointer) (newSize : Nat)

@[simp] theorem rekey_moved : (table.rekey info oldPointer newPointer newSize).moved = some info := rfl

@[simp] theorem rekey_displaced :
    (table.rekey info oldPointer newPointer newSize).displaced =
      if newPointer = oldPointer then none else table.find newPointer := by
  rw [← find_erase]
  exact detach_fst _ _

theorem rekey_shards :
    (table.rekey info oldPointer newPointer newSize).table.shards =
      (((table.erase oldPointer).detach newPointer).2.store newPointer
      { info with size := newSize }).shards := by
  simp [rekey]

@[simp] theorem find_rekey :
    (table.rekey info oldPointer newPointer newSize).table.find other =
      if other = newPointer then some { info with size := newSize }
      else if other = oldPointer then none else table.find other := by
  rw [find_congr other (table.rekey_shards info oldPointer newPointer newSize), find_store,
    find_detach, find_erase]
  split <;> rfl

end

/-- A `Remap` that changes anything re-keys the record of the old pointer. -/
theorem remap_eq_some {oldPointer newPointer : Pointer} {newSize : Nat} {result : SectionResult}
    (remapped : table.remap oldPointer newPointer newSize = some result) :
    ∃ info, table.find oldPointer = some info ∧ newSize ≤ PointerInfo.maxSize ∧
      result = table.rekey info oldPointer newPointer newSize := by
  unfold remap at remapped
  split at remapped
  · cases remapped
  · next fits =>
      obtain ⟨info, found, same⟩ := Option.map_eq_some_iff.1 remapped
      exact ⟨info, found, by omega, same.symm⟩

/-! ### When `peak_tot` rises -/

@[simp] theorem charge_peakTot (type : MemType) (bytes : Int) :
    (table.charge type bytes).peakTot = table.peakTot := by
  cases type <;> rfl

@[simp] theorem raiseTypePeak_peakTot (type : MemType) :
    (table.raiseTypePeak type).peakTot = table.peakTot := by
  cases type <;> rfl

@[simp] theorem detach_peakTot : (table.detach pointer).2.peakTot = table.peakTot := by
  unfold detach
  split
  · rfl
  · exact table.charge_peakTot _ _

@[simp] theorem resize_peakTot (type : MemType) (oldSize newSize : Nat) :
    (table.resize type oldSize newSize).peakTot = table.peakTot := by
  unfold resize
  split <;> simp

@[simp] theorem takeEntry_peakTot : (table.takeEntry pointer).2.peakTot = table.peakTot :=
  table.detach_peakTot pointer

@[simp] theorem restoreEntry_peakTot (info : PointerInfo) :
    (table.restoreEntry pointer info).peakTot = table.peakTot :=
  charge_peakTot _ _ _

/-- A section reports that it raised `peak_tot` exactly when it did, and to which total. -/
def SectionResult.Raises (result : SectionResult) (peakTot : Int) : Prop :=
  if result.raisedPeak then peakTot < result.table.peakTot ∧ result.table.peakTot = result.trackedTotal
  else result.table.peakTot = peakTot

theorem raisePeak_cases (peak candidate : Int) :
    if (raisePeak peak candidate).2 then
      peak < (raisePeak peak candidate).1 ∧ (raisePeak peak candidate).1 = candidate
    else (raisePeak peak candidate).1 = peak := by
  unfold raisePeak
  split <;> simp_all

theorem addSection_raises (trackedSize hashIndex : Nat) (type : MemType) (now : Timeval) :
    (table.addSection pointer trackedSize hashIndex type now).Raises table.peakTot := by
  have raises := raisePeak_cases table.peakTot (table.addSection pointer trackedSize hashIndex type
    now).trackedTotal
  unfold SectionResult.Raises
  simpa [addSection, raiseTotalPeak, store, markPointerFilter] using raises

theorem rekey_raises (info : PointerInfo) (oldPointer newPointer : Pointer) (newSize : Nat) :
    (table.rekey info oldPointer newPointer newSize).Raises table.peakTot := by
  have raises := raisePeak_cases table.peakTot (table.rekey info oldPointer newPointer newSize).trackedTotal
  unfold SectionResult.Raises
  simpa [rekey, raiseTotalPeak, store, erase, markPointerFilter] using raises

/-! ### The sections, as changes of the map from addresses to records -/

theorem find_takeEntry_eq_update : (table.takeEntry pointer).2.find = update table.find pointer none := by
  funext other
  rw [find_takeEntry, update_apply]

theorem find_restoreEntry_eq_update (info : PointerInfo) :
    (table.restoreEntry pointer info).find = update table.find pointer (some info) := by
  funext other
  rw [find_restoreEntry, update_apply]

theorem find_addSection_eq_update (trackedSize hashIndex : Nat) (type : MemType) (now : Timeval) :
    (table.addSection pointer trackedSize hashIndex type now).table.find =
      update table.find pointer (some ⟨trackedSize, hashIndex, type, now⟩) := by
  funext other
  rw [find_addSection, update_apply]

theorem find_rekey_eq_update (info : PointerInfo) (oldPointer newPointer : Pointer) (newSize : Nat) :
    (table.rekey info oldPointer newPointer newSize).table.find =
      update (update table.find oldPointer none) newPointer (some { info with size := newSize }) := by
  funext other
  rw [find_rekey, update_apply, update_apply]

/-! ### The sections, as seen through totals -/

section

variable {M : Type*} [AddCommGroup M] (weight : PointerInfo → M)

@[simp] theorem total_empty' : empty.total weight = 0 := Sharded.total_empty weight

theorem total_store (info : PointerInfo) :
    (table.store pointer info).total weight = table.total weight - (table.find pointer).elim 0
    weight + weight info :=
  Sharded.total_put weight (manglePointer pointer) info

theorem total_erase (pointer : Pointer) :
    (table.erase pointer).total weight = table.total weight - (table.find pointer).elim 0 weight :=
  Sharded.total_drop weight (manglePointer pointer)

theorem total_detach :
    (table.detach pointer).2.total weight = table.total weight - (table.find pointer).elim 0 weight := by
  unfold detach
  split
  · next absent => simp [absent]
  · next info found =>
      rw [total_erase, total_congr weight (charge_shards table _ _),
        find_congr pointer (charge_shards table _ _), found]

theorem total_takeEntry :
    (table.takeEntry pointer).2.total weight = table.total weight - (table.find pointer).elim 0 weight :=
  table.total_detach pointer weight

theorem total_restoreEntry (info : PointerInfo) :
    (table.restoreEntry pointer info).total weight =
      table.total weight - (table.find pointer).elim 0 weight + weight info := by
  unfold restoreEntry
  rw [total_congr weight (charge_shards _ _ _), total_congr weight
    (markPointerFilter_shards _ _), total_store]

theorem total_addSection (trackedSize hashIndex : Nat) (type : MemType) (now : Timeval) :
    (table.addSection pointer trackedSize hashIndex type now).table.total weight =
      table.total weight - (table.find pointer).elim 0 weight + weight
      ⟨trackedSize, hashIndex, type, now⟩ := by
  rw [total_congr weight (table.addSection_shards pointer trackedSize hashIndex type now),
    total_store, total_detach, find_detach, if_pos rfl]
  simp

theorem total_rekey {info : PointerInfo} {oldPointer : Pointer} (newPointer : Pointer)
    (newSize : Nat) (found : table.find oldPointer = some info) :
    (table.rekey info oldPointer newPointer newSize).table.total weight =
      table.total weight - weight info -
        (table.rekey info oldPointer newPointer newSize).displaced.elim 0 weight +
        weight { info with size := newSize } := by
  rw [total_congr weight (table.rekey_shards info oldPointer newPointer newSize), total_store,
    total_detach, total_erase, found, find_detach, if_pos rfl, find_erase, rekey_displaced]
  simp

end

end LiveTable

end MallocHook
