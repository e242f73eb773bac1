/-
Module: MallocHook.Proofs.Accounting
Purpose: What the counters beside the live table say about it. A counter moves exactly as the sum of the
  entries it counts, and only `RestoreEntry` can lift it above its peak.
Trusted boundary: none
Main exports: PeaksCover, peaks_cover_iff_restores_fit
-/
import Mathlib.Algebra.Order.BigOperators.Group.Finset
import MallocHook.Core.Report
import MallocHook.Core.TrackerClients

namespace MallocHook

open List Option LiveTable

/-- The counters kept beside the table. -/
inductive Counter where
  | used
  | host
  | dma
deriving DecidableEq, Repr

/-- Whether a counter counts entries of a memory type. -/
def Counter.counts : Counter → MemType → Bool
  | .used, _ => true
  | .host, type => type != .dma
  | .dma, type => type == .dma

/-- What an entry contributes to a counter. -/
def Counter.bytesOf (c : Counter) (info : PointerInfo) : Int :=
  if c.counts info.memType then info.size else 0

theorem Counter.bytesOf_nonneg (c : Counter) (info : PointerInfo) : 0 ≤ c.bytesOf info := by
  unfold bytesOf
  split <;> omega

theorem Counter.elim_bytesOf_nonneg (c : Counter) (info : Option PointerInfo) :
    0 ≤ info.elim 0 c.bytesOf := by
  cases info with
  | none => exact Int.le_refl _
  | some info => exact c.bytesOf_nonneg info

namespace LiveTable

variable (table : LiveTable) (pointer : Pointer) (c : Counter)

def counter : Counter → Int
  | .used => table.currentUsed
  | .host => table.currentHost
  | .dma => table.currentDma

def peakOf : Counter → Int
  | .used => table.peakTot
  | .host => table.peakHost
  | .dma => table.peakDma

/-! ### Counters after each piece -/

variable (info : PointerInfo)

@[simp] theorem counter_store : (table.store pointer info).counter c = table.counter c := by
  cases c <;> rfl

@[simp] theorem counter_erase : (table.erase pointer).counter c = table.counter c := by
  cases c <;> rfl

@[simp] theorem counter_markPointerFilter :
    (table.markPointerFilter pointer).counter c = table.counter c := by
  cases c <;> rfl

variable (type : MemType)

@[simp] theorem counter_charge (bytes : Int) :
    (table.charge type bytes).counter c = table.counter c + if c.counts type then bytes else 0 := by
  cases c <;> cases type <;> simp [counter, charge, Counter.counts]

@[simp] theorem counter_raiseTypePeak : (table.raiseTypePeak type).counter c = table.counter c := by
  cases c <;> cases type <;> rfl

@[simp] theorem counter_raiseTotalPeak : table.raiseTotalPeak.counter c = table.counter c := by
  cases c <;> rfl

@[simp] theorem counter_resize (oldSize newSize : Nat) :
    (table.resize type oldSize newSize).counter c =
      table.counter c + if c.counts type then (newSize : Int) - oldSize else 0 := by
  unfold resize
  split
  · rw [counter_raiseTypePeak, counter_charge]
    split <;> omega
  · rw [counter_charge]
    split <;> omega

theorem counter_detach :
    (table.detach pointer).2.counter c = table.counter c - (table.find pointer).elim 0 c.bytesOf := by
  unfold detach
  split
  · next absent => simp [absent]
  · next info found =>
      rw [counter_erase, counter_charge, found, elim_some, Counter.bytesOf]
      split <;> omega

theorem counter_takeEntry :
    (table.takeEntry pointer).2.counter c = table.counter c - (table.find pointer).elim 0 c.bytesOf :=
  table.counter_detach pointer c

theorem counter_restoreEntry :
    (table.restoreEntry pointer info).counter c = table.counter c + c.bytesOf info := by
  simp [restoreEntry, Counter.bytesOf]

theorem counter_addSection (trackedSize hashIndex : Nat) (type : MemType) (now : Timeval) :
    (table.addSection pointer trackedSize hashIndex type now).table.counter c =
      table.counter c - (table.find pointer).elim 0 c.bytesOf + c.bytesOf
      ⟨trackedSize, hashIndex, type, now⟩ := by
  simp [addSection, counter_detach, Counter.bytesOf]

theorem counter_rekey (oldPointer newPointer : Pointer) (newSize : Nat) :
    (table.rekey info oldPointer newPointer newSize).table.counter c =
      table.counter c - c.bytesOf info -
        (table.rekey info oldPointer newPointer newSize).displaced.elim 0 c.bytesOf +
        c.bytesOf { info with size := newSize } := by
  have displaced : (table.rekey info oldPointer newPointer newSize).displaced =
      (table.erase oldPointer).find newPointer := detach_fst _ _
  rw [displaced]
  simp only [rekey, counter_markPointerFilter, counter_raiseTotalPeak, counter_resize, counter_store,
    counter_detach, counter_erase, Counter.bytesOf]
  split <;> omega

/-! ### Peaks after each piece -/

theorem raisePeak_fst (peak candidate : Int) : (raisePeak peak candidate).1 = max peak candidate := by
  unfold raisePeak
  split <;> omega

@[simp] theorem peakOf_store : (table.store pointer info).peakOf c = table.peakOf c := by
  cases c <;> rfl

@[simp] theorem peakOf_erase : (table.erase pointer).peakOf c = table.peakOf c := by
  cases c <;> rfl

@[simp] theorem peakOf_markPointerFilter : (table.markPointerFilter pointer).peakOf c = table.peakOf c := by
  cases c <;> rfl

@[simp] theorem peakOf_charge (bytes : Int) : (table.charge type bytes).peakOf c = table.peakOf c := by
  cases c <;> cases type <;> rfl

/-- Raising the peak of a memory type raises the host or the DMA peak. -/
theorem peakOf_raiseTypePeak :
    (table.raiseTypePeak type).peakOf c =
      if c ≠ .used ∧ c.counts type then max (table.peakOf c) (table.counter c)
      else table.peakOf c := by
  cases c <;> cases type <;> simp [raiseTypePeak, peakOf, counter, Counter.counts, raisePeak_fst]

theorem peakOf_raiseTotalPeak :
    table.raiseTotalPeak.peakOf c =
      if c = .used then max (table.peakOf c) (table.counter c) else table.peakOf c := by
  cases c <;> simp [raiseTotalPeak, peakOf, counter, raisePeak_fst]

@[simp] theorem peakOf_detach : (table.detach pointer).2.peakOf c = table.peakOf c := by
  unfold detach
  split <;> simp

@[simp] theorem peakOf_takeEntry : (table.takeEntry pointer).2.peakOf c = table.peakOf c :=
  table.peakOf_detach pointer c

@[simp] theorem peakOf_restoreEntry : (table.restoreEntry pointer info).peakOf c = table.peakOf c := by
  simp [restoreEntry]

/-- `Add` raises the peaks of the counters that count the new entry. -/
theorem peakOf_addSection (trackedSize hashIndex : Nat) (type : MemType) (now : Timeval) :
    (table.addSection pointer trackedSize hashIndex type now).table.peakOf c =
      if c.counts type then
        max (table.peakOf c) ((table.addSection pointer trackedSize hashIndex type now).table.counter c)
      else table.peakOf c := by
  simp only [addSection, counter_raiseTotalPeak, counter_raiseTypePeak, peakOf_raiseTotalPeak,
    peakOf_raiseTypePeak, peakOf_charge, peakOf_markPointerFilter, peakOf_store, peakOf_detach]
  cases c <;> simp [Counter.counts]

/-- `Remap` raises `peak_tot`, and the peak of the memory type when the record grows. -/
theorem peakOf_rekey (oldPointer newPointer : Pointer) (newSize : Nat) :
    (table.rekey info oldPointer newPointer newSize).table.peakOf c =
      if c = .used ∨ (c.counts info.memType ∧ newSize ≥ info.size) then
        max (table.peakOf c) ((table.rekey info oldPointer newPointer newSize).table.counter c)
      else table.peakOf c := by
  simp only [rekey, resize, counter_markPointerFilter, counter_raiseTotalPeak,
    peakOf_markPointerFilter, peakOf_raiseTotalPeak]
  split_ifs <;> simp_all [peakOf_raiseTypePeak]
  omega

end LiveTable

/-! ### Exactness -/

/-- Each counter is the sum over the entries it counts. -/
def Accounted (live : LiveTable) : Prop := ∀ c : Counter, live.counter c = live.total c.bytesOf

namespace Accounted

variable {live : LiveTable}

theorem empty : Accounted .empty := by
  intro c
  rw [total_empty']
  cases c <;> rfl

variable (accounted : Accounted live)
include accounted

theorem takeEntry (pointer : Pointer) : Accounted (live.takeEntry pointer).2 := fun c => by
  rw [counter_takeEntry, total_takeEntry, accounted]

theorem addSection (pointer : Pointer) (trackedSize hashIndex : Nat) (type : MemType) (now : Timeval) :
    Accounted (live.addSection pointer trackedSize hashIndex type now).table := fun c => by
  rw [counter_addSection, total_addSection, accounted]

theorem rekey {info : PointerInfo} {oldPointer : Pointer} (found : live.find oldPointer = some info)
    (newPointer : Pointer) (newSize : Nat) :
    Accounted (live.rekey info oldPointer newPointer newSize).table := fun c => by
  rw [counter_rekey, live.total_rekey _ _ _ found, accounted]

theorem remap (oldPointer newPointer : Pointer) (newSize : Nat) :
    Accounted ((live.remap oldPointer newPointer newSize).elim live LiveTable.SectionResult.table) := by
  cases remapped : live.remap oldPointer newPointer newSize with
  | none => exact accounted
  | some result =>
      obtain ⟨info, found, -, rfl⟩ := live.remap_eq_some remapped
      exact accounted.rekey found newPointer newSize

/-- A bare assignment is exact when it overwrites nothing. -/
theorem restoreEntry {pointer : Pointer} (info : PointerInfo) (vacant : live.find pointer = none) :
    Accounted (live.restoreEntry pointer info) := fun c => by
  rw [counter_restoreEntry, total_restoreEntry, accounted, vacant, elim_none, Int.sub_zero]

/-- Every memory type counts in exactly one of the two. -/
theorem used_eq_host_add_dma : live.currentUsed = live.currentHost + live.currentDma := by
  have parts : live.total Counter.used.bytesOf =
      live.total Counter.host.bytesOf + live.total Counter.dma.bytesOf := by
    simp only [← sum_entries, ← sum_map_add]
    refine congrArg List.sum (map_congr_left fun entry _ => ?_)
    unfold Counter.bytesOf Counter.counts
    cases entry.2.memType <;> simp
  rw [← accounted, ← accounted, ← accounted] at parts
  exact parts

/-- The total counts every entry with its size. -/
theorem used_eq_sum : live.currentUsed = (live.entries.map fun entry => (entry.2.size : Int)).sum :=
  (accounted .used).trans (live.sum_entries _).symm

end Accounted

section

variable {θ : Type*} [DecidableEq θ] {s s' : Clients θ} {a : TrackerStep θ}

theorem Clients.letGo_eq_some {t : θ} {pointer : Pointer} {info : PointerInfo}
    (letGo : s.letGo t pointer info = some s') :
    ⟨pointer, info⟩ ∈ s.held t ∧ s' = { s with
      held := Function.update s.held t ((s.held t).erase ⟨pointer, info⟩) } := by
  unfold Clients.letGo at letGo
  split at letGo <;> cases letGo
  next holds => exact ⟨holds, rfl⟩

/-- Every section keeps the counters exact, `RestoreEntry` at a vacant address included. -/
theorem accounted_step (accounted : Accounted s.live) (vacant : VacantRestore s a)
    (stepped : clients.step s a = some s') : Accounted s'.live := by
  cases a with
  | add t pointer trackedSize hashIndex type now =>
      cases stepped
      exact accounted.addSection pointer trackedSize hashIndex type now
  | remove t pointer | takeEntry t pointer =>
      cases stepped
      exact accounted.takeEntry pointer
  | restoreEntry t pointer info =>
      obtain ⟨middle, letGo, rfl⟩ := map_eq_some_iff.1 stepped
      obtain ⟨-, rfl⟩ := Clients.letGo_eq_some letGo
      exact accounted.restoreEntry info vacant
  | release t pointer info =>
      obtain ⟨-, rfl⟩ := Clients.letGo_eq_some stepped
      exact accounted
  | remap t oldPointer newPointer newSize =>
      cases stepped
      exact accounted.remap oldPointer newPointer newSize

/-- The counters are exact in every state that interleaved sections reach. -/
theorem accounted_of_reachable (reached : clients.ReachableBy VacantRestore s) : Accounted s.live :=
  reached.invariant Accounted.empty accounted_step

theorem sum_filter_entries (live : LiveTable) (c : Counter) :
    ((live.entries.filter fun entry => c.counts entry.2.memType).map
      fun entry => (entry.2.size : Int)).sum = live.total c.bytesOf := by
  rw [← sum_entries]
  induction live.entries with
  | nil => rfl
  | cons entry rest ih =>
      simp only [map_cons, sum_cons, filter_cons, Counter.bytesOf]
      split
      · rw [map_cons, sum_cons, ih]
        rfl
      · rw [ih, Int.zero_add]
        rfl

/-- In every state that interleaved sections reach, with records restored to vacant addresses, each counter
is the sum of the sizes of the entries it counts, and an address has at most one entry, in its shard. -/
theorem counters_exact (reached : clients.ReachableBy VacantRestore s) :
    s.live.currentUsed = (s.live.entries.map fun entry => (entry.2.size : Int)).sum ∧
      s.live.currentDma = ((s.live.entries.filter fun entry => entry.2.memType == .dma).map
        fun entry => (entry.2.size : Int)).sum ∧
      s.live.currentHost = ((s.live.entries.filter fun entry => entry.2.memType != .dma).map
        fun entry => (entry.2.size : Int)).sum ∧
      (s.live.entries.map Prod.fst).Nodup ∧
      (∀ shard key, key ∈ s.live.shards shard → shard = shardFor key) ∧
      s.live.currentUsed = s.live.currentHost + s.live.currentDma ∧
      0 ≤ s.live.currentUsed ∧ 0 ≤ s.live.currentHost ∧ 0 ≤ s.live.currentDma := by
  have accounted := accounted_of_reachable reached
  have nonneg : ∀ c : Counter, 0 ≤ s.live.counter c := fun c => by
    rw [accounted]
    exact s.live.total_nonneg c.bytesOf_nonneg
  refine ⟨?_, ?_, ?_, s.live.nodup_keys, fun shard key member =>
    (s.live.atHome shard key member).symm, ?_, nonneg .used, nonneg .host, nonneg .dma⟩
  · exact accounted.used_eq_sum
  · exact (accounted .dma).trans (sum_filter_entries s.live .dma).symm
  · exact (accounted .host).trans (sum_filter_entries s.live .host).symm
  · exact accounted.used_eq_host_add_dma

/-- A run in which one thread fails to reallocate a block while the other maps, moves and unmaps. -/
def failedReallocRun : List (TrackerStep Nat) :=
  [.add 0 0x1000 100 2 .host ⟨0, 0⟩, .add 1 0x7000 4096 3 .mmap ⟨0, 0⟩, .takeEntry 0 0x1000,
    .remap 1 0x7000 0x9000 8192, .add 1 5 300 4 .dma ⟨0, 0⟩, .restoreEntry 0 0x1000 ⟨100, 2, .host, ⟨0, 0⟩⟩,
    .remove 1 0x9000]

theorem counters_exact_failedReallocRun :
    ∃ s, clients.run clients.init failedReallocRun = some s ∧ s.live.currentUsed = 400 ∧
      s.live.currentUsed = s.live.currentHost + s.live.currentDma := by
  obtain ⟨s, ran, total⟩ : ∃ s ∈ clients.run clients.init failedReallocRun,
    s.live.currentUsed = 400 := by decide +kernel
  have respects : clients.Respects VacantRestore clients.init failedReallocRun := by decide +kernel
  exact ⟨s, ran, total, (counters_exact (.of_run .init respects ran)).2.2.2.2.2.1⟩

/-! ### Peaks -/

/-- No counter is above its peak. -/
def PeaksCover (live : LiveTable) : Prop := ∀ c : Counter, live.counter c ≤ live.peakOf c

/-- A `RestoreEntry` starts with room for its record under the peaks that count it. -/
def RestoreFits (s : Clients θ) : TrackerStep θ → Prop
  | .restoreEntry _ _ info => ∀ c : Counter, c.counts info.memType →
      s.live.counter c + info.size ≤ s.live.peakOf c
  | _ => True

/-- Nothing is registered or re-keyed while a thread is between a `TakeEntry` and the `RestoreEntry` or
release that settles it. -/
def QuietWhileHeld (s : Clients θ) : TrackerStep θ → Prop
  | .add .. | .remap .. => ∀ t, s.held t = []
  | _ => True

namespace PeaksCover

variable {live : LiveTable} (cover : PeaksCover live)
include cover

theorem takeEntry (pointer : Pointer) : PeaksCover (live.takeEntry pointer).2 := by
  intro c
  have taken := c.elim_bytesOf_nonneg (live.find pointer)
  have before := cover c
  rw [counter_takeEntry, peakOf_takeEntry]
  omega

theorem addSection (pointer : Pointer) (trackedSize hashIndex : Nat) (type : MemType) (now : Timeval) :
    PeaksCover (live.addSection pointer trackedSize hashIndex type now).table := by
  intro c
  rw [peakOf_addSection]
  split
  · exact le_max_right _ _
  · next uncounted =>
      -- The new entry does not count here, so the counter can only have lost a displaced one.
      have displaced := c.elim_bytesOf_nonneg (live.find pointer)
      have before := cover c
      rw [counter_addSection, Counter.bytesOf, if_neg uncounted]
      omega

theorem rekey (info : PointerInfo) (oldPointer newPointer : Pointer) (newSize : Nat) :
    PeaksCover (live.rekey info oldPointer newPointer newSize).table := by
  intro c
  rw [peakOf_rekey]
  split
  · exact le_max_right _ _
  · next unraised =>
      have displaced := c.elim_bytesOf_nonneg (live.rekey info oldPointer newPointer newSize).displaced
      have before := cover c
      rw [counter_rekey]
      simp only [Counter.bytesOf]
      simp only [not_or, not_and] at unraised
      split
      · next counted =>
          have shrinks := unraised.2 counted
          omega
      · omega

theorem remap (oldPointer newPointer : Pointer) (newSize : Nat) :
    PeaksCover ((live.remap oldPointer newPointer newSize).elim live LiveTable.SectionResult.table) := by
  cases remapped : live.remap oldPointer newPointer newSize with
  | none => exact cover
  | some result =>
      obtain ⟨info, -, -, rfl⟩ := live.remap_eq_some remapped
      exact cover.rekey info oldPointer newPointer newSize

theorem restoreEntry_iff (pointer : Pointer) (info : PointerInfo) :
    PeaksCover (live.restoreEntry pointer info) ↔
      ∀ c : Counter, c.counts info.memType → live.counter c + info.size ≤ live.peakOf c := by
  constructor
  · intro covered c counted
    have after := covered c
    rwa [counter_restoreEntry, peakOf_restoreEntry, Counter.bytesOf, if_pos counted] at after
  · intro fits c
    rw [counter_restoreEntry, peakOf_restoreEntry, Counter.bytesOf]
    split
    · next counted => exact fits c counted
    · rw [Int.add_zero]
      exact cover c

end PeaksCover

/-- A section keeps the peaks above the counters exactly if it is not a restore without room. -/
theorem peaksCover_step (cover : PeaksCover s.live) (stepped : clients.step s a = some s') :
    PeaksCover s'.live ↔ RestoreFits s a := by
  cases a with
  | add t pointer trackedSize hashIndex type now =>
      cases stepped
      exact iff_of_true (cover.addSection pointer trackedSize hashIndex type now) trivial
  | remove t pointer | takeEntry t pointer =>
      cases stepped
      exact iff_of_true (cover.takeEntry pointer) trivial
  | restoreEntry t pointer info =>
      obtain ⟨middle, letGo, rfl⟩ := map_eq_some_iff.1 stepped
      obtain ⟨-, rfl⟩ := Clients.letGo_eq_some letGo
      exact cover.restoreEntry_iff pointer info
  | release t pointer info =>
      obtain ⟨-, rfl⟩ := Clients.letGo_eq_some stepped
      exact iff_of_true cover trivial
  | remap t oldPointer newPointer newSize =>
      cases stepped
      exact iff_of_true (cover.remap oldPointer newPointer newSize) trivial

/-- The bytes of a list of taken records that a counter counts. -/
def bytesTaken (c : Counter) (records : List TakenEntry) : Int :=
  (records.map fun record => c.bytesOf record.info).sum

variable (held : θ → List TakenEntry)

/-- The bytes a counter would regain if every taken record were restored. -/
def heldBytes [Fintype θ] (c : Counter) : Int :=
  ∑ t, bytesTaken c (held t)

/-- Counters and taken records together stay under the peaks. -/
def HeldCover [Fintype θ] (s : Clients θ) : Prop :=
  ∀ c : Counter, s.live.counter c + heldBytes s.held c ≤ s.live.peakOf c

omit [DecidableEq θ] in
theorem heldBytes_nonneg [Fintype θ] (c : Counter) : 0 ≤ heldBytes held c := by
  refine Finset.sum_nonneg fun t _ => sum_nonneg fun value member => ?_
  obtain ⟨record, -, rfl⟩ := mem_map.1 member
  exact c.bytesOf_nonneg record.2

omit [DecidableEq θ] in
theorem heldBytes_of_empty [Fintype θ] {held : θ → List TakenEntry}
    (none_held : ∀ t, held t = []) (c : Counter) : heldBytes held c = 0 := by
  simp [heldBytes, bytesTaken, none_held]

theorem heldBytes_update [Fintype θ] (t : θ) (records : List TakenEntry) (c : Counter) :
    heldBytes (Function.update held t records) c + bytesTaken c (held t) =
    heldBytes held c + bytesTaken c records :=
  Ledger.sum_update_add (bytesTaken c) held t records

omit [DecidableEq θ] in
theorem HeldCover.peaksCover [Fintype θ] (cover : HeldCover s) : PeaksCover s.live := fun c =>
  have held := heldBytes_nonneg s.held c
  have fits := cover c
  by omega

/-- Letting a held record go takes its bytes out of the held ones. -/
theorem heldBytes_letGo [Fintype θ] {t : θ} {pointer : Pointer} {info : PointerInfo}
    (letGo : s.letGo t pointer info = some s') (c : Counter) :
    s'.live = s.live ∧ heldBytes s'.held c = heldBytes s.held c - c.bytesOf info := by
  obtain ⟨holds, rfl⟩ := Clients.letGo_eq_some letGo
  have moved := heldBytes_update s.held t ((s.held t).erase ⟨pointer, info⟩) c
  have erased : c.bytesOf info + bytesTaken c ((s.held t).erase ⟨pointer, info⟩) =
      bytesTaken c (s.held t) := sum_map_erase (fun record => c.bytesOf record.info) holds
  exact ⟨rfl, by dsimp only; omega⟩

theorem heldCover_init [Fintype θ] : HeldCover (clients : Machine (Clients θ) (TrackerStep θ)).init := by
  intro c
  have none_held : heldBytes (fun _ : θ => []) c = 0 := heldBytes_of_empty (fun _ => rfl) c
  change _ + heldBytes (fun _ : θ => []) c ≤ _
  rw [none_held]
  cases c <;> exact Int.le_refl 0

/-- As long as nothing is registered while records are held, restoring one fits. -/
theorem heldCover_step [Fintype θ] (cover : HeldCover s) (quiet : QuietWhileHeld s a)
    (stepped : clients.step s a = some s') : HeldCover s' := by
  cases a
  case restoreEntry t pointer info =>
    obtain ⟨middle, letGo, rfl⟩ := map_eq_some_iff.1 stepped
    intro c
    obtain ⟨sameLive, regained⟩ := heldBytes_letGo letGo c
    have before := cover c
    simp only [counter_restoreEntry, peakOf_restoreEntry, sameLive]
    omega
  case release t pointer info =>
    intro c
    obtain ⟨sameLive, dropped⟩ := heldBytes_letGo stepped c
    have before := cover c
    have nonneg := c.bytesOf_nonneg info
    rw [sameLive]
    omega
  all_goals
    cases stepped
    intro c
  case add t pointer trackedSize hashIndex type now =>
    have added := cover.peaksCover.addSection pointer trackedSize hashIndex type now c
    simpa only [heldBytes_of_empty quiet, Int.add_zero] using added
  case remove t pointer =>
    have taken := c.elim_bytesOf_nonneg (s.live.find pointer)
    have before := cover c
    simp only [counter_takeEntry, peakOf_takeEntry]
    omega
  case takeEntry t pointer =>
    -- What the counter loses, the thread now holds.
    have before := cover c
    have moved := heldBytes_update s.held t
      ((s.live.find pointer).elim (s.held t) fun info => ⟨pointer, info⟩ :: s.held t) c
    simp only [counter_takeEntry, peakOf_takeEntry, takeEntry_fst]
    cases found : s.live.find pointer with
    | none =>
        simp only [found, elim_none] at moved ⊢
        omega
    | some info =>
        simp only [found, elim_some] at moved ⊢
        have cons : bytesTaken c (⟨pointer, info⟩ :: s.held t) = c.bytesOf info + bytesTaken c
          (s.held t) := rfl
        omega
  case remap t oldPointer newPointer newSize =>
    have remapped := cover.peaksCover.remap oldPointer newPointer newSize c
    simpa only [heldBytes_of_empty quiet, Int.add_zero] using remapped

/-- The peaks stay above the counters exactly if every `RestoreEntry` starts with room for its record
under them; for instance if nothing is registered after a `TakeEntry` until it is settled. -/
theorem peaks_cover_iff_restores_fit :
    (∀ schedule : List (TrackerStep θ),
      clients.Along (fun s => PeaksCover s.live) clients.init schedule ↔
        clients.Respects RestoreFits clients.init schedule) ∧
      (∀ [Fintype θ] {s : Clients θ}, clients.ReachableBy QuietWhileHeld s → PeaksCover s.live) := by
  refine ⟨fun schedule => ?_, fun reached => ?_⟩
  · refine Machine.along_iff_respects peaksCover_step schedule fun c => ?_
    cases c <;> exact Int.le_refl 0
  · exact HeldCover.peaksCover (reached.invariant heldCover_init heldCover_step)

/-- One thread takes the only record, another registers as much again, and the first restores what it
took. -/
def restoreAfterAddRun : List (TrackerStep Nat) :=
  [.add 0 0x1000 100 2 .host ⟨0, 0⟩, .takeEntry 0 0x1000, .add 1 0x2000 100 2 .host ⟨0, 0⟩,
    .restoreEntry 0 0x1000 ⟨100, 2, .host, ⟨0, 0⟩⟩]

theorem restore_passes_peak :
    ∃ s, clients.run clients.init restoreAfterAddRun = some s ∧
      s.live.currentUsed = 200 ∧ s.live.peakTot = 100 ∧ ¬ PeaksCover s.live := by
  obtain ⟨s, ran, used, peak⟩ : ∃ s ∈ clients.run clients.init restoreAfterAddRun,
      s.live.currentUsed = 200 ∧ s.live.peakTot = 100 := by decide +kernel
  refine ⟨s, ran, used, peak, fun cover => ?_⟩
  have fits : s.live.currentUsed ≤ s.live.peakTot := cover .used
  omega

end

end MallocHook
