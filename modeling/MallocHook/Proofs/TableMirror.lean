/-
Module: MallocHook.Proofs.TableMirror
Purpose: The table mirrors the heap and the mappings under any interleaving: the hooked calls over the
  platform are simulated by the custody protocol.
Trusted boundary: none
Main exports: Mirrored, RegistersClear, mirrored_step
-/
import MallocHook.Lib.Custody
import MallocHook.Core.Platform

namespace MallocHook

open List Function Option LiveTable

open Custody (Hold Move Coherent)

/-! ### Operations as parts of the protocol -/

section

variable {θ : Type*}

/-- What a thread is in the middle of while an operation is pending. -/
def Op.hold : Op θ → Hold Pointer PointerInfo
  | .frame (.addBacktrace pointer _ _ _) => .unrecorded pointer
  | .shard (.addEntry pointer _ _ _) => .unrecorded pointer
  | .shard (.restoreEntry pointer _) => .unrecorded pointer
  | .shard (.remap oldPointer newPointer newSize) =>
      .moved oldPointer newPointer fun info => { info with size := newSize }
  | .system (.free pointer) => .unrecorded pointer
  | .system (.realloc pointer _ _) => .unrecorded pointer
  | .system (.munmap addr _ _) => .unrecorded addr
  | _ => .idle

/-- The address at which an operation enters a record. -/
def Op.registers : Op θ → Option Pointer
  | .shard (.addEntry pointer _ _ _) => some pointer
  | .shard (.restoreEntry pointer _) => some pointer
  | .shard (.remap _ newPointer _) => some newPointer
  | _ => none

/-- What a thread is in the middle of. -/
def heldBy : List (Op θ) → Hold Pointer PointerInfo
  | [] => .idle
  | op :: rest => if op.weight = 0 then heldBy rest else op.hold

/-- The old address of a mapping that was moved and whose `Remap` is still to come. -/
def Op.vacated : Op θ → Option Pointer
  | .shard (.remap oldPointer _ _) => some oldPointer
  | _ => none

variable {ops : List (Op θ)}

theorem vacated_of_source {pointer : Pointer} (stale : (heldBy ops).source = some pointer) :
    ∃ op ∈ ops, op.vacated = some pointer := by
  induction ops with
  | nil => cases stale
  | cons op rest ih =>
      rw [heldBy] at stale
      split at stale
      · obtain ⟨other, member, vacated⟩ := ih stale
        exact ⟨other, mem_cons_of_mem op member, vacated⟩
      · refine ⟨op, mem_cons_self, ?_⟩
        unfold Op.hold at stale
        split at stale
        case h_4 => exact stale
        all_goals cases stale

theorem heldBy_weightless_append (light : load Op.weight ops = 0) (rest : List (Op θ)) :
    heldBy (ops ++ rest) = heldBy rest := by
  induction ops with
  | nil => rfl
  | cons op later ih =>
      obtain ⟨here, after⟩ := Nat.add_eq_zero_iff.1 light
      rw [cons_append, heldBy, if_pos here, ih after]

theorem heldBy_of_weightless (light : load Op.weight ops = 0) : heldBy ops = .idle := by
  rw [← append_nil ops, heldBy_weightless_append light, heldBy]

theorem heldBy_append_weightless (ops : List (Op θ)) {rest : List (Op θ)}
    (light : load Op.weight rest = 0) : heldBy (ops ++ rest) = heldBy ops := by
  induction ops with
  | nil => exact heldBy_of_weightless light
  | cons op later ih => rw [cons_append, heldBy, heldBy, ih]

/-- What a pending operation relies on outside. `moving` says whether mappings may be moved at all. -/
def Op.Ready (moving : Prop) (regions : Regions θ) (t : θ) : Op θ → Prop
  | .frame (.addBacktrace pointer _ trackedSize type) | .shard (.addEntry pointer trackedSize _ type) =>
      regions pointer = some ⟨trackedSize, type, t⟩
  | .shard (.internalFree pointer) | .shard (.reallocTake pointer _) | .shard (.munmapTake pointer _)
  | .system (.handOver pointer _) => regions.Owns t pointer
  | .shard (.restoreEntry pointer info) => regions pointer = some ⟨info.size, info.memType, t⟩
  | .shard (.remap oldPointer newPointer newSize) =>
      moving ∧ oldPointer ≠ 0 ∧ newPointer ≠ 0 ∧ newSize ≤ PointerInfo.maxSize
  | .system (.realloc pointer _ previous) | .system (.munmap pointer _ previous) =>
      ∃ info, previous = some info ∧ regions pointer = some ⟨info.size, info.memType, t⟩
  | .system (.mmap _ _ flags fd pendingIoctl) =>
      fd < 0 ∧ hasFlag flags mapAnonymous ∧ pendingIoctl = false
  | .system (.mremap oldAddr oldSize newSize flags _) =>
      moving ∧ oldAddr ≠ 0 ∧ newSize ≤ PointerInfo.maxSize ∧ ¬ hasFlag flags mremapDontunmap ∧
        regions.OwnsMapping t oldAddr oldSize
  | .dma (.takePending _ _ flags fd) => fd < 0 ∧ hasFlag flags mapAnonymous
  | .frame (.removeBacktrace _) | .peak _ | .system (.alloc _ _) | .system (.free _) => True
  | .shard (.remove _) | .system (.ioctl _ _) | .system (.close _) | .dma _ => False

theorem Op.ready_of_weightless (moving : Prop) (regions : Regions θ) (t : θ) {op : Op θ}
    (light : op.weight = 0) : op.Ready moving regions t := by
  unfold Op.weight at light
  split at light
  · exact trivial
  · exact trivial
  · cases light

theorem ready_of_load_eq_zero (moving : Prop) (regions : Regions θ) (t : θ)
    (light : load Op.weight ops = 0) : ∀ op ∈ ops, op.Ready moving regions t :=
  fun op member => Op.ready_of_weightless moving regions t (weightless_of_load light op member)

/-- A pending operation relies only on what its thread owns. -/
theorem Op.Ready.mono {moving : Prop} {regions regions' : Regions θ} {t : θ} {op : Op θ}
    (kept : ∀ pointer region, regions pointer = some region → region.owner = t →
      regions' pointer = some region)
    (ready : op.Ready moving regions t) : op.Ready moving regions' t := by
  have owns : ∀ {pointer}, regions.Owns t pointer → regions'.Owns t pointer := by
    intro pointer owned
    obtain ⟨region, here, isOwner⟩ := map_eq_some_iff.1 owned
    exact map_eq_some_iff.2 ⟨region, kept pointer region here isOwner, isOwner⟩
  cases op with
  | frame op =>
      cases op with
      | addBacktrace => exact kept _ _ ready rfl
      | removeBacktrace => trivial
  | shard op =>
      cases op with
      | addEntry | restoreEntry => exact kept _ _ ready rfl
      | internalFree | reallocTake | munmapTake => exact owns ready
      | remap | remove => exact ready
  | system op =>
      cases op with
      | realloc | munmap =>
          obtain ⟨info, taken, here⟩ := ready
          exact ⟨info, taken, kept _ _ here rfl⟩
      | handOver => exact owns ready
      | mremap oldAddr oldSize newSize flags newAddr =>
          obtain ⟨moves, notNull, fits, unmaps, owned⟩ := ready
          obtain ⟨region, here, described⟩ := map_eq_some_iff.1 owned
          have isOwner : region.owner = t := congrArg Prod.fst described
          exact ⟨moves, notNull, fits, unmaps,
            map_eq_some_iff.2 ⟨region, kept oldAddr region here isOwner, described⟩⟩
      | alloc | free | mmap | ioctl | close => exact ready
  | peak op => trivial
  | dma op => cases op <;> exact ready

/-! ### The protocol state of the hook -/

/-- The part of a record that describes its region. -/
def PointerInfo.seen (info : PointerInfo) : Nat × MemType := (info.size, info.memType)

def Region.seen (region : Region θ) : Nat × MemType := (region.size, region.type)

/-- The regions, the records by address and what the threads hold, as a state of the custody protocol. -/
def custodyOf (regions : Regions θ) (table : Pointer → Option PointerInfo)
    (hold : θ → Hold Pointer PointerInfo) : Custody.State Pointer (Nat × MemType) PointerInfo θ where
  things := Option.map Region.seen ∘ regions
  owner := Option.map Region.owner ∘ regions
  table := table
  hold := hold

section

variable (regions : Regions θ) (table : Pointer → Option PointerInfo) (hold : θ → Hold Pointer PointerInfo)
  (pointer : Pointer)

theorem custodyOf_place (region : Region θ) :
    custodyOf (regions.place pointer region) table hold =
      { custodyOf regions table hold with
        things := update (custodyOf regions table hold).things pointer (some region.seen)
        owner := update (custodyOf regions table hold).owner pointer (some region.owner) } := by
  simp [custodyOf, Regions.place, comp_update]

theorem custodyOf_vacate :
    custodyOf (regions.vacate pointer) table hold =
      { custodyOf regions table hold with
        things := update (custodyOf regions table hold).things pointer none
        owner := update (custodyOf regions table hold).owner pointer none } := by
  simp [custodyOf, Regions.vacate, comp_update]

end

theorem owner_eq_none {regions : Regions θ} {table : Pointer → Option PointerInfo}
    {hold : θ → Hold Pointer PointerInfo} {pointer : Pointer} (free : (regions pointer).isNone) :
    (custodyOf regions table hold).owner pointer = none := by
  simp [custodyOf, isNone_iff_eq_none.1 free]

section

variable [DecidableEq θ] {moving : Prop} {regions regions' : Regions θ} {live live' : LiveTable}
  {hold : θ → Hold Pointer PointerInfo} {t : θ} {answer : Answer} {next : List (Op θ)}

/-- What one operation of a thread does to the protocol, and what it leaves to do. -/
structure Simulates (moving : Prop) (t : θ) (regions regions' : Regions θ) (live live' : LiveTable)
    (hold : θ → Hold Pointer PointerInfo) (next : List (Op θ)) : Prop where
  moves : Move PointerInfo.seen t (custodyOf regions live.find hold)
      (custodyOf regions' live'.find (update hold t (heldBy next))) ∨
    custodyOf regions' live'.find (update hold t (heldBy next)) = custodyOf regions live.find hold
  ready : ∀ op ∈ next, op.Ready moving regions' t
  light : load Op.weight next ≤ 1

variable {pointer : Pointer}

/-- Taking a record out: `InternalFree`, `debug_realloc` and `debug_munmap` before they call on. -/
theorem take_moves (idle : hold t = .idle) (owned : regions.Owns t pointer) :
    Move PointerInfo.seen t (custodyOf regions live.find hold)
      (custodyOf regions (live.takeEntry pointer).2.find (update hold t (.unrecorded pointer))) := by
  rw [find_takeEntry_eq_update]
  exact Move.take (s := custodyOf regions live.find hold) idle owned

omit [DecidableEq θ] in
/-- The record that is taken describes the region. -/
theorem taken_describes (coherent : Coherent PointerInfo.seen (custodyOf regions live.find hold))
    (idle : hold t = .idle) (owned : regions.Owns t pointer) :
    ∃ info, live.find pointer = some info ∧ regions pointer = some ⟨info.size, info.memType, t⟩ := by
  obtain ⟨info, found, shows⟩ := coherent.found idle owned
  obtain ⟨region, here, isOwner⟩ := map_eq_some_iff.1 owned
  refine ⟨info, found, ?_⟩
  have same : region.seen = info.seen := by
    have shows : Option.map Region.seen (regions pointer) = some info.seen := shows
    rwa [here, map_some, Option.some.injEq] at shows
  obtain ⟨size, type⟩ := Prod.mk.inj same
  rw [here, ← size, ← type, ← isOwner]

/-- Entering a record: what `Add` and `RestoreEntry` do in their shard section. -/
theorem record_moves (info : PointerInfo) (held : hold t = .unrecorded pointer)
    (here : regions pointer = some ⟨info.size, info.memType, t⟩)
    (clear : ∀ u ≠ t, (hold u).source ≠ some pointer) :
    Move PointerInfo.seen t (custodyOf regions live.find hold)
      (custodyOf regions (update live.find pointer (some info)) (update hold t .idle)) := by
  refine Move.record (s := custodyOf regions live.find hold) held ?_ fun u => ?_
  · simp [custodyOf, here, Region.seen, PointerInfo.seen]
  · by_cases mine : u = t
    · subst mine
      simp [custodyOf, held]
    · exact clear u mine

/-- Shard sections take and enter records as the protocol does. -/
theorem shard_simulates {op : ShardOp}
    (coherent : Coherent PointerInfo.seen (custodyOf regions live.find hold))
    (held : hold t = (Op.shard op : Op θ).hold) (ready : (Op.shard op).Ready moving regions t)
    (clear : ∀ pointer ∈ (Op.shard op : Op θ).registers, ∀ u ≠ t, (hold u).source ≠ some pointer)
    (executed : op.exec live answer = (live', next)) :
    Simulates moving t regions regions live live' hold next := by
  cases op with
  | addEntry pointer trackedSize hashIndex type =>
      cases executed
      have light : load Op.weight (afterSection _ : List (Op θ)) = 0 :=
        weight_afterSection (live.addSection pointer trackedSize hashIndex type answer.now)
      refine ⟨.inl ?_, ready_of_load_eq_zero moving regions t light, light.le.trans (by decide)⟩
      rw [find_addSection_eq_update, heldBy_of_weightless light]
      exact record_moves ⟨trackedSize, hashIndex, type, answer.now⟩ held ready (clear pointer rfl)
  | restoreEntry pointer info =>
      cases executed
      refine ⟨.inl ?_, by simp, Nat.zero_le 1⟩
      rw [find_restoreEntry_eq_update]
      exact record_moves info held ready (clear pointer rfl)
  | internalFree pointer =>
      obtain ⟨info, found, here⟩ := taken_describes coherent held ready
      simp only [ShardOp.exec, takeEntry_fst, found] at executed
      cases executed
      exact ⟨.inl (take_moves held ready), by simp [Op.Ready], by simp [Op.weight]⟩
  | reallocTake pointer bytes | munmapTake addr size =>
      obtain ⟨info, found, here⟩ := taken_describes coherent held ready
      simp only [ShardOp.exec, takeEntry_fst, found] at executed
      cases executed
      exact ⟨.inl (take_moves held ready), by simp [Op.Ready, here], by simp [Op.weight]⟩
  | remap oldPointer newPointer newSize =>
      obtain ⟨-, oldNotNull, newNotNull, fits⟩ := ready
      obtain ⟨info, found⟩ := coherent.found_stale held
      have found : live.find oldPointer = some info := found
      have remapped : live.remap oldPointer newPointer newSize =
          some (live.rekey info oldPointer newPointer newSize) := by
        rw [LiveTable.remap, if_neg (by simp [oldNotNull, newNotNull, fits]), LiveTable.remapSection,
          found, map_some]
      simp only [ShardOp.exec, remapped] at executed
      cases executed
      have light : load Op.weight (afterSection _ : List (Op θ)) = 0 :=
        weight_afterSection (live.rekey info oldPointer newPointer newSize)
      refine ⟨.inl ?_, ready_of_load_eq_zero moving regions t light, light.le.trans (by decide)⟩
      rw [find_rekey_eq_update, heldBy_of_weightless light]
      exact Move.rekey (s := custodyOf regions live.find hold) held found (clear newPointer rfl)
  | remove pointer => cases ready

/-- A call that fails leaves the protocol where it was. -/
theorem stutter (same : heldBy next = hold t) :
    custodyOf regions live.find (update hold t (heldBy next)) = custodyOf regions live.find hold := by
  rw [same, update_eq_self]

/-- A new region is held by the thread that got it. -/
theorem obtain_moves (idle : hold t = .idle) {size : Nat} {type : MemType}
    (free : (regions pointer).isNone) :
    Move PointerInfo.seen t (custodyOf regions live.find hold)
      (custodyOf (regions.place pointer ⟨size, type, t⟩) live.find
        (update hold t (.unrecorded pointer))) := by
  rw [custodyOf_place]
  exact Move.obtain (s := custodyOf regions live.find hold) idle (owner_eq_none free)

/-- A released region is nobody's. -/
theorem discard_moves (held : hold t = .unrecorded pointer) :
    Move PointerInfo.seen t (custodyOf regions live.find hold)
      (custodyOf (regions.vacate pointer) live.find (update hold t .idle)) := by
  rw [custodyOf_vacate]
  exact Move.discard (s := custodyOf regions live.find hold) held

/-- `realloc` exchanges the block whose record was taken for another one. -/
theorem exchange_moves {source target : Pointer} (held : hold t = .unrecorded source) {size : Nat}
    {type : MemType} (free : target = source ∨ (regions target).isNone) :
    Move PointerInfo.seen t (custodyOf regions live.find hold)
      (custodyOf ((regions.vacate source).place target ⟨size, type, t⟩) live.find
        (update hold t (.unrecorded target))) := by
  rw [custodyOf_place, custodyOf_vacate]
  exact Move.exchange (s := custodyOf regions live.find hold) held (free.imp_right owner_eq_none)

/-- `mremap` moves a mapping and leaves its record behind. -/
theorem move_moves (idle : hold t = .idle) {source target : Pointer} {oldSize newSize : Nat}
    (owned : regions.OwnsMapping t source oldSize) (free : target = source ∨ (regions target).isNone) :
    Move PointerInfo.seen t (custodyOf regions live.find hold)
      (custodyOf ((regions.vacate source).place target ⟨newSize, .mmap, t⟩) live.find
        (update hold t (.moved source target fun info => { info with size := newSize }))) := by
  obtain ⟨region, here, described⟩ := map_eq_some_iff.1 owned
  obtain ⟨isOwner, isMapping, -⟩ : region.owner = t ∧ region.type = .mmap ∧ region.size = oldSize := by
    simpa using described
  rw [custodyOf_place, custodyOf_vacate]
  refine Move.move (s := custodyOf regions live.find hold) idle ?_ (free.imp_right owner_eq_none) ?_
  · simp [custodyOf, here, isOwner]
  · intro info shows
    have same : region.seen = info.seen := by
      simpa [custodyOf, here] using shows
    have type : region.type = info.memType := congrArg Prod.snd same
    simp [PointerInfo.seen, Region.seen, ← type, isMapping]

/-- Another thread becomes the owner. -/
theorem pass_moves (idle : hold t = .idle) {region : Region θ} (here : regions pointer = some region)
    (isOwner : region.owner = t) (heir : θ) :
    Move PointerInfo.seen t (custodyOf regions live.find hold)
      (custodyOf (regions.place pointer { region with owner := heir }) live.find hold) := by
  have same : update (custodyOf regions live.find hold).things pointer (some region.seen) =
      (custodyOf regions live.find hold).things := by
    rw [update_eq_self_iff]
    simp [custodyOf, here]
  rw [custodyOf_place]
  exact same.symm ▸ Move.pass (s := custodyOf regions live.find hold) idle
    (by simp [custodyOf, here, isOwner])

/-- The allocator and the kernel act as the protocol allows, and the calls continue accordingly. -/
theorem system_simulates {config : Config} (tracking : config.trackPointers = true) {op : SystemOp θ}
    (held : hold t = (Op.system op).hold) (ready : (Op.system op).Ready moving regions t)
    (answered : regions.answer t op answer = some regions') :
    Simulates moving t regions regions' live live hold (op.next config answer) := by
  cases op
  all_goals simp only [Regions.answer] at answered
  case alloc routine size =>
    split at answered
    · next succeeded =>
        split at answered <;> cases answered
        next free =>
          simp only [SystemOp.next, succeeded, tracking, Bool.and_self, if_true]
          exact ⟨.inl (obtain_moves held free), by simp [Op.add, Op.Ready, Regions.place],
            by simp [Op.add, Op.weight]⟩
    · next failed =>
        cases answered
        simp only [SystemOp.next, failed, Bool.false_and, Bool.false_eq_true, if_false]
        exact ⟨.inr (stutter held.symm), by simp, Nat.zero_le 1⟩
  case free pointer =>
    cases answered
    exact ⟨.inl (discard_moves held), by simp [SystemOp.next], Nat.zero_le 1⟩
  case realloc pointer bytes previous =>
    obtain ⟨info, rfl, here⟩ := ready
    split at answered
    · next failed =>
        cases answered
        simp only [SystemOp.next, failed, if_true, elim_some]
        exact ⟨.inr (stutter held.symm), by simp [Op.Ready, here], by simp [Op.weight]⟩
    · next succeeded =>
        obtain ⟨free, rfl⟩ := Regions.relocate_eq_some answered
        simp only [SystemOp.next, succeeded, if_false, tracking, if_true, elim_some]
        exact ⟨.inl (exchange_moves held free), by simp [Op.add, Op.Ready, Regions.place],
          by simp [Op.add, Op.weight]⟩
  case mmap addr size flags fd pendingIoctl =>
    obtain ⟨noFd, isAnonymous, rfl⟩ := ready
    split at answered
    · next failed =>
        cases answered
        simp only [SystemOp.next, tracking, failed, classifyMmap, if_true, Bool.not_true,
          Bool.false_eq_true, if_false]
        exact ⟨.inr (stutter held.symm), by simp, Nat.zero_le 1⟩
    · next succeeded =>
        split at answered <;> cases answered
        next free =>
          simp only [SystemOp.next, tracking, classifyMmap, succeeded, noFd, isAnonymous,
            and_self, if_true, Bool.not_true, Bool.false_eq_true, if_false]
          exact ⟨.inl (obtain_moves held free.2), by simp [Op.add, Op.Ready, Regions.place],
            by simp [Op.add, Op.weight]⟩
  case munmap addr size previous =>
    obtain ⟨info, rfl, here⟩ := ready
    cases answered
    by_cases succeeded : answer.status = 0
    · simp only [SystemOp.next, succeeded, if_true, elim_some]
      exact ⟨.inl (discard_moves held), by simp [Op.Ready], by simp [Op.weight]⟩
    · simp only [SystemOp.next, succeeded, if_false, elim_some]
      exact ⟨.inr (stutter held.symm), by simp [Op.Ready, here], by simp [Op.weight]⟩
  case mremap oldAddr oldSize newSize flags newAddr =>
    obtain ⟨moves, notNull, fits, unmaps, owned⟩ := ready
    split at answered
    · next failed =>
        cases answered
        simp only [SystemOp.next, mappingSucceeded, failed, bne_self_eq_false, Bool.and_false,
          Bool.false_and, Bool.false_eq_true, if_false]
        exact ⟨.inr (stutter held.symm), by simp, Nat.zero_le 1⟩
    · next succeeded =>
        split at answered
        · cases answered
        · next mapped =>
            obtain ⟨free, rfl⟩ := Regions.relocate_eq_some answered
            have isMapped : mappingSucceeded answer.pointer = true := by
              simp [mappingSucceeded, mapped, succeeded]
            simp only [SystemOp.next, isMapped, tracking, Bool.and_self, if_true, unmaps]
            exact ⟨.inl (move_moves held owned free),
              by simp [Op.Ready, moves, notNull, mapped, fits], by simp [Op.weight]⟩
  case handOver pointer heir =>
    split at answered
    · next region here =>
        split at answered <;> cases answered
        next isOwner =>
          refine ⟨.inl ?_, by simp [SystemOp.next], Nat.zero_le 1⟩
          have idle : heldBy (SystemOp.next config answer (.handOver pointer heir)) = hold t := held.symm
          rw [idle, update_eq_self]
          exact pass_moves held here isOwner heir
    · cases answered
  case ioctl fd request => cases ready
  case close fd => cases ready

omit [DecidableEq θ] in
/-- What a thread owns before the step of another thread, it owns afterwards. -/
theorem region_kept [DecidableEq θ] {table table' : Pointer → Option PointerInfo}
    {hold' : θ → Hold Pointer PointerInfo}
    (coherent : Coherent PointerInfo.seen (custodyOf regions table hold))
    (moves : Move PointerInfo.seen t (custodyOf regions table hold) (custodyOf regions' table' hold') ∨
      custodyOf regions' table' hold' = custodyOf regions table hold) {u : θ} (other : u ≠ t)
    {region : Region θ} (here : regions pointer = some region) (isOwner : region.owner = u) :
    regions' pointer = some region := by
  have owned : (custodyOf regions table hold).owner pointer = some u := by
    simp [custodyOf, here, isOwner]
  have kept : (custodyOf regions' table' hold').owner pointer = some u ∧
      (custodyOf regions' table' hold').things pointer = (custodyOf regions table hold).things pointer := by
    rcases moves with moved | same
    · exact coherent.kept moved other owned
    · rw [same]
      exact ⟨owned, rfl⟩
  obtain ⟨sameOwner, sameThing⟩ := kept
  obtain ⟨region', here', isOwner'⟩ := map_eq_some_iff.1 sameOwner
  have sameSeen : region'.seen = region.seen := by
    simpa [custodyOf, here, here'] using sameThing
  obtain ⟨size, type, owner⟩ := region
  obtain ⟨size', type', owner'⟩ := region'
  obtain ⟨rfl, rfl⟩ := Prod.mk.inj sameSeen
  rw [here']
  simp_all

end

end

/-! ### All interleavings -/

section

variable {τ : Type*} {config : Config} {moving : Prop} {pool pool' : PlatformPool τ}
  {event : HookEvent τ}

/-- The hook over the platform, as a state of the custody protocol. -/
def custody (pool : PlatformPool τ) : Custody.State Pointer (Nat × MemType) PointerInfo (Option τ) :=
  custodyOf pool.shared.world pool.shared.live.find fun t => heldBy (pool.todo t)

/-- What holds between any two steps. -/
structure Mirrored (moving : Prop) (pool : PlatformPool τ) : Prop where
  coherent : Coherent PointerInfo.seen (custody pool)
  ready : ∀ t, ∀ op ∈ pool.todo t, op.Ready moving pool.shared.world t
  single : ∀ t, load Op.weight (pool.todo t) ≤ 1
  unmarked : ∀ t, pool.shared.pendingGpu t = 0
  null : pool.shared.world 0 = none

/-- No thread enters a record where another thread's `mremap` has moved a mapping away and its record has
not followed yet. -/
def RegistersClear (pool : PlatformPool τ) : HookEvent τ → Prop
  | .call _ _ => True
  | .exec t _ => ∀ pointer ∈ (pool.todo t).head?.bind Op.registers,
      ∀ u, u ≠ t → ∀ op ∈ pool.todo u, op.vacated ≠ some pointer

instance [DecidableEq τ] [Fintype τ] (pool : PlatformPool τ) : DecidablePred (RegistersClear pool)
  | .call _ _ => isTrue trivial
  | .exec t _ => Option.decidableForallMem ((pool.todo t).head?.bind Op.registers)

/-- How a call starts: with nothing held and at most one operation, which relies on what it may. -/
structure StartsReady (moving : Prop) (regions : Regions (Option τ)) (t : Option τ)
    (ops : List (Op (Option τ))) : Prop where
  ready : ∀ op ∈ ops, op.Ready moving regions t
  light : load Op.weight ops ≤ 1
  idle : heldBy ops = .idle

variable {t : Option τ} {regions : Regions (Option τ)}

theorem StartsReady.nil : StartsReady moving regions t [] := ⟨by simp, Nat.zero_le 1, rfl⟩

theorem StartsReady.one {op : Op (Option τ)} (weighs : op.weight = 1) (ready : op.Ready moving regions t)
    (idle : op.hold = .idle) : StartsReady moving regions t [op] where
  ready := by simpa using ready
  light := by simp [weighs]
  idle := by rw [heldBy, if_neg (by simp [weighs]), idle]

theorem startAlloc_ready (routine : AllocRoutine) (size : Nat) :
    StartsReady moving regions t (startAlloc routine size) := by
  unfold startAlloc
  split
  · exact .nil
  · exact .one rfl trivial rfl

theorem Regions.OwnsBlock.owns {pointer : Pointer} (owned : regions.OwnsBlock t pointer) :
    regions.Owns t pointer := by
  obtain ⟨region, here, described⟩ := map_eq_some_iff.1 owned
  exact map_eq_some_iff.2 ⟨region, here, congrArg Prod.fst described⟩

theorem Regions.OwnsMapping.owns {pointer : Pointer} {size : Nat}
    (owned : regions.OwnsMapping t pointer size) : regions.Owns t pointer := by
  obtain ⟨region, here, described⟩ := map_eq_some_iff.1 owned
  exact map_eq_some_iff.2 ⟨region, here, congrArg Prod.fst described⟩

/-- A call on own regions starts with an operation that relies on no more than that. -/
theorem startHooked_ready (tracking : config.trackPointers = true) {request : Request (Option τ)}
    (null : regions 0 = none) (own : request.OnOwnRegions regions t)
    (stays : ¬ moving → request.isMremap = false) :
    StartsReady moving regions t (startHooked config request) := by
  cases request with
  | malloc size | memalign alignment size | alignedAlloc alignment size =>
      exact startAlloc_ready _ size
  | calloc nmemb bytes =>
      simp only [startHooked]
      split
      · exact .nil
      · exact .one rfl trivial rfl
  | posixMemalign alignment size =>
      simp only [startHooked]
      split
      · exact .nil
      · exact startAlloc_ready _ size
  | realloc pointer bytes =>
      simp only [startHooked, startRealloc, startFree, tracking, if_true]
      split
      · exact startAlloc_ready _ bytes
      · next notNull =>
          have owned := (own.resolve_left notNull).owns
          split
          · exact .one rfl owned rfl
          · split
            · exact .nil
            · exact .one rfl owned rfl
  | free pointer =>
      simp only [startHooked, startFree, tracking, if_true]
      split
      · exact .nil
      · next notNull => exact .one rfl (own.resolve_left notNull).owns rfl
  | mmap addr size flags fd =>
      have noTransaction : (decide (fd ≥ 0) && hasFlag flags mapShared) = false := by
        simp [Int32.not_le.2 own.1]
      simp only [startHooked, noTransaction, inFdTransaction]
      exact .one rfl own rfl
  | munmap addr size =>
      simp only [startHooked, tracking, if_true]
      exact .one rfl own.owns rfl
  | mremap oldAddr oldSize newSize flags newAddr =>
      simp only [startHooked]
      split
      · exact .nil
      · next fits =>
          have moves : moving := by
            by_contra fixed
            cases stays fixed
          have notNull : oldAddr ≠ 0 := by
            rintro rfl
            have owned := own.1
            rw [Regions.OwnsMapping, null] at owned
            cases owned
          exact .one rfl ⟨moves, notNull, Nat.le_of_not_lt fits, own.2, own.1⟩ rfl
  | handOver pointer heir => exact .one rfl own rfl
  | sample sample =>
      exact ⟨by simp [startHooked, Op.Ready], Nat.zero_le 1, rfl⟩
  | ioctl fd request => cases own
  | close fd => cases own

variable [DecidableEq τ]

theorem mirrored_init :
    Mirrored moving (onPlatform config : Machine (PlatformPool τ) (HookEvent τ)).init where
  coherent := by
    constructor <;>
      simp [custody, custodyOf, hooked, Code.machine, Hook.initial, platform, heldBy]
  ready t op member := by cases member
  single t := Nat.zero_le 1
  unmarked t := rfl
  null := rfl

variable (tracking : config.trackPointers = true) (mirrored : Mirrored moving pool)
include tracking mirrored

/-- An operation that bears on a region does what the protocol allows. -/
theorem exec_simulates {op : Op (Option τ)} {rest : List (Op (Option τ))}
    (pending : pool.todo t = op :: rest) (heavy : op.weight ≠ 0) {answer : Answer}
    (clear : RegistersClear pool (.exec t answer)) {hook' : Hook (Option τ) (Regions (Option τ))}
    {next : List (Op (Option τ))}
    (executed : execOp config platform t pool.shared op answer = some (hook', next)) :
    Simulates moving t pool.shared.world hook'.world pool.shared.live hook'.live
        (fun u => heldBy (pool.todo u)) next ∧
      (∀ u, hook'.pendingGpu u = 0) ∧ hook'.world 0 = none := by
  have held : heldBy (pool.todo t) = op.hold := by rw [pending, heldBy, if_neg heavy]
  have ready : op.Ready moving pool.shared.world t :=
    mirrored.ready t op (by rw [pending]; exact mem_cons_self)
  rcases execOp_cases executed with
    ⟨frameOp, rfl, framed⟩ | ⟨shardOp, live', rfl, -, sharded, rfl⟩ |
      ⟨systemOp, world, rfl, answered, rfl, rfl⟩ | ⟨peakOp, rfl, -⟩ | ⟨dmaOp, rfl, dmaExecuted⟩
  · cases frameOp with
    | addBacktrace pointer pointerSize trackedSize type =>
        cases framed
        have returned := pool.shared.stackTable.addBacktrace_index config pointerSize answer.stack
        refine ⟨⟨.inr ?_, ?_, ?_⟩, mirrored.unmarked, mirrored.null⟩
        · exact stutter (by simp [FrameOp.exec, Nat.ne_of_gt returned, heldBy, Op.weight, held, Op.hold])
        · simpa [FrameOp.exec, Nat.ne_of_gt returned, Op.Ready] using ready
        · simp [FrameOp.exec, Nat.ne_of_gt returned, Op.weight]
    | removeBacktrace hashIndex => exact absurd rfl heavy
  · refine ⟨shard_simulates mirrored.coherent held ready ?_ sharded, mirrored.unmarked, mirrored.null⟩
    intro pointer registers u other stale
    obtain ⟨op, member, vacated⟩ := vacated_of_source stale
    exact clear pointer (by simpa [pending] using registers) u other op member vacated
  · exact ⟨system_simulates tracking held ready answered, mirrored.unmarked,
      Regions.answer_null mirrored.null answered⟩
  · exact absurd rfl heavy
  · cases dmaOp with
    | takePending addr size flags fd =>
        -- The thread has no request pending, and `unmarked` stays as it is.
        have unmarked : update pool.shared.pendingGpu t 0 = pool.shared.pendingGpu := by
          rw [update_eq_self_iff, mirrored.unmarked]
        simp only [Hook.execDma, unmarked, mirrored.unmarked] at dmaExecuted
        cases dmaExecuted
        refine ⟨?_, mirrored.unmarked, mirrored.null⟩
        split
        · exact ⟨.inr (stutter held.symm), by simp, Nat.zero_le 1⟩
        · exact ⟨.inr (stutter held.symm), by simpa [Op.Ready] using ready, by simp [Op.weight]⟩
    | _ => cases ready

/-- A call that starts holds nothing yet. -/
theorem mirrored_call {request : Request (Option τ)} {ops : List (Op (Option τ))}
    (own : request.OnOwnRegions pool.shared.world t) (stays : ¬ moving → request.isMremap = false)
    (idle : pool.todo t = []) (started : startCall config t request = some ops) :
    Mirrored moving (pool.setTodo t ops) ∧ custody (pool.setTodo t ops) = custody pool := by
  have starts : StartsReady moving pool.shared.world t ops :=
    startHooked_of_startCall started ▸ startHooked_ready tracking mirrored.null own stays
  have sameHold : ∀ u, heldBy (update pool.todo t ops u) = heldBy (pool.todo u) := by
    refine (forall_update_iff pool.todo fun u ops => heldBy ops = heldBy (pool.todo u)).2
      ⟨?_, fun u _ => rfl⟩
    rw [starts.idle, idle, heldBy]
  have same : custody (pool.setTodo t ops) = custody pool := by
    simp only [custody, Pool.setTodo, sameHold]
  refine ⟨⟨same ▸ mirrored.coherent, ?_, ?_, mirrored.unmarked, mirrored.null⟩, same⟩
  · exact (forall_update_iff pool.todo fun u ops => ∀ op ∈ ops,
      op.Ready moving pool.shared.world u).2 ⟨starts.ready, fun u _ => mirrored.ready u⟩
  · exact (forall_update_iff pool.todo fun _ ops => load Op.weight ops ≤ 1).2
      ⟨starts.light, fun u _ => mirrored.single u⟩

/-- Every step is a move of the protocol by its thread, or leaves the protocol; and what holds between
steps still holds. -/
theorem mirrored_step (own : OwnCalls pool event) (stays : ¬ moving → NothingMoves event)
    (clear : RegistersClear pool event) (stepped : (onPlatform config).step pool event = some pool') :
    Mirrored moving pool' ∧
      (Move PointerInfo.seen event.thread (custody pool) (custody pool') ∨
      custody pool' = custody pool) := by
  rcases Code.step_call_or_exec stepped with
    ⟨t, request, ops, rfl, idle, started, rfl⟩ | ⟨t, answer, op, rest, hook', next, rfl,
      pending, executed, rfl⟩
  · obtain ⟨after, same⟩ := mirrored_call tracking mirrored own stays idle started
    exact ⟨after, .inr same⟩
  have executed : execOp config platform t pool.shared op answer = some (hook', next) := executed
  have single : op.weight + load Op.weight rest ≤ 1 := by
    have single := mirrored.single t
    rwa [pending, load_cons] at single
  have ready : ∀ other ∈ op :: rest, other.Ready moving pool.shared.world t := pending ▸ mirrored.ready t
  by_cases light : op.weight = 0
  · -- The operation is not the one that carries what the thread holds.
    obtain ⟨sameLive, ⟨-, -, samePending, sameWorld⟩, nextLight⟩ := execOp_weightless light executed
    have sameHold : ∀ u, heldBy (update pool.todo t (next ++ rest) u) =
        heldBy (pool.todo u) := by
      refine (forall_update_iff pool.todo fun u ops => heldBy ops = heldBy (pool.todo u)).2
        ⟨?_, fun u _ => rfl⟩
      rw [heldBy_weightless_append nextLight, pending, heldBy, if_pos light]
    have same : custody { shared := hook', todo := update pool.todo t (next ++ rest) } =
        custody pool := by
      simp only [custody, sameHold, sameWorld, sameLive]
    refine ⟨⟨same ▸ mirrored.coherent, ?_, ?_, samePending ▸ mirrored.unmarked, sameWorld ▸ mirrored.null⟩,
      .inr same⟩
    · rw [sameWorld]
      refine (forall_update_iff pool.todo fun u ops => ∀ op ∈ ops,
        op.Ready moving pool.shared.world u).2 ⟨?_, fun u _ => mirrored.ready u⟩
      exact forall_mem_append.2 ⟨ready_of_load_eq_zero moving _ t nextLight, (forall_mem_cons.1 ready).2⟩
    · refine (forall_update_iff pool.todo fun _ ops => load Op.weight ops ≤ 1).2
        ⟨?_, fun u _ => mirrored.single u⟩
      rw [load_append, nextLight]
      omega
  · -- The rest of the call no longer bears on a region.
    have restLight : load Op.weight rest = 0 := by omega
    obtain ⟨simulates, unmarked, null⟩ := exec_simulates tracking mirrored pending light clear executed
    have hold : (fun u => heldBy (update pool.todo t (next ++ rest) u)) =
        update (fun u => heldBy (pool.todo u)) t (heldBy next) := by
      funext u
      rw [← heldBy_append_weightless next restLight]
      exact apply_update (fun _ => heldBy) pool.todo t (next ++ rest) u
    have moves : Move PointerInfo.seen t (custody pool)
          (custody { shared := hook', todo := update pool.todo t (next ++ rest) }) ∨
        custody { shared := hook', todo := update pool.todo t (next ++ rest) } = custody pool := by
      simp only [custody, hold]
      exact simulates.moves
    refine ⟨⟨?_, ?_, ?_, unmarked, null⟩, moves⟩
    · rcases moves with moved | same
      · exact mirrored.coherent.move moved
      · exact same ▸ mirrored.coherent
    · refine (forall_update_iff pool.todo fun u ops => ∀ op ∈ ops,
        op.Ready moving hook'.world u).2 ⟨?_, fun u other op member => ?_⟩
      · exact forall_mem_append.2 ⟨simulates.ready, ready_of_load_eq_zero moving _ t restLight⟩
      · exact (mirrored.ready u op member).mono fun pointer region here isOwner =>
          region_kept mirrored.coherent simulates.moves other here isOwner
    · refine (forall_update_iff pool.todo fun _ ops => load Op.weight ops ≤ 1).2
        ⟨?_, fun u _ => mirrored.single u⟩
      rw [load_append, restLight]
      exact simulates.light

end

end MallocHook
