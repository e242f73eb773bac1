/-
Module: MallocHook.Proofs.AddressSpace
Purpose: Tracked mapping bytes against the address space: the records tile the mapped pages as long as
  every call acts on whole records.
Trusted boundary: none
Main exports: MappedExactly, mapping_bytes_agree, head_unmap_drops_mapping
-/
import MallocHook.Lib.Tiling
import MallocHook.Core.Pages

namespace MallocHook

open Function Option LiveTable

/-- A range meets no record but one that starts with it and ends within it. -/
def CutsWhole (live : LiveTable) (addr : Pointer) (size : Nat) : Prop :=
  ∀ entry ∈ live.entries,
    Disjoint (pagesOf (demanglePointer entry.1) entry.2.size) (pagesOf addr size) ∨
      demanglePointer entry.1 = addr ∧ entry.2.size ≤ size

instance (live : LiveTable) (addr : Pointer) (size : Nat) : Decidable (CutsWhole live addr size) :=
  inferInstanceAs (Decidable (∀ entry ∈ live.entries, _))

/-- A call acts on whole records: it unmaps or replaces them as a whole, and what it moves or resizes is
recorded with its size. -/
def WholeRecords {θ : Type*} (live : LiveTable) : Request θ → Prop
  | .mmap addr size flags _ => hasFlag flags mapFixed → CutsWhole live addr size
  | .munmap addr size => CutsWhole live addr size
  | .mremap oldAddr oldSize newSize flags newAddr =>
      (¬ hasFlag flags mremapDontunmap → (live.find oldAddr).map PointerInfo.size = some oldSize) ∧
      (hasFlag flags mremapFixed → CutsWhole live newAddr newSize)
  | _ => True

instance {θ : Type*} (live : LiveTable) (request : Request θ) : Decidable (WholeRecords live request) := by
  induction request using Request.casesOn <;> unfold WholeRecords <;> infer_instance

theorem cutsWhole_iff {live : LiveTable} {addr : Pointer} {size : Nat} :
    CutsWhole live addr size ↔ ∀ pointer info, live.find pointer = some info →
      Disjoint (pagesOf pointer info.size) (pagesOf addr size) ∨ pointer = addr ∧ info.size ≤ size := by
  constructor
  · intro cuts pointer info found
    have listed := cuts _ (mem_entries_iff_find.2 found)
    rwa [demangle_mangle] at listed
  · rintro cuts ⟨key, info⟩ listed
    refine cuts (demanglePointer key) info (mem_entries_iff_find.1 ?_)
    rwa [mangle_demangle]

/-- What cuts a table whole still does when a record is gone. -/
theorem CutsWhole.takeEntry {live : LiveTable} {addr : Pointer} {size : Nat}
    (cuts : CutsWhole live addr size) (pointer : Pointer) :
    CutsWhole (live.takeEntry pointer).2 addr size := by
  refine cutsWhole_iff.2 fun other info found => cutsWhole_iff.1 cuts other info ?_
  rw [find_takeEntry] at found
  split at found
  · cases found
  · exact found

/-! ### Records that tile the mapped pages -/

/-- The bytes of all records. -/
def recordedBytes (live : LiveTable) : Int := live.total fun info => (info.size : Int)

/-- The records are page ranges of mappings, tile the mapped pages, and so have as many bytes. -/
structure MappedExactly (live : LiveTable) (pages : Finset Nat) : Prop where
  tiling : Tiling (fun pointer (info : PointerInfo) => pagesOf pointer info.size) live.find pages
  ranges : ∀ pointer info, live.find pointer = some info →
    PageRange pointer info.size ∧ pointer ≠ 0 ∧ info.memType = .mmap
  bytes : recordedBytes live = pageSize * pages.card

namespace MappedExactly

variable {live : LiveTable} {pages : Finset Nat} {pointer : Pointer}

theorem empty : MappedExactly .empty ∅ where
  tiling := Tiling.empty
  ranges pointer info found := by cases found
  bytes := total_empty' _

variable (exactly : MappedExactly live pages)
include exactly

/-- Erasing a record with the pages it stands for. -/
theorem erase {info : PointerInfo} (found : live.find pointer = some info) :
    MappedExactly (live.takeEntry pointer).2 (pages \ pagesOf pointer info.size) where
  tiling := by
    have erased := exactly.tiling.erase found
    rwa [← find_takeEntry_eq_update] at erased
  ranges other info' found' := by
    rw [find_takeEntry] at found'
    split at found'
    · cases found'
    · exact exactly.ranges other info' found'
  bytes := by
    have size : (pageSize * (pagesOf pointer info.size).card : Int) = info.size := by
      exact_mod_cast pagesOf_card (exactly.ranges pointer info found).1
    have card : (pages.card : Int) =
        (pages \ pagesOf pointer info.size).card + (pagesOf pointer info.size).card := by
      exact_mod_cast (exactly.tiling.card_erase found).symm
    have taken : recordedBytes (live.takeEntry pointer).2 = recordedBytes live - info.size := by
      unfold recordedBytes
      rw [total_takeEntry, found, elim_some]
    rw [taken, exactly.bytes, card, mul_add, size, Int.add_sub_cancel]

/-- Cutting a range out of the mapped pages, with the record that starts there. -/
theorem cut {size : Nat} (range : PageRange pointer size) (cuts : CutsWhole live pointer size) :
    MappedExactly (live.takeEntry pointer).2 (pages \ pagesOf pointer size) := by
  have cuts := cutsWhole_iff.1 cuts
  cases found : live.find pointer with
  | none =>
      -- No record starts here, so the range meets none and none is taken.
      have misses : pages \ pagesOf pointer size = pages := by
        refine exactly.tiling.sdiff_of_disjoint fun other info found' => ?_
        refine (cuts other info found').resolve_right ?_
        rintro ⟨rfl, -⟩
        rw [found] at found'
        cases found'
      have same : (live.takeEntry pointer).2 = live := by
        simp [LiveTable.takeEntry, LiveTable.detach, found]
      rwa [misses, same]
  | some info =>
      have misses : ∀ other info', other ≠ pointer → live.find other = some info' →
          Disjoint (pagesOf other info'.size) (pagesOf pointer size) :=
        fun other info' differ found' => (cuts other info' found').resolve_right fun here =>
          differ here.1
      have within : info.size ≤ size := by
        refine ((cuts pointer info found).resolve_left fun disjoint => ?_).2
        exact Finset.disjoint_left.1 disjoint (first_mem_pagesOf (exactly.ranges pointer info found).1)
          (first_mem_pagesOf range)
      rw [exactly.tiling.sdiff_of_whole found (pagesOf_subset pointer within) misses]
      exact exactly.erase found

/-- Entering a record for pages that were free. -/
theorem add (live' : LiveTable) (info : PointerInfo) (range : PageRange pointer info.size)
    (notNull : pointer ≠ 0) (isMapping : info.memType = .mmap)
    (free : Disjoint pages (pagesOf pointer info.size))
    (records : live'.find = update live.find pointer (some info))
    (total : recordedBytes live' = recordedBytes live + info.size) :
    MappedExactly live' (pages ∪ pagesOf pointer info.size) where
  tiling := by
    have absent : live.find pointer = none := by
      cases found : live.find pointer with
      | none => rfl
      | some info' =>
          have first := first_mem_pagesOf (exactly.ranges pointer info' found).1
          exact absurd (first_mem_pagesOf range)
            (Finset.disjoint_left.1 free (exactly.tiling.subset found first))
    rw [records]
    exact exactly.tiling.insert absent free
  ranges other info' found := by
    rw [records] at found
    by_cases here : other = pointer
    · subst here
      rw [update_self] at found
      cases found
      exact ⟨range, notNull, isMapping⟩
    · rw [update_of_ne here] at found
      exact exactly.ranges other info' found
  bytes := by
    have size : (pageSize * (pagesOf pointer info.size).card : Int) = info.size := by
      exact_mod_cast pagesOf_card range
    rw [total, exactly.bytes, Finset.card_union_of_disjoint free, Nat.cast_add, mul_add, size]

/-- A range where nothing is mapped meets no record. -/
theorem cutsWhole_of_disjoint {size : Nat} (free : Disjoint pages (pagesOf pointer size)) :
    CutsWhole live pointer size :=
  cutsWhole_iff.2 fun _ _ found =>
    .inl (Finset.disjoint_of_subset_left (exactly.tiling.subset found) free)

/-- `Add` of a new mapping that replaces, as a whole, what its range held. -/
theorem addSection {size : Nat} (range : PageRange pointer size) (notNull : pointer ≠ 0)
    (cuts : CutsWhole live pointer size) (hashIndex : Nat) (now : Timeval) :
    MappedExactly (live.addSection pointer size hashIndex .mmap now).table
    (pages ∪ pagesOf pointer size) := by
  have records : (live.addSection pointer size hashIndex .mmap now).table.find =
      update (live.takeEntry pointer).2.find pointer (some ⟨size, hashIndex, .mmap, now⟩) := by
    rw [find_addSection_eq_update, find_takeEntry_eq_update, update_idem]
  have total : recordedBytes (live.addSection pointer size hashIndex .mmap now).table =
      recordedBytes (live.takeEntry pointer).2 + size := by
    unfold recordedBytes
    rw [total_addSection, total_takeEntry]
  have added := (exactly.cut range cuts).add _ ⟨size, hashIndex, .mmap, now⟩ range notNull rfl
    Finset.sdiff_disjoint records total
  rwa [Finset.sdiff_union_self_eq_union] at added

/-- `Remap` of a mapping to where it replaces, as a whole, what was there. -/
theorem rekey {target : Pointer} {info : PointerInfo} {newSize : Nat} (found : live.find pointer = some info)
    (range : PageRange target newSize) (notNull : target ≠ 0)
    (cuts : CutsWhole (live.takeEntry pointer).2 target newSize) :
    MappedExactly (live.rekey info pointer target newSize).table
      ((pages \ pagesOf pointer info.size) ∪ pagesOf target newSize) := by
  let vacated := (live.takeEntry pointer).2
  have records : (live.rekey info pointer target newSize).table.find =
      update (vacated.takeEntry target).2.find target (some { info with size := newSize }) := by
    rw [find_rekey_eq_update, find_takeEntry_eq_update, find_takeEntry_eq_update, update_idem]
  have total : recordedBytes (live.rekey info pointer target newSize).table =
      recordedBytes (vacated.takeEntry target).2 + newSize := by
    unfold recordedBytes
    rw [live.total_rekey _ _ _ found, total_takeEntry, total_takeEntry, found,
      rekey_displaced, find_takeEntry, elim_some]
  have cleared : MappedExactly (vacated.takeEntry target).2
      ((pages \ pagesOf pointer info.size) \ pagesOf target newSize) :=
    (exactly.erase found).cut range cuts
  have moved := cleared.add _ { info with size := newSize } range notNull
    (exactly.ranges pointer info found).2.2 Finset.sdiff_disjoint records total
  rwa [Finset.sdiff_union_self_eq_union] at moved

end MappedExactly

/-! ### Calls -/

section

variable {τ : Type*} {config : Config} {t : Option τ}

/-- Between calls: the records tile the mapped pages, and no request is pending. -/
def AgreesWithSpace (hook : Hook (Option τ) (Finset Nat)) : Prop :=
  MappedExactly hook.live hook.world ∧ ∀ t, hook.pendingGpu t = 0

/-- Only the table and the world matter. -/
theorem AgreesWithSpace.of_sameOutside {hook after : Hook (Option τ) (Finset Nat)}
    (same : after.SameOutside hook) (unmarked : ∀ t, hook.pendingGpu t = 0)
    (exactly : MappedExactly after.live hook.world) : AgreesWithSpace after :=
  ⟨same.world.symm ▸ exactly, fun t => by rw [same.pendingGpu, unmarked]⟩

variable [DecidableEq τ]

/-- An `Add` of a mapping that replaces what its range held as a whole. -/
theorem add_agrees (hook : Hook (Option τ) (Finset Nat)) {live : LiveTable} {pages : Finset Nat}
    {pointer : Pointer} {size : Nat} (recorded : hook.live = live)
    (mapped : hook.world = pages ∪ pagesOf pointer size) (unmarked : ∀ t, hook.pendingGpu t = 0)
    (exactly : MappedExactly live pages) (range : PageRange pointer size) (notNull : pointer ≠ 0)
    (cuts : CutsWhole live pointer size) :
    (hookCode config addressSpace).Triple t (fun before => before = hook) [.add pointer size .mmap]
      AgreesWithSpace := by
  refine (add_alone hook pointer size .mmap).imp (fun _ same => same) ?_
  rintro after ⟨hashIndex, now, sameLive, sameOutside⟩
  refine .of_sameOutside sameOutside unmarked ?_
  rw [sameLive, mapped, recorded]
  exact exactly.addSection range notNull cuts hashIndex now

section

variable (tracking : config.trackPointers = true)
include tracking

theorem mmap_agrees {addr : Pointer} {size : Nat} {flags : UInt32} {fd : Fd} (noFd : fd < 0)
    (isAnonymous : hasFlag flags mapAnonymous = true) :
    (hookCode config addressSpace).Triple t
      (fun hook => AgreesWithSpace hook ∧ (hasFlag flags mapFixed → CutsWhole hook.live addr size))
      (startHooked config (.mmap addr size flags fd)) AgreesWithSpace := by
  have noTransaction : (decide (fd ≥ 0) && hasFlag flags mapShared) = false := by
    simp [Int32.not_le.2 noFd]
  simp only [startHooked, noTransaction, inFdTransaction]
  refine dma_alone fun hook answer hook' next holds executed => ?_
  obtain ⟨⟨exactly, unmarked⟩, whole⟩ := holds
  have stillUnmarked : update hook.pendingGpu t 0 = hook.pendingGpu := by
    rw [update_eq_self_iff, unmarked]
  simp only [Hook.execDma, stillUnmarked, unmarked] at executed
  cases executed
  split
  · exact .nil fun after same => same ▸ ⟨exactly, unmarked⟩
  refine system_alone fun before answer world same answered => ?_
  subst same
  obtain ⟨⟨range, notNull, placed, free⟩, ⟨⟩⟩ := ite_none_right_eq_some.1 answered
  have cuts : CutsWhole hook.live answer.pointer size := by
    cases fixed : hasFlag flags mapFixed with
    | true => exact placed fixed ▸ whole fixed
    | false => exact exactly.cutsWhole_of_disjoint (free fixed)
  have succeeded : answer.pointer ≠ mapFailed := by
    intro failed
    rw [failed] at range
    exact absurd range.1 (by decide)
  simp only [SystemOp.next, tracking, classifyMmap, succeeded, noFd, isAnonymous, and_self,
    if_true, Bool.not_true, Bool.false_eq_true, if_false, bne_self_eq_false]
  exact add_agrees _ rfl rfl unmarked exactly range notNull cuts

theorem munmap_agrees {addr : Pointer} {size : Nat} :
    (hookCode config addressSpace).Triple t
      (fun hook => AgreesWithSpace hook ∧ CutsWhole hook.live addr size)
      (startHooked config (.munmap addr size)) AgreesWithSpace := by
  simp only [startHooked, tracking, if_true]
  refine shard_alone fun hook answer holds => ?_
  obtain ⟨⟨exactly, unmarked⟩, cuts⟩ := holds
  refine system_alone fun before answer world same answered => ?_
  subst same
  obtain ⟨⟨succeeded, range⟩, ⟨⟩⟩ := ite_none_right_eq_some.1 answered
  have light : load Op.weight (SystemOp.next config answer
      (.munmap addr size (hook.live.takeEntry addr).1) : List (Op (Option τ))) = 0 := by
    simp only [SystemOp.next, succeeded, if_true]
    cases (hook.live.takeEntry addr).1 <;> rfl
  refine (weightless_alone _ light).imp (fun _ same => same) ?_
  rintro after ⟨sameLive, sameOutside⟩
  refine .of_sameOutside sameOutside unmarked ?_
  rw [sameLive]
  exact exactly.cut range cuts

theorem mremap_agrees {oldAddr newAddr : Pointer} {oldSize newSize : Nat} {flags : UInt32} :
    (hookCode config addressSpace).Triple t
      (fun hook => AgreesWithSpace hook ∧ (¬ hasFlag flags mremapDontunmap → (hook.live.find oldAddr).map
        PointerInfo.size = some oldSize) ∧ (hasFlag flags mremapFixed → CutsWhole hook.live newAddr newSize))
      (startHooked config (.mremap oldAddr oldSize newSize flags newAddr)) AgreesWithSpace := by
  simp only [startHooked]
  split
  · exact .nil fun hook before => before.1
  next fits =>
  refine system_alone fun hook answer world holds answered => ?_
  obtain ⟨⟨exactly, unmarked⟩, recorded, whole⟩ := holds
  obtain ⟨range, notNull, rfl, placed⟩ := addressSpace_mremap answered
  have succeeded : mappingSucceeded answer.pointer = true := by
    have notFailed : answer.pointer ≠ mapFailed := by
      intro failed
      rw [failed] at range
      exact absurd range.1 (by decide)
    simp [mappingSucceeded, notNull, notFailed]
  simp only [SystemOp.next, succeeded, tracking, Bool.and_self, if_true]
  cases unmaps : hasFlag flags mremapDontunmap with
  | true =>
      -- The source stays mapped; the target is a mapping of its own.
      have cuts : CutsWhole hook.live answer.pointer newSize := by
        rcases placed with ⟨fixed, rfl⟩ | ⟨other, -⟩ | free
        · exact whole fixed
        · rw [unmaps] at other
          cases other
        · exact exactly.cutsWhole_of_disjoint free
      exact add_agrees _ rfl rfl unmarked exactly range notNull cuts
  | false =>
      obtain ⟨info, found, rfl⟩ := map_eq_some_iff.1 (recorded (by simp [unmaps]))
      have cuts : CutsWhole (hook.live.takeEntry oldAddr).2 answer.pointer newSize := by
        rcases placed with ⟨fixed, rfl⟩ | ⟨-, free⟩ | free
        · exact (whole fixed).takeEntry oldAddr
        · exact (exactly.erase found).cutsWhole_of_disjoint free
        · exact (exactly.cutsWhole_of_disjoint free).takeEntry oldAddr
      have remapped : hook.live.remap oldAddr answer.pointer newSize =
          some (hook.live.rekey info oldAddr answer.pointer newSize) := by
        rw [LiveTable.remap, if_neg (by simp [(exactly.ranges oldAddr info found).2.1, notNull,
          Nat.le_of_not_lt fits]), LiveTable.remapSection, found, map_some]
      refine (remap_alone _ oldAddr answer.pointer newSize).imp (fun _ same => same) ?_
      rintro after ⟨sameLive, sameOutside⟩
      refine .of_sameOutside sameOutside unmarked ?_
      rw [sameLive, remapped]
      exact exactly.rekey found range notNull cuts

end

/-- In every state that calls acting on whole records reach, the `MMAP` entries have as many bytes as are
mapped. -/
theorem mapping_bytes_agree (tracking : config.trackPointers = true) {hook : Hook (Option τ) (Finset Nat)}
    (reached : (serialHook config addressSpace).ReachableBy
      (fun hook call => MappingCall call.request ∧ WholeRecords hook.live call.request) hook) :
    ((hook.live.entries.filter fun entry => entry.2.memType == .mmap).map
      fun entry => (entry.2.size : Int)).sum = pageSize * hook.world.card := by
  have agrees : AgreesWithSpace hook := by
    refine Code.serial_invariant ⟨MappedExactly.empty, fun _ => rfl⟩ ?_ reached
    rintro before ⟨t, request, answers⟩ ops ⟨isMapping, whole⟩ started
    obtain rfl := startHooked_of_startCall started
    cases request with
    | mmap addr size flags fd =>
        exact (mmap_agrees tracking isMapping.1 isMapping.2).imp
          (fun hook same => same.1 ▸ ⟨same.2, whole⟩) fun _ after => after
    | munmap addr size =>
        exact (munmap_agrees tracking).imp (fun hook same => same.1 ▸ ⟨same.2, whole⟩) fun _ after => after
    | mremap oldAddr oldSize newSize flags newAddr =>
        exact (mremap_agrees tracking).imp (fun hook same => same.1 ▸ ⟨same.2, whole⟩) fun _ after => after
    | _ => cases isMapping
  have onlyMappings : hook.live.entries.filter (fun entry => entry.2.memType == .mmap) =
      hook.live.entries := by
    refine List.filter_eq_self.2 ?_
    rintro ⟨key, info⟩ listed
    rw [← mangle_demangle key, mem_entries_iff_find] at listed
    simp [(agrees.1.ranges _ _ listed).2.2]
  rw [onlyMappings]
  exact (hook.live.sum_entries _).trans agrees.1.bytes

/-- A mapping of two pages, and an `munmap` of the first of them. -/
def headUnmapCalls : List (HookCall Worker) :=
  [⟨some .one, .mmap 0 8192 (0x2 ||| mapAnonymous) (-1),
      [{}, { pointer := 0x10000 }, {}, {}, {}]⟩,
    ⟨some .one, .munmap 0x10000 4096, [{}, {}, {}]⟩]

/-- The second page is still mapped, and no entry is left. -/
theorem head_unmap_drops_mapping :
    ∃ hook, (serialHook trackingConfig addressSpace).run (serialHook trackingConfig addressSpace).init
        headUnmapCalls = some hook ∧
      hook.live.entries = [] ∧ pageSize * hook.world.card = 4096 := by
  obtain ⟨hook, ran, entries, pages⟩ : ∃ hook ∈ (serialHook trackingConfig addressSpace).run
      (serialHook trackingConfig addressSpace).init headUnmapCalls, hook.live.entries = [] ∧
        hook.world.card = 1 := by
    decide +kernel
  exact ⟨hook, ran, entries, by rw [pages]; rfl⟩

/-- A mapping that is moved and grown, and then replaced as a whole by a larger one at its address. -/
def wholeRecordCalls : List (HookCall Worker) :=
  [⟨some .one, .mmap 0 8192 (0x2 ||| mapAnonymous) (-1),
      [{}, { pointer := 0x10000 }, {}, {}, {}]⟩,
    ⟨some .one, .mremap 0x10000 8192 12288 1 0, [{ pointer := 0x20000 }, {}, {}]⟩,
    ⟨some .one, .mmap 0x20000 16384 (0x2 ||| mapFixed ||| mapAnonymous) (-1),
      [{}, { pointer := 0x20000 }, {}, {}, {}]⟩]

theorem mapping_bytes_agree_wholeRecords :
    ∃ hook, (serialHook trackingConfig addressSpace).run (serialHook trackingConfig addressSpace).init
        wholeRecordCalls = some hook ∧ hook.world.card = 4 ∧
      ((hook.live.entries.filter fun entry => entry.2.memType == .mmap).map
        fun entry => (entry.2.size : Int)).sum = pageSize * hook.world.card := by
  obtain ⟨hook, ran, pages⟩ : ∃ hook ∈ (serialHook trackingConfig addressSpace).run
      (serialHook trackingConfig addressSpace).init wholeRecordCalls,
        hook.world.card = 4 := by decide +kernel
  have respects : (serialHook trackingConfig addressSpace).Respects
      (fun hook call => MappingCall call.request ∧ WholeRecords hook.live call.request)
      (serialHook trackingConfig addressSpace).init wholeRecordCalls := by decide +kernel
  exact ⟨hook, ran, pages, mapping_bytes_agree (by decide) (.of_run .init respects ran)⟩

end

end MallocHook
