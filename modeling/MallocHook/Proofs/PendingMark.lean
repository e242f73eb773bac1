/-
Module: MallocHook.Proofs.PendingMark
Purpose: The mark that a GPU allocation leaves for the next `mmap` of its thread. A failing `mmap` loses
  it, and with it a dma-buf is recorded a second time.
Trusted boundary: none
Main exports: mark_survives_iff, registered_nonneg, tracked_descriptor_counted_once
-/
import MallocHook.Proofs.FailedCalls

namespace MallocHook

open Option

variable {τ ε : Type*} [DecidableEq τ] {config : Config} {env : Environment (Option τ) ε}

/-! ### Setting the mark -/

/-- The requests that leave a mark are not zero, no ION requests, and open no descriptor transaction. -/
theorem marksPending_cases {request : UInt32} (gpu : DmaRegistry.marksPending request = true) :
    request ≠ 0 ∧ iocType request ≠ ionIocMagic ∧ canRegisterDmaFd request = false := by
  simp only [DmaRegistry.marksPending, Bool.or_eq_true, beq_iff_eq] at gpu
  rcases gpu with (rfl | rfl) | rfl <;> decide +kernel

variable {hook hook' : Hook (Option τ) ε} {answers : List Answer}

/-- A successful GPU allocation leaves its mark with the thread that made it. -/
theorem marked_of_ioctl (tracking : config.trackPointers = true) {t : Option τ} {fd : Fd}
    {request : UInt32} (gpu : DmaRegistry.marksPending request = true)
    (succeeds : CallAnswered config env (fun op answer => !op.failed answer) hook
      ⟨t, .ioctl fd request, answers⟩)
    (stepped : (serialHook config env).step hook ⟨t, .ioctl fd request, answers⟩ = some hook') :
    hook'.pendingGpu t = request := by
  obtain ⟨-, notIon, unregistered⟩ := marksPending_cases gpu
  obtain ⟨ops, started, finished⟩ := bind_eq_some_iff.1 (succeeds.step stepped)
  obtain rfl := startHooked_of_startCall started
  suffices marks : (hookCode config (env.only fun op answer => !op.failed answer)).Triple t
      (fun _ => True) (startHooked config (.ioctl fd request)) (fun after => after.pendingGpu t = request)
    from marks _ _ _ trivial finished
  simp only [startHooked, unregistered, Bool.and_false, inFdTransaction, Bool.false_eq_true, if_false]
  refine system_alone fun before answer world _ answered => ?_
  have status : answer.status = 0 := by
    simpa [SystemOp.failed] using (ite_none_right_eq_some.1 answered).1
  simp only [SystemOp.next, status, tracking, and_self, if_true]
  refine dma_alone fun asking answer' hook next same executed => ?_
  subst same
  have ion : ∀ registry : DmaRegistry, registry.handleIonIoctl fd request answer.arg = (none, registry) := by
    intro registry
    unfold DmaRegistry.handleIonIoctl
    cases answer.arg <;> simp [notIon]
  simp only [Hook.execDma, ion, gpu, DmaRegistry.handleDmaNode, isNone_none, Bool.and_self, if_true,
    or_none] at executed
  cases executed
  refine .nil fun after same => ?_
  subst same
  exact Function.update_self ..

/-! ### Mapping with and without the mark -/

section

/-- The kernel returned `result`. -/
def returns {θ : Type*} (result : Pointer) (_op : SystemOp θ) (answer : Answer) : Bool :=
  answer.pointer == result

variable {t : Option τ} {addr result : Pointer} {size : Nat} {flags : UInt32} {fd : Fd}

/-- A `mmap` of a size the hook takes asks the kernel and goes on with the mark, the table and the
registry found before. -/
theorem mmap_alone (hook : Hook (Option τ) ε) {Q : LiveTable → Prop} (fits : size ≤ PointerInfo.maxSize)
    (leaves : ∀ before answer, before.live = hook.live → before.dma = hook.dma →
      answer.pointer = result → (hookCode config (env.only (returns result))).Triple t
      (fun after => after = before)
        (SystemOp.next config answer (.mmap addr size flags fd (hook.pendingGpu t != 0)))
          (fun after => Q after.live))
        :
    (hookCode config (env.only (returns result))).Triple t (fun before => before = hook)
      (startHooked config (.mmap addr size flags fd)) (fun after => Q after.live) := by
  suffices asks : (hookCode config (env.only (returns result))).Triple t
      (fun before => before.live = hook.live ∧ before.dma = hook.dma ∧ before.pendingGpu = hook.pendingGpu)
      (startHooked config (.mmap addr size flags fd)) (fun after => Q after.live) from
    asks.imp (fun before same => same ▸ ⟨rfl, rfl, rfl⟩) fun _ after => after
  refine transaction_alone (fun same => same) (fun holds => holds) ?_
  refine dma_alone fun before answer taking next same executed => ?_
  obtain ⟨sameLive, sameDma, samePending⟩ := same
  cases executed
  rw [if_neg (Nat.not_lt.2 fits), samePending]
  refine system_alone fun asking answer world same answered => ?_
  subst same
  have returned : answer.pointer = result := by
    simpa [returns] using (ite_none_right_eq_some.1 answered).1
  exact leaves _ answer sameLive sameDma returned

/-- With the mark set, the mapping is recorded as DMA memory of its size. -/
theorem marked_mmap (tracking : config.trackPointers = true)
    (marked : hook.pendingGpu t ≠ 0) (fits : size ≤ PointerInfo.maxSize) (mapped : result ≠ mapFailed)
    (returned : CallAnswered config env (returns result) hook ⟨t, .mmap addr size flags fd, answers⟩)
    (stepped : (serialHook config env).step hook ⟨t, .mmap addr size flags fd, answers⟩ = some hook') :
    ∃ hashIndex now, hook'.live = (hook.live.addSection result size hashIndex .dma now).table := by
  obtain ⟨ops, started, finished⟩ := bind_eq_some_iff.1 (returned.step stepped)
  obtain rfl := startHooked_of_startCall started
  refine mmap_alone hook (Q := fun live => ∃ hashIndex now,
    live = (hook.live.addSection result size hashIndex .dma now).table) fits ?_ _ _ _ rfl finished
  intro before answer sameLive _ same
  subst same
  simp only [SystemOp.next, tracking, classifyMmap, mapped, bne_iff_ne.2 marked, if_true, if_false,
    Bool.not_true, Bool.false_eq_true]
  refine (add_alone before answer.pointer size .dma).imp (fun _ same => same) ?_
  rintro after ⟨hashIndex, now, added, -⟩
  exact ⟨hashIndex, now, sameLive ▸ added⟩

/-- Without the mark, a mapping of a descriptor that is accounted for leaves the table alone. -/
theorem unmarked_mmap {info : DmaFdInfo}
    (unmarked : hook.pendingGpu t = 0) (fits : size ≤ PointerInfo.maxSize) (nonneg : 0 ≤ fd)
    (held : hook.dma.lookupDmaFd fd = some info) (tracked : info.tracked = true)
    (returned : CallAnswered config env (returns result) hook ⟨t, .mmap addr size flags fd, answers⟩)
    (stepped : (serialHook config env).step hook ⟨t, .mmap addr size flags fd, answers⟩ = some hook') :
    hook'.live = hook.live := by
  obtain ⟨ops, started, finished⟩ := bind_eq_some_iff.1 (returned.step stepped)
  obtain rfl := startHooked_of_startCall started
  refine mmap_alone hook (Q := fun live => live = hook.live) fits ?_ _ _ _ rfl finished
  intro before answer sameLive sameDma _
  have quiet : (hookCode config (env.only (returns result))).Triple t (fun after => after = before) []
      (fun after => after.live = hook.live) := .nil fun after same => same ▸ sameLive
  have notAnonymous : ¬(fd < 0 ∧ hasFlag flags mapAnonymous = true) :=
    fun negative => absurd negative.1 (Int32.not_lt.2 nonneg)
  simp only [SystemOp.next, classifyMmap, unmarked, bne_self_eq_false, Bool.false_eq_true, if_false,
    notAnonymous, ite_self]
  split_ifs
  · exact quiet
  · exact quiet
  · refine dma_alone fun asking answer' consulted next same executed => ?_
    subst same
    have untracked : asking.dma.shouldTrackDmaMapping fd (hasFlag flags mapShared) answer'.fdinfo =
        (none, asking.dma) := by
      simp only [DmaRegistry.shouldTrackDmaMapping, sameDma, held, tracked, if_true, ite_self]
    simp only [Hook.execDma, untracked] at executed
    cases executed
    exact .nil fun after same => same ▸ sameLive

end

/-! ### Failing mappings -/

/-- The mapping at `result` is recorded as DMA memory of `size` bytes. -/
def RecordedAsDma (live : LiveTable) (result : Pointer) (size : Nat) : Prop :=
  ∃ info, live.find result = some info ∧ info.memType = .dma ∧ info.size = size

/-- A thread allocates GPU memory, makes `mmap` calls that fail, and then one that succeeds. The mapping is
recorded as DMA memory exactly when there is no failing call. -/
theorem mark_survives_iff (tracking : config.trackPointers = true) {t : τ}
    {before marked left hook' : Hook (Option τ) ε} {deviceFd fd : Fd} {request flags : UInt32}
    {ioctlAnswers answers : List Answer} {fails : List (HookCall τ)} {addr result : Pointer} {size : Nat}
    (gpu : DmaRegistry.marksPending request = true)
    (allocates : CallAnswered config env (fun op answer => !op.failed answer) before
      ⟨some t, .ioctl deviceFd request, ioctlAnswers⟩)
    (marks : (serialHook config env).step before ⟨some t, .ioctl deviceFd request, ioctlAnswers⟩ =
      some marked) (mmaps : ∀ call ∈ fails, call.thread = some t ∧
      ∃ addr size flags fd, call.request = .mmap addr size flags fd)
    (failing : (serialHook config env).Respects (CallAnswered config env SystemOp.failed) marked fails)
    (failed : (serialHook config env).run marked fails = some left) (fits : size ≤ PointerInfo.maxSize)
    (mapped : result ≠ mapFailed)
    (returned : CallAnswered config env (returns result) left ⟨some t, .mmap addr size flags fd, answers⟩)
    (maps : (serialHook config env).step left ⟨some t, .mmap addr size flags fd, answers⟩ = some hook') :
    (serialHook config env).Along (fun hook => hook.SameTracker marked ∧
        hook.pendingGpu (some t) = marked.pendingGpu (some t)) marked fails ∧
      RecordedAsDma hook'.live result size ↔ fails = [] := by
  have isMarked : marked.pendingGpu (some t) ≠ 0 := by
    rw [marked_of_ioctl tracking gpu allocates marks]
    exact (marksPending_cases gpu).1
  constructor
  · rintro ⟨along, -⟩
    cases fails with
    | nil => rfl
    | cons call rest =>
        obtain ⟨middle, stepped, -⟩ := bind_eq_some_iff.1 failed
        obtain ⟨byThread, addr, size, flags, fd, isMmap⟩ := mmaps call List.mem_cons_self
        obtain ⟨-, taken⟩ := failed_call (by rw [byThread]; rfl) (failing middle stepped).1 stepped
        obtain ⟨-, kept⟩ := (along.2 middle stepped).head
        rw [taken, isMmap, byThread] at kept
        exact absurd ((Function.update_self ..).symm.trans kept).symm isMarked
  · rintro rfl
    cases failed
    obtain ⟨hashIndex, now, added⟩ := marked_mmap tracking isMarked fits mapped returned maps
    refine ⟨⟨(Untouched.refl marked).same, rfl⟩, ⟨size, hashIndex, .dma, now⟩, ?_, rfl, rfl⟩
    rw [added, LiveTable.find_addSection, if_pos rfl]

/-- A KGSL allocation on descriptor 3. -/
def gpuAllocation : HookCall Worker := ⟨some .one, .ioctl 3 ioctlKgslGpuobjAlloc, [{}, {}]⟩

/-- A `mmap` of the device that the kernel refuses, and one that it grants. -/
def refusedMapping : HookCall Worker :=
  ⟨some .one, .mmap 0 4096 mapShared 3, [{}, {}, { pointer := mapFailed }, {}]⟩

def grantedMapping (further : Nat) : HookCall Worker :=
  ⟨some .one, .mmap 0 4096 mapShared 3,
    {} :: {} :: { pointer := 0x7f0000000000 } :: List.replicate further {}⟩

/-- The refused `mmap` takes the mark with it, and the mapping that follows is not recorded at all. -/
theorem refused_mapping_loses_mark :
    ∃ marked left hook', (serialHook trackingConfig (.any (Option Worker))).run
        (.initial trackingConfig (.any _)) [gpuAllocation] = some marked ∧
      (serialHook trackingConfig (.any (Option Worker))).step marked refusedMapping = some left ∧
      (serialHook trackingConfig (.any (Option Worker))).step left (grantedMapping 2) = some hook' ∧
      CallAnswered trackingConfig (.any (Option Worker)) SystemOp.failed marked refusedMapping ∧
      marked.pendingGpu (some .one) = ioctlKgslGpuobjAlloc ∧ left.pendingGpu (some .one) = 0 ∧
      hook'.live.find 0x7f0000000000 = none ∧ hook'.live.currentDma = 0 := by
  obtain ⟨marked, ran, left, refused, hook', granted, seen⟩ : ∃ marked ∈ (serialHook trackingConfig
      (.any (Option Worker))).run (.initial trackingConfig (.any _)) [gpuAllocation],
      ∃ left ∈ (serialHook trackingConfig (.any (Option Worker))).step marked refusedMapping,
      ∃ hook' ∈ (serialHook trackingConfig (.any (Option Worker))).step left (grantedMapping 2),
        CallAnswered trackingConfig (.any (Option Worker)) SystemOp.failed marked refusedMapping ∧
        marked.pendingGpu (some .one) = ioctlKgslGpuobjAlloc ∧ left.pendingGpu (some .one) = 0 ∧
        hook'.live.find 0x7f0000000000 = none ∧ hook'.live.currentDma = 0 := by decide +kernel
  exact ⟨marked, left, hook', ran, refused, granted, seen⟩

/-- Without a refused `mmap` in between the mapping is recorded. -/
theorem mark_survives_iff_granted :
    ∃ marked hook', (serialHook trackingConfig (.any (Option Worker))).step
        (.initial trackingConfig (.any _)) gpuAllocation = some marked ∧
      (serialHook trackingConfig (.any (Option Worker))).step marked (grantedMapping 4) = some hook' ∧
      RecordedAsDma hook'.live 0x7f0000000000 4096 := by
  obtain ⟨marked, marks, hook', granted, returned⟩ :
    ∃ marked ∈ (serialHook trackingConfig (.any (Option Worker))).step
      (.initial trackingConfig (.any _)) gpuAllocation,
      ∃ _ ∈ (serialHook trackingConfig (.any (Option Worker))).step marked (grantedMapping 4),
        CallAnswered trackingConfig (.any (Option Worker)) (returns 0x7f0000000000) marked
          (grantedMapping 4) := by
    decide +kernel
  have allocates : CallAnswered trackingConfig (.any (Option Worker)) (fun op answer => !op.failed answer)
      (.initial trackingConfig (.any _)) gpuAllocation := by decide +kernel
  have noneFailing : (serialHook trackingConfig (.any (Option Worker))).Respects
      (CallAnswered trackingConfig (.any _) SystemOp.failed) marked [] := trivial
  have noneFailed : (serialHook trackingConfig (.any (Option Worker))).run marked [] = some marked := rfl
  exact ⟨marked, hook', marks, granted, ((mark_survives_iff (by decide +kernel) (by decide +kernel)
    allocates marks (by simp) noneFailing noneFailed (by decide) (by decide +kernel)
    returned granted).2 rfl).2⟩

/-! ### Descriptors that are accounted for -/

/-- Only descriptors that are not negative are registered. -/
def RegistersNonneg (registry : DmaRegistry) : Prop :=
  ∀ fd info, registry.dmaFds.lookup fd = some info → 0 ≤ fd

variable {registry : DmaRegistry}

section

variable (nonneg : RegistersNonneg registry)
include nonneg

theorem registersNonneg_insert {fd : Fd} (isNonneg : 0 ≤ fd) (info : DmaFdInfo) :
    RegistersNonneg { registry with dmaFds := registry.dmaFds.insert fd info } := by
  intro other found held
  by_cases same : other = fd
  · exact same ▸ isNonneg
  · exact nonneg other found (by rwa [AList.lookup_insert_ne same] at held)

theorem registersNonneg_registerDmaFd (fd : Fd) (size : Nat) :
    RegistersNonneg (registry.registerDmaFd fd size).2 := by
  unfold DmaRegistry.registerDmaFd
  split
  · exact nonneg
  · next accepted =>
      have isNonneg : 0 ≤ fd := Int32.not_lt.1 fun negative => accepted (.inl negative)
      split <;> exact registersNonneg_insert nonneg isNonneg _

theorem registersNonneg_markDmaFdTracked (fd : Fd) : RegistersNonneg (registry.markDmaFdTracked fd) := by
  unfold DmaRegistry.markDmaFdTracked
  split
  · exact nonneg
  · next held => exact registersNonneg_insert nonneg (nonneg fd _ held) _

theorem registersNonneg_takeDmaFd (fd : Fd) : RegistersNonneg (registry.takeDmaFd fd).2 := by
  intro other info held
  rw [DmaRegistry.lookup_takeDmaFd] at held
  split at held
  · cases held
  · exact nonneg other info held

theorem registersNonneg_shouldTrackDmaMapping (fd : Fd) (shared : Bool) (fdinfo : Option Nat) :
    RegistersNonneg (registry.shouldTrackDmaMapping fd shared fdinfo).2 := by
  unfold DmaRegistry.shouldTrackDmaMapping
  split
  · exact nonneg
  · split
    · exact nonneg
    · split
      · exact nonneg
      · exact registersNonneg_registerDmaFd nonneg fd _

end

/-- Every operation keeps to such descriptors. -/
theorem registersNonneg_execOp {t : Option τ} {op : Op (Option τ)}
    {answer : Answer} {next : List (Op (Option τ))} (nonneg : RegistersNonneg hook.dma)
    (executed : execOp config env t hook op answer = some (hook', next)) : RegistersNonneg hook'.dma := by
  rcases execOp_cases executed with
    ⟨frameOp, rfl, framed⟩ | ⟨shardOp, live', rfl, -, -, rfl⟩ | ⟨systemOp, world, rfl, -, rfl, -⟩ |
      ⟨peakOp, rfl, peaked⟩ | ⟨dmaOp, rfl, transacted⟩
  · cases framed
    exact nonneg
  · exact nonneg
  · exact nonneg
  · obtain ⟨-, -, -, outside⟩ := execPeak_frame peaked
    exact outside.dma ▸ nonneg
  · cases dmaOp
    case lockFds =>
      simp only [Hook.execDma, ite_none_left_eq_some] at transacted
      obtain ⟨-, ⟨⟩⟩ := transacted
      exact nonneg
    all_goals obtain ⟨⟩ := transacted
    case unlockFds | takePending | dropIonAllocations => exact nonneg
    case recognize fd request arg registersFd =>
      intro other info held
      rw [DmaRegistry.handleIonIoctl_dmaFds] at held
      exact nonneg other info held
    case takeOldGeneration fd | takeClosed fd => exact registersNonneg_takeDmaFd nonneg fd
    case register fd size => exact registersNonneg_registerDmaFd nonneg fd size
    case markTracked fd => exact registersNonneg_markDmaFdTracked nonneg fd
    case consultMapping fd flags => exact registersNonneg_shouldTrackDmaMapping nonneg fd _ _

/-- After any calls, only descriptors that are not negative are registered. -/
theorem registered_nonneg {hook : Hook (Option τ) ε} (reached : (serialHook config env).Reachable hook) :
    RegistersNonneg hook.dma := by
  refine Code.serial_invariant (P := fun hook => RegistersNonneg hook.dma) ?_ ?_ reached
  · intro fd info held
    cases held
  · intro before call ops _ _
    refine .imp (.invariant (P := fun hook => RegistersNonneg hook.dma) (fun _ => True)
      (fun _ nonneg executed =>
      ⟨registersNonneg_execOp nonneg executed, fun _ _ => trivial⟩) fun _ _ => trivial)
        ?_ fun _ after => after
    rintro hook ⟨rfl, nonneg⟩
    exact nonneg

/-- The DMA record at an address, if there is one. -/
def LiveTable.dmaRecord (live : LiveTable) (pointer : Pointer) : Option PointerInfo :=
  (live.find pointer).filter fun info => info.memType == .dma

/-- The same DMA bytes and the same DMA records. -/
def LiveTable.SameDma (live' live : LiveTable) : Prop :=
  live'.currentDma = live.currentDma ∧ ∀ pointer, live'.dmaRecord pointer = live.dmaRecord pointer

/-- A thread maps a descriptor that is accounted for. Without a mark that changes neither the DMA
bytes nor the DMA records; with a mark it does, unless the table already has a DMA record at the address
the kernel returned. -/
theorem tracked_descriptor_counted_once (tracking : config.trackPointers = true) {t : τ}
    {hook hook' : Hook (Option τ) ε} {addr result : Pointer} {size : Nat} {flags : UInt32} {fd : Fd}
    {answers : List Answer} {info : DmaFdInfo} (reached : (serialHook config env).Reachable hook)
    (held : hook.dma.lookupDmaFd fd = some info) (tracked : info.tracked = true)
    (fits : size ≤ PointerInfo.maxSize) (mapped : result ≠ mapFailed)
    (returned : CallAnswered config env (returns result) hook ⟨some t, .mmap addr size flags fd, answers⟩)
    (stepped : (serialHook config env).step hook ⟨some t, .mmap addr size flags fd, answers⟩ =
      some hook') :
    (hook.pendingGpu (some t) = 0 → hook'.live.SameDma hook.live) ∧
      (hook.pendingGpu (some t) ≠ 0 → hook.live.dmaRecord result = none →
        ¬hook'.live.SameDma hook.live) := by
  refine ⟨fun unmarked => ?_, fun marked vacant same => ?_⟩
  · rw [unmarked_mmap unmarked fits (registered_nonneg reached fd info held) held tracked returned
      stepped]
    exact ⟨rfl, fun _ => rfl⟩
  · obtain ⟨hashIndex, now, added⟩ := marked_mmap tracking marked fits mapped returned stepped
    have recorded := (same.2 result).trans vacant
    rw [added, LiveTable.dmaRecord, LiveTable.find_addSection, if_pos rfl] at recorded
    cases recorded

/-- A dma-buf of 4096 bytes from the heap on descriptor 3, with descriptor 5. -/
def heapAllocation : HookCall Worker :=
  ⟨some .one, .ioctl 3 dmaHeapIoctlAlloc, {} :: { arg := some ⟨4096, 5, 0⟩ } :: List.replicate 8 {}⟩

/-- A shared mapping of the dma-buf. -/
def bufferMapping (further : Nat) : HookCall Worker :=
  ⟨some .one, .mmap 0 4096 mapShared 5,
    {} :: {} :: { pointer := 0x7f0000000000 } :: List.replicate further {}⟩

/-- A GPU allocation between the two leaves a mark that the mapping takes: its 4096 bytes are accounted
for under the descriptor and under the address. -/
theorem marked_mapping_counted_twice :
    ∃ hook hook', (serialHook trackingConfig (.any (Option Worker))).run
        (.initial trackingConfig (.any _)) [heapAllocation, gpuAllocation] = some hook ∧
      (serialHook trackingConfig (.any (Option Worker))).step hook (bufferMapping 4) = some hook' ∧
      hook.dma.lookupDmaFd 5 = some ⟨4096, true⟩ ∧ hook.live.currentDma = 4096 ∧
      hook'.live.currentDma = 8192 ∧ hook.live.dmaRecord 0x7f0000000000 = none ∧
      (hook'.live.dmaRecord 0x7f0000000000).map PointerInfo.size = some 4096 := by
  obtain ⟨hook, ran, hook', stepped, seen⟩ : ∃ hook ∈ (serialHook trackingConfig (.any (Option Worker))).run
      (.initial trackingConfig (.any _)) [heapAllocation, gpuAllocation],
      ∃ hook' ∈ (serialHook trackingConfig (.any (Option Worker))).step hook (bufferMapping 4),
        hook.dma.lookupDmaFd 5 = some ⟨4096, true⟩ ∧ hook.live.currentDma = 4096 ∧
        hook'.live.currentDma = 8192 ∧ hook.live.dmaRecord 0x7f0000000000 = none ∧
        (hook'.live.dmaRecord 0x7f0000000000).map PointerInfo.size = some 4096 := by decide +kernel
  exact ⟨hook, hook', ran, stepped, seen⟩

/-- Without a GPU allocation the mapping changes nothing. -/
theorem tracked_descriptor_counted_once_unmarked :
    ∃ hook hook', (serialHook trackingConfig (.any (Option Worker))).run
        (.initial trackingConfig (.any _)) [heapAllocation] = some hook ∧
      (serialHook trackingConfig (.any (Option Worker))).step hook (bufferMapping 2) = some hook' ∧
      hook'.live.SameDma hook.live := by
  obtain ⟨hook, ran, hook', stepped, held, unmarked, returned⟩ : ∃ hook ∈ (serialHook trackingConfig
      (.any (Option Worker))).run (.initial trackingConfig (.any _)) [heapAllocation],
      ∃ _ ∈ (serialHook trackingConfig (.any (Option Worker))).step hook (bufferMapping 2),
        hook.dma.lookupDmaFd 5 = some ⟨4096, true⟩ ∧ hook.pendingGpu (some .one) = 0 ∧
          CallAnswered trackingConfig
          (.any (Option Worker)) (returns 0x7f0000000000) hook (bufferMapping 2) := by decide +kernel
  exact ⟨hook, hook', ran, stepped, (tracked_descriptor_counted_once (by decide +kernel)
    (Machine.Reachable.run .init ran) held rfl (by decide) (by decide +kernel) returned stepped).1 unmarked⟩

end MallocHook
