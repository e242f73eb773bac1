/-
Module: MallocHook.Core.HookedThreads
Purpose: The hooked calls as threads run them side by side. Each call is the list of places where the
  source can be interrupted, and the allocator and the kernel are an `Environment`.
Trusted boundary: translation of the debug_* functions of backtrace/src/malloc_debug.cpp and of the
  PointerData functions they call; re-entrant calls, the fork barrier and trace markers are left out
Main exports: Answer, Request, Op, Hook
-/
import MallocHook.Lib.ThreadPool
import MallocHook.Core.PeakSnapshot
import MallocHook.Core.DmaRegistry

namespace MallocHook

/-- What the world answers to one operation: an address, a status, a captured stack, the clocks,
`Stalled()`, and what /proc or a driver left to read. -/
structure Answer where
  pointer : Pointer := 0
  status : Int := 0
  badFd : Bool := false
  stack : RawStackRecord := default
  now : Timeval := default
  nowUs : Nat := 0
  stalled : Bool := false
  proc : PeakProcContext := default
  fdinfo : Option Nat := none
  arg : Option IoctlArg := none

/-! ### Calls -/

/-- The allocation functions that end in `Add` when they succeed. -/
inductive AllocRoutine where
  | malloc
  | calloc
  | memalign
  | alignedAlloc
  | posixMemalign
deriving DecidableEq, Repr, Inhabited

/-- Whether the hook takes an answer for a new block. -/
def AllocRoutine.succeeded (routine : AllocRoutine) (answer : Answer) : Bool :=
  match routine with
  | .posixMemalign => answer.status == 0 && answer.pointer != 0
  | _ => answer.pointer != 0

theorem AllocRoutine.pointer_ne_null (routine : AllocRoutine) {answer : Answer}
    (succeeded : routine.succeeded answer = true) : answer.pointer ≠ 0 := by
  cases routine <;> simp_all [AllocRoutine.succeeded]

/-- The hooked calls. `handOver` is not one: the program makes another thread the owner of a block or
mapping. `sample` is a round of the sampler. -/
inductive Request (θ : Type*) where
  | malloc (size : Nat)
  | calloc (nmemb bytes : Nat)
  | memalign (alignment bytes : Nat)
  | alignedAlloc (alignment bytes : Nat)
  | posixMemalign (alignment size : Nat)
  | realloc (pointer : Pointer) (bytes : Nat)
  | free (pointer : Pointer)
  | mmap (addr : Pointer) (size : Nat) (flags : UInt32) (fd : Fd)
  | munmap (addr : Pointer) (size : Nat)
  | mremap (oldAddr : Pointer) (oldSize newSize : Nat) (flags : UInt32) (newAddr : Pointer)
  | ioctl (fd : Fd) (request : UInt32)
  | close (fd : Fd)
  | handOver (pointer : Pointer) (heir : θ)
  | sample (sample : ObservedMemSample)

/-! ### Operations -/

/-- Sections under `frame_mutex_`. `addBacktrace` is the first half of an `Add`. -/
inductive FrameOp where
  | addBacktrace (pointer : Pointer) (pointerSize trackedSize : Nat) (type : MemType)
  | removeBacktrace (hashIndex : Nat)

/-- Sections under the shard of a pointer. `internalFree`, `reallocTake`, `munmapTake` and `remove` are
the `TakeEntry` of these functions. -/
inductive ShardOp where
  | addEntry (pointer : Pointer) (trackedSize hashIndex : Nat) (type : MemType)
  | internalFree (pointer : Pointer)
  | remove (pointer : Pointer)
  | reallocTake (pointer : Pointer) (bytes : Nat)
  | munmapTake (addr : Pointer) (size : Nat)
  | restoreEntry (pointer : Pointer) (info : PointerInfo)
  | remap (oldPointer newPointer : Pointer) (newSize : Nat)

/-- Calls into the allocator and the kernel. `realloc` and `munmap` carry the record taken before. -/
inductive SystemOp (θ : Type*) where
  | alloc (routine : AllocRoutine) (size : Nat)
  | free (pointer : Pointer)
  | realloc (pointer : Pointer) (bytes : Nat) (previous : Option PointerInfo)
  | mmap (addr : Pointer) (size : Nat) (flags : UInt32) (fd : Fd) (pendingIoctl : Bool)
  | munmap (addr : Pointer) (size : Nat) (previous : Option PointerInfo)
  | mremap (oldAddr : Pointer) (oldSize newSize : Nat) (flags : UInt32) (newAddr : Pointer)
  | ioctl (fd : Fd) (request : UInt32)
  | close (fd : Fd)
  | handOver (pointer : Pointer) (heir : θ)

/-- The steps of `MaybeRecordPeakSnapshot` and, from `takeSample` on, of the sampler. -/
inductive PeakOp where
  | testThreshold (trackedTotal : Int)
  | checkObserved
  | claim
  | recheckObserved
  | trackedSection (proc : PeakProcContext)
  | unlockShards
  | releaseClaim
  | takeSample (sample : ObservedMemSample)
  | observedSection (sample : ObservedMemSample)
  | applyProcContext (snapshotGeneration : Nat)
  | settle (sample : ObservedMemSample) (retained : Bool)

/-- Sections of the descriptor registry, and the lock around a descriptor transaction. -/
inductive DmaOp where
  | lockFds
  | unlockFds
  | takePending (addr : Pointer) (size : Nat) (flags : UInt32) (fd : Fd)
  | recognize (fd : Fd) (request : UInt32) (arg : Option IoctlArg) (registersFd : Bool)
  | takeOldGeneration (fd : Fd)
  | register (fd : Fd) (size : Nat)
  | markTracked (fd : Fd)
  | consultMapping (fd : Fd) (flags : UInt32)
  | takeClosed (fd : Fd)
  | dropIonAllocations (fd : Fd)

inductive Op (θ : Type*) where
  | frame (op : FrameOp)
  | shard (op : ShardOp)
  | system (op : SystemOp θ)
  | peak (op : PeakOp)
  | dma (op : DmaOp)

/-- An `Add` of as many bytes as were requested, from its first section on. -/
def Op.add {θ : Type*} (pointer : Pointer) (size : Nat) (type : MemType) : Op θ :=
  .frame (.addBacktrace pointer size size type)

/-! ### Where calls start -/

/-- `powerof2` of the C library. -/
def powerof2 (n : Nat) : Bool := (n - 1) &&& n == 0

section

variable {θ : Type*}

/-- The common part of the allocation functions that refuse sizes above `MaxSize`. -/
def startAlloc (routine : AllocRoutine) (size : Nat) : List (Op θ) :=
  if size > PointerInfo.maxSize then [] else [.system (.alloc routine size)]

/-- `InternalFree`: the record goes first, if anything is tracked. -/
def startFree (config : Config) (pointer : Pointer) : List (Op θ) :=
  if config.trackPointers then [.shard (.internalFree pointer)] else [.system (.free pointer)]

def startRealloc (config : Config) (pointer : Pointer) (bytes : Nat) : List (Op θ) :=
  if pointer = 0 then startAlloc .malloc bytes
  else if bytes = 0 then startFree config pointer
  else if bytes > PointerInfo.maxSize then []
  else if config.trackPointers then [.shard (.reallocTake pointer bytes)]
  else [.system (.realloc pointer bytes none)]

/-- Run operations as one descriptor transaction, when they are one. -/
def inFdTransaction (registersFd : Bool) (ops : List (Op θ)) : List (Op θ) :=
  if registersFd then [.dma .lockFds] ++ ops ++ [.dma .unlockFds] else ops

/-- The operations every hooked call starts with. -/
def startHooked (config : Config) : Request θ → List (Op θ)
  | .malloc size => startAlloc .malloc size
  | .calloc nmemb bytes =>
      -- `__builtin_mul_overflow`, and no test against `MaxSize`
      if nmemb * bytes ≥ 2 ^ 64 then [] else [.system (.alloc .calloc (nmemb * bytes))]
  | .memalign _ bytes => startAlloc .memalign bytes
  | .alignedAlloc _ bytes => startAlloc .alignedAlloc bytes
  | .posixMemalign alignment size =>
      if alignment < 8 || !powerof2 alignment then [] else startAlloc .posixMemalign size
  | .realloc pointer bytes => startRealloc config pointer bytes
  | .free pointer => if pointer = 0 then [] else startFree config pointer
  | .mmap addr size flags fd =>
      inFdTransaction (decide (fd ≥ 0) && hasFlag flags mapShared) [.dma (.takePending addr size flags fd)]
  | .munmap addr size =>
      if config.trackPointers then [.shard (.munmapTake addr size)]
      else [.system (.munmap addr size none)]
  | .mremap oldAddr oldSize newSize flags newAddr =>
      if newSize > PointerInfo.maxSize then []
      else [.system (.mremap oldAddr oldSize newSize flags newAddr)]
  | .ioctl fd request =>
      inFdTransaction (config.trackPointers && canRegisterDmaFd request) [.system (.ioctl fd request)]
  | .close fd =>
      if config.trackPointers then inFdTransaction true [.system (.close fd)]
      else [.system (.close fd)]
  | .handOver pointer heir => [.system (.handOver pointer heir)]
  | .sample sample => [.peak (.takeSample sample)]

end

/-! ### What operations do -/

section

variable {θ : Type*}

/-- A section under `frame_mutex_`: the stack table after it and what is left to do. -/
def FrameOp.exec (config : Config) (stackTable : StackTable) (answer : Answer) :
    FrameOp → StackTable × List (Op θ)
  | .addBacktrace pointer pointerSize trackedSize type =>
      let added := stackTable.addBacktrace config pointerSize answer.stack
      (added.2,
        if added.1 = kBacktraceExitIndex then []
        else [.shard (.addEntry pointer trackedSize added.1 type)])
  | .removeBacktrace hashIndex => (stackTable.removeBacktrace hashIndex, [])

/-- What `Add` and `Remap` do after their shard section. -/
def afterSection (result : LiveTable.SectionResult) : List (Op θ) :=
  (if result.raisedPeak then [.peak (.testThreshold result.trackedTotal)] else []) ++
    (if result.displacedHashIndex > kBacktraceEmptyIndex then
      [.frame (.removeBacktrace result.displacedHashIndex)] else [])

/-- A shard section: the live table after it and what is left to do. -/
def ShardOp.exec (live : LiveTable) (answer : Answer) : ShardOp → LiveTable × List (Op θ)
  | .addEntry pointer trackedSize hashIndex type =>
      let result := live.addSection pointer trackedSize hashIndex type answer.now
      (result.table, afterSection result)
  | .internalFree pointer =>
      let taken := live.takeEntry pointer
      (taken.2,
        taken.1.elim [] (fun info => [.frame (.removeBacktrace info.hashIndex)]) ++
          [.system (.free pointer)])
  | .remove pointer =>
      let taken := live.takeEntry pointer
      (taken.2, taken.1.elim [] fun info => [.frame (.removeBacktrace info.hashIndex)])
  | .reallocTake pointer bytes =>
      let taken := live.takeEntry pointer
      (taken.2, [.system (.realloc pointer bytes taken.1)])
  | .munmapTake addr size =>
      let taken := live.takeEntry addr
      (taken.2, [.system (.munmap addr size taken.1)])
  | .restoreEntry pointer info => (live.restoreEntry pointer info, [])
  | .remap oldPointer newPointer newSize =>
      match live.remap oldPointer newPointer newSize with
      | none => (live, [])
      | some result => (result.table, afterSection result)

/-- How a hooked call continues once the allocator or the kernel has answered. -/
def SystemOp.next (config : Config) (answer : Answer) : SystemOp θ → List (Op θ)
  | .alloc routine size =>
      if routine.succeeded answer && config.trackPointers then [.add answer.pointer size .host] else []
  | .free _ => []
  | .realloc pointer bytes previous =>
      if answer.pointer = 0 then
        previous.elim [] fun info => [.shard (.restoreEntry pointer info)]
      else
        (if config.trackPointers then [.add answer.pointer bytes .host] else []) ++
          previous.elim [] fun info => [.frame (.removeBacktrace info.hashIndex)]
  | .mmap _ size flags fd pendingIoctl =>
      if !config.trackPointers then []
      else
        match classifyMmap answer.pointer flags fd pendingIoctl with
        | .anonymous => [.add answer.pointer size .mmap]
        | .pendingIoctl => [.add answer.pointer size .dma]
        | .none => if answer.pointer = mapFailed then [] else [.dma (.consultMapping fd flags)]
  | .munmap addr _ previous =>
      previous.elim [] fun info =>
        if answer.status = 0 then [.frame (.removeBacktrace info.hashIndex)]
        else [.shard (.restoreEntry addr info)]
  | .mremap oldAddr _ newSize flags _ =>
      if mappingSucceeded answer.pointer && config.trackPointers then
        if hasFlag flags mremapDontunmap then [.add answer.pointer newSize .mmap]
        else [.shard (.remap oldAddr answer.pointer newSize)]
      else []
  | .ioctl fd request =>
      if answer.status = 0 ∧ config.trackPointers then
        [.dma (.recognize fd request answer.arg (canRegisterDmaFd request))]
      else []
  | .close fd =>
      if config.trackPointers && (answer.status == 0 || !answer.badFd) then
        [.dma (.takeClosed fd), .dma (.dropIonAllocations fd)]
      else []
  | .handOver _ _ => []

end

/-- Which answers a call into the allocator or the kernel may get in a state of the world, and the state
after it. -/
structure Environment (θ ε : Type*) where
  initial : ε
  answer : ε → θ → SystemOp θ → Answer → Option ε

/-- An environment that may give any answer at any time. -/
def Environment.any (θ : Type*) : Environment θ Unit := ⟨(), fun _ _ _ _ => some ()⟩

/-- The state all threads share. `shardOwner` holds every shard, `fdOwner` is in a descriptor transaction,
`pendingGpu` is `pending_gpu_allocation`; the last two fields only record what happened. -/
structure Hook (θ ε : Type*) where
  live : LiveTable
  stackTable : StackTable
  peak : PeakState
  sampler : Sampler
  shardOwner : Option θ
  dma : DmaRegistry
  fdOwner : Option θ
  pendingGpu : θ → UInt32
  world : ε
  captures : List (Nat × FrameKey)
  snapshots : List PeakSnapshotSource

namespace Hook

variable {θ ε : Type*}

/-- The hook right after `Initialize`. -/
def initial (config : Config) (env : Environment θ ε) : Hook θ ε where
  live := .empty
  stackTable := .empty
  peak := .initial config
  sampler := .ofConfig config
  shardOwner := none
  dma := .empty
  fdOwner := none
  pendingGpu := fun _ => 0
  world := env.initial
  captures := []
  snapshots := []

/-- Two states agree on what calls into the allocator, the kernel and the registry change. -/
structure SameOutside (hook' hook : Hook θ ε) : Prop where
  dma : hook'.dma = hook.dma
  fdOwner : hook'.fdOwner = hook.fdOwner
  pendingGpu : hook'.pendingGpu = hook.pendingGpu
  world : hook'.world = hook.world

theorem SameOutside.refl (hook : Hook θ ε) : hook.SameOutside hook := ⟨rfl, rfl, rfl, rfl⟩

theorem SameOutside.trans {first second third : Hook θ ε} (one : first.SameOutside second)
    (two : second.SameOutside third) : first.SameOutside third :=
  ⟨one.dma.trans two.dma, one.fdOwner.trans two.fdOwner, one.pendingGpu.trans two.pendingGpu,
    one.world.trans two.world⟩

variable [DecidableEq θ] (hook : Hook θ ε)

/-- A section under all shards, by a thread that keeps them locked afterwards. -/
def underAllShards (t : θ) (peak : PeakState) : Hook θ ε :=
  { hook with
    peak := peak
    shardOwner := some t
    snapshots :=
      if peak.peakSnapshotGeneration = hook.peak.peakSnapshotGeneration then hook.snapshots
      else hook.snapshots ++ [peak.peakSnapshotSource] }

/-- A frame section, with the capture it may have made on record. -/
def execFrame (config : Config) (answer : Answer) (op : FrameOp) : Hook θ ε × List (Op θ) :=
  let result := op.exec config hook.stackTable answer
  ({ hook with
      stackTable := result.1
      captures :=
        match op with
        | .addBacktrace _ pointerSize _ _ =>
            ((hook.stackTable.addBacktrace config pointerSize answer.stack).1, answer.stack.probe) ::
              hook.captures
        | .removeBacktrace _ => hook.captures },
    result.2)

/-- A step of the peak snapshot or of the sampler; `none` while another thread holds the shards. -/
def execPeak (config : Config) (t : θ) (answer : Answer) : PeakOp → Option (Hook θ ε × List (Op θ))
  | .testThreshold trackedTotal =>
      some (hook, if hook.peak.crossesThreshold config trackedTotal then [.peak .checkObserved] else [])
  | .checkObserved =>
      some (hook, if hook.peak.observedOwns answer.stalled then [] else [.peak .claim])
  | .claim =>
      let claimed := hook.peak.claimProcRead
      some ({ hook with peak := claimed.2 }, if claimed.1 then [] else [.peak .recheckObserved])
  | .recheckObserved =>
      some (hook,
        if hook.peak.observedOwns answer.stalled then [.peak .releaseClaim]
        else
          [.peak (.trackedSection answer.proc), .peak .unlockShards, .peak .releaseClaim])
  | .trackedSection proc =>
      if hook.shardOwner.isSome then none
      else
        let peak := MallocHook.trackedSection config hook.live hook.stackTable answer.stalled proc
          answer.nowUs hook.peak
        some (hook.underAllShards t peak, [])
  | .unlockShards => some ({ hook with shardOwner := none }, [])
  | .releaseClaim => some ({ hook with peak := hook.peak.releaseProcRead }, [])
  | .takeSample sample =>
      let observed := hook.sampler.observe sample
      some ({ hook with sampler := observed.2 },
        if observed.1 then
          if config.has optionRecordMemoryPeak then [.peak (.observedSection sample)]
          else [.peak (.settle sample false)]
        else [])
  | .observedSection sample =>
      if hook.shardOwner.isSome then none
      else
        let taken := MallocHook.observedSection config hook.live hook.stackTable sample answer.nowUs
          hook.peak
        some (hook.underAllShards t taken.2,
          if taken.1 then
            [.peak .unlockShards, .peak (.applyProcContext taken.2.peakSnapshotGeneration),
              .peak .unlockShards, .peak (.settle sample true)]
          else [.peak .unlockShards, .peak (.settle sample false)])
  | .applyProcContext snapshotGeneration =>
      if hook.shardOwner.isSome then none
      else
        some (hook.underAllShards t
          (applyPeakProcContextLocked answer.proc snapshotGeneration hook.peak), [])
  | .settle sample retained =>
      some ({ hook with sampler := hook.sampler.settle sample retained }, [])

/-- A section of the descriptor registry; `none` while another thread is in a transaction. -/
def execDma (t : θ) (answer : Answer) : DmaOp → Option (Hook θ ε × List (Op θ))
  | .lockFds => if hook.fdOwner.isSome then none else some ({ hook with fdOwner := some t }, [])
  | .unlockFds => some ({ hook with fdOwner := none }, [])
  | .takePending addr size flags fd =>
      some ({ hook with pendingGpu := Function.update hook.pendingGpu t 0 },
        if size > PointerInfo.maxSize then []
        else [.system (.mmap addr size flags fd (hook.pendingGpu t != 0))])
  | .recognize fd request arg registersFd =>
      let ion := hook.dma.handleIonIoctl fd request arg
      let node := ion.2.handleDmaNode request arg answer.fdinfo
      -- `||`: the second decoder runs, and marks the request, only if the first recognised nothing
      let pending := if ion.1.isNone && DmaRegistry.marksPending request then request
        else hook.pendingGpu t
      some ({ hook with dma := ion.2, pendingGpu := Function.update hook.pendingGpu t pending },
        match ion.1.or node with
        | some (nodeFd, nodeSize) =>
            if registersFd then
              (if createsDmaFd request then [.dma (.takeOldGeneration nodeFd)] else []) ++
                [.dma (.register nodeFd nodeSize)]
            else []
        | none => [])
  | .takeOldGeneration fd | .takeClosed fd =>
      let taken := hook.dma.takeDmaFd fd
      some ({ hook with dma := taken.2 },
        if (taken.1.map DmaFdInfo.tracked).getD false then [.shard (.remove (fdPointer fd))] else [])
  | .register fd size =>
      let registered := hook.dma.registerDmaFd fd size
      some ({ hook with dma := registered.2 },
        if registered.1 = some true then
          [.add (fdPointer fd) size .dma, .dma (.markTracked fd)]
        else [])
  | .markTracked fd => some ({ hook with dma := hook.dma.markDmaFdTracked fd }, [])
  | .consultMapping fd flags =>
      let consulted := hook.dma.shouldTrackDmaMapping fd (hasFlag flags mapShared) answer.fdinfo
      some ({ hook with dma := consulted.2 },
        match consulted.1 with
        | some size => [.add (fdPointer fd) size .dma, .dma (.markTracked fd)]
        | none => [])
  | .dropIonAllocations fd =>
      some ({ hook with dma := hook.dma.dropIonAllocationsForFd fd }, [])

end Hook

section

variable {τ ε : Type*} [DecidableEq τ]

/-- The sampler is a thread of its own, `none`; the program's threads are `some t`. -/
def startCall (config : Config) : Option τ → Request (Option τ) → Option (List (Op (Option τ)))
  | none, .sample sample => some (startHooked config (.sample sample))
  | none, _ => none
  | some _, .sample _ => none
  | some _, request => some (startHooked config request)

/-- Execute one operation of a thread. -/
def execOp (config : Config) (env : Environment (Option τ) ε) (t : Option τ) (hook : Hook (Option τ) ε)
    (op : Op (Option τ)) (answer : Answer) : Option (Hook (Option τ) ε × List (Op (Option τ))) :=
  match op with
  | .frame op => some (hook.execFrame config answer op)
  | .shard op =>
      if hook.shardOwner.isSome then none
      else
        let result := op.exec hook.live answer
        some ({ hook with live := result.1 }, result.2)
  | .system op =>
      (env.answer hook.world t op answer).map fun world =>
        ({ hook with world := world }, op.next config answer)
  | .peak op => hook.execPeak config t answer op
  | .dma op => hook.execDma t answer op

/-- The code of the sampler and of all program threads. -/
def hookCode (config : Config) (env : Environment (Option τ) ε) :
    Code (Option τ) (Hook (Option τ) ε) (Op (Option τ)) (Request (Option τ)) Answer where
  start := startCall config
  exec := execOp config env

/-- The hook's state with what every thread has left to do. -/
abbrev HookPool (τ ε : Type*) := Pool (Option τ) (Hook (Option τ) ε) (Op (Option τ))

/-- A call starting, or an operation getting its answer. -/
abbrev HookEvent (τ : Type*) := Event (Option τ) (Request (Option τ)) Answer

/-- Two program threads, for runs that need no more. -/
inductive Worker where
  | one
  | two
deriving DecidableEq, Repr

instance : Fintype Worker := ⟨{.one, .two}, fun worker => by cases worker <;> simp⟩

/-- Stacks are captured and allocations tracked; peaks are not recorded. -/
def trackingConfig : Config where
  options := optionBacktrace ||| optionTrackAllocs
  backtraceMinSizeBytes := 0
  backtraceMaxSizeBytes := 0
  backtraceDumpPeakVal := 0
  peakRecordStepBytes := 0
  peakRetention := .chaseMax

/-- A complete capture of one frame. -/
def oneFrame (pc : Pointer) : RawStackRecord := ⟨.complete, 0, 0, [pc], by simp [kMaxAsyncRawFrames]⟩

/-- All interleavings of hooked calls. -/
def hooked (config : Config) (env : Environment (Option τ) ε) : Machine (HookPool τ ε) (HookEvent τ) :=
  (hookCode config env).machine (.initial config env)

/-! ### What a step can do -/

variable {config : Config} {env : Environment (Option τ) ε} {t : Option τ}
  {hook hook' : Hook (Option τ) ε} {op : Op (Option τ)} {answer : Answer}
  {next : List (Op (Option τ))}

omit [DecidableEq τ] in
/-- Whichever thread makes a call, it starts in the same way. -/
theorem startHooked_of_startCall {request : Request (Option τ)}
    (started : startCall config t request = some next) : startHooked config request = next := by
  unfold startCall at started
  split at started <;> cases started <;> rfl

/-- An operation does what its kind does. -/
theorem execOp_cases (executed : execOp config env t hook op answer = some (hook', next)) :
    (∃ frameOp, op = .frame frameOp ∧ hook.execFrame config answer frameOp = (hook', next)) ∨
      (∃ shardOp live', op = .shard shardOp ∧ hook.shardOwner = none ∧
        shardOp.exec hook.live answer = (live', next) ∧ hook' = { hook with live := live' }) ∨
      (∃ systemOp world, op = .system systemOp ∧
        env.answer hook.world t systemOp answer = some world ∧ hook' = { hook
        with world := world } ∧ next = systemOp.next config answer) ∨
      (∃ peakOp, op = .peak peakOp ∧ hook.execPeak config t answer peakOp = some (hook', next)) ∨
      (∃ dmaOp, op = .dma dmaOp ∧ hook.execDma t answer dmaOp = some (hook', next)) := by
  cases op with
  | frame frameOp => exact .inl ⟨frameOp, rfl, Option.some.inj executed⟩
  | shard shardOp =>
      simp only [execOp] at executed
      split at executed <;> cases executed
      next free => exact .inr (.inl ⟨shardOp, _, rfl, by simpa using free, rfl, rfl⟩)
  | system systemOp =>
      obtain ⟨world, answered, ⟨⟩⟩ := Option.map_eq_some_iff.1 executed
      exact .inr (.inr (.inl ⟨systemOp, world, rfl, answered, rfl, rfl⟩))
  | peak peakOp => exact .inr (.inr (.inr (.inl ⟨peakOp, rfl, executed⟩)))
  | dma dmaOp => exact .inr (.inr (.inr (.inr ⟨dmaOp, rfl, executed⟩)))

omit [DecidableEq τ] in
/-- The peak code touches the peak members, the sampler and the ownership of the shards only. -/
theorem execPeak_frame {peakOp : PeakOp}
    (executed : hook.execPeak config t answer peakOp = some (hook', next)) :
    hook'.live = hook.live ∧ hook'.stackTable = hook.stackTable ∧ hook'.captures = hook.captures ∧
      hook'.SameOutside hook := by
  cases peakOp <;> simp only [Hook.execPeak] at executed
  case trackedSection | observedSection | applyProcContext =>
    split at executed <;> cases executed
    exact ⟨rfl, rfl, rfl, rfl, rfl, rfl, rfl⟩
  all_goals
    cases executed
    exact ⟨rfl, rfl, rfl, rfl, rfl, rfl, rfl⟩

omit [DecidableEq τ] in
/-- The peak code leaves only more of itself to do. -/
theorem execPeak_next {peakOp : PeakOp}
    (executed : hook.execPeak config t answer peakOp = some (hook', next)) :
    ∀ op ∈ next, ∃ later, op = .peak later := by
  cases peakOp <;> simp only [Hook.execPeak] at executed
  all_goals
    repeat' split at executed
    all_goals cases executed
    all_goals simp

/-- The descriptor code touches the registry, its lock and the pending mark only. -/
theorem execDma_frame {dmaOp : DmaOp} (executed : hook.execDma t answer dmaOp = some (hook', next)) :
    hook'.live = hook.live ∧ hook'.stackTable = hook.stackTable ∧ hook'.peak = hook.peak ∧
      hook'.sampler = hook.sampler ∧ hook'.shardOwner = hook.shardOwner ∧
      hook'.world = hook.world ∧ hook'.captures = hook.captures ∧
      hook'.snapshots = hook.snapshots := by
  cases dmaOp <;> simp only [Hook.execDma] at executed
  case lockFds =>
    split at executed <;> cases executed
    exact ⟨rfl, rfl, rfl, rfl, rfl, rfl, rfl, rfl⟩
  all_goals
    cases executed
    exact ⟨rfl, rfl, rfl, rfl, rfl, rfl, rfl, rfl⟩

/-- Stack releases and the peak code bear on no region, record or descriptor, and weigh nothing. -/
def Op.weight {θ : Type*} : Op θ → Nat
  | .frame (.removeBacktrace _) => 0
  | .peak _ => 0
  | _ => 1

omit [DecidableEq τ] in
theorem weight_afterSection (result : LiveTable.SectionResult) :
    load Op.weight (afterSection result : List (Op τ)) = 0 := by
  unfold afterSection
  split <;> split <;> rfl

/-- A weightless operation leaves the table and everything outside alone, and only weightless ones to do.
-/
theorem execOp_weightless (light : op.weight = 0)
    (executed : execOp config env t hook op answer = some (hook', next)) :
    hook'.live = hook.live ∧ hook'.SameOutside hook ∧ load Op.weight next = 0 := by
  rcases execOp_cases executed with
    ⟨frameOp, rfl, framed⟩ | ⟨shardOp, live', rfl, -⟩ | ⟨systemOp, world, rfl, -⟩ |
      ⟨peakOp, rfl, peaked⟩ | ⟨dmaOp, rfl, -⟩
  · cases frameOp with
    | addBacktrace => cases light
    | removeBacktrace hashIndex =>
        cases framed
        exact ⟨rfl, ⟨rfl, rfl, rfl, rfl⟩, rfl⟩
  · cases light
  · cases light
  · obtain ⟨sameLive, -, -, sameOutside⟩ := execPeak_frame peaked
    refine ⟨sameLive, sameOutside, load_eq_zero _ fun other member => ?_⟩
    obtain ⟨later, rfl⟩ := execPeak_next peaked other member
    rfl
  · cases light

end

end MallocHook
