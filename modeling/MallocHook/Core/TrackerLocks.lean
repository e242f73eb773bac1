/-
Module: MallocHook.Core.TrackerLocks
Purpose: The operations of `PointerData` with every mutex they take: each lock, the code under it and
  each unlock are steps of their own.
Trusted boundary: translation of the locking of backtrace/src/PointerData.cpp; what a report
  writes while it holds the locks is left out
Main exports: TrackerMutex, Tracker, TrackerCall, Tracker.exec
-/
import MallocHook.Lib.ScopedLocks
import MallocHook.Core.PeakSnapshot

namespace MallocHook

/-- The mutexes of the tracker in their order: the shards by index, then `frame_mutex_`. -/
abbrev TrackerMutex := WithTop (Fin kPointerShards)

/-- The mutex of the shard of a pointer. -/
def shardMutex (pointer : Pointer) : TrackerMutex := ↑(shardFor (manglePointer pointer))

def frameMutex : TrackerMutex := ⊤

/-- The shard mutexes in ascending order. -/
def shardMutexes : List TrackerMutex := (List.finRange kPointerShards).map (↑)

/-! ### Calls and their steps -/

/-- What the world supplies to one step: the captured stack, the clocks, `Stalled()` and what /proc held.
-/
structure TrackerInput where
  stack : RawStackRecord := default
  now : Timeval := default
  nowUs : Nat := 0
  stalled : Bool := false
  proc : PeakProcContext := default

/-- The operations of `PointerData` that take locks. `forkBarrier` is the locking around a `fork`. -/
inductive TrackerCall where
  | add (pointer : Pointer) (pointerSize trackedSize : Nat) (type : MemType)
  | remove (pointer : Pointer)
  | takeEntry (pointer : Pointer)
  | restoreEntry (pointer : Pointer) (info : PointerInfo)
  | remap (oldPointer newPointer : Pointer) (newSize : Nat)
  | addBacktrace (sizeBytes : Nat)
  | removeBacktrace (hashIndex : Nat)
  | maybeRecordPeakSnapshot (trackedTotal : Int)
  | recordObservedPeak (sample : ObservedMemSample)
  | dumpLiveToFile
  | forkBarrier

/-- What an `Add` still has to store once it has its stack. -/
structure NewEntry where
  pointer : Pointer
  trackedSize : Nat
  type : MemType

/-- The steps of the calls. Those named after a call run from its beginning to its first lock. -/
inductive TrackerOp where
  | acquire (mutex : TrackerMutex)
  | release (mutex : TrackerMutex)
  | addBacktrace (sizeBytes : Nat) (entry : Option NewEntry)
  | intern (raw : RawStackRecord) (entry : Option NewEntry)
  | addEntry (entry : NewEntry) (hashIndex : Nat)
  | store (entry : NewEntry) (hashIndex : Nat)
  | takeEntry (pointer : Pointer) (dropsStack : Bool)
  | take (pointer : Pointer) (dropsStack : Bool)
  | restoreEntry (pointer : Pointer) (info : PointerInfo)
  | restore (pointer : Pointer) (info : PointerInfo)
  | remap (oldPointer newPointer : Pointer) (newSize : Nat)
  | rekey (oldPointer newPointer : Pointer) (newSize : Nat)
  | removeBacktrace (hashIndex : Nat)
  | dropReference (hashIndex : Nat)
  -- MaybeRecordPeakSnapshot
  | testThreshold (trackedTotal : Int)
  | checkObserved
  | claim
  | recheckObserved
  | collectContext
  | retest (proc : PeakProcContext)
  | takeTracked (proc : PeakProcContext) (peakNow : Int)
  | settleTracked (retained : Bool) (peakNow : Int)
  | releaseClaim
  -- RecordObservedPeak
  | recordObservedPeak (sample : ObservedMemSample)
  | activateObserved (sample : ObservedMemSample)
  | takeObserved (sample : ObservedMemSample)
  | settleObserved (snapshot : Option Nat)
  | joinReader (snapshotGeneration : Nat)
  | testGeneration (proc : PeakProcContext) (snapshotGeneration : Nat)
  | storeContext (proc : PeakProcContext)
  -- DumpLiveToFile and the fork barrier
  | lockAll
  | withAll

/-- Where each call begins. -/
def TrackerCall.start : TrackerCall → TrackerOp
  | .add pointer pointerSize trackedSize type =>
      .addBacktrace pointerSize (some ⟨pointer, trackedSize, type⟩)
  | .remove pointer => .takeEntry pointer true
  | .takeEntry pointer => .takeEntry pointer false
  | .restoreEntry pointer info => .restoreEntry pointer info
  | .remap oldPointer newPointer newSize => .remap oldPointer newPointer newSize
  | .addBacktrace sizeBytes => .addBacktrace sizeBytes none
  | .removeBacktrace hashIndex => .removeBacktrace hashIndex
  | .maybeRecordPeakSnapshot trackedTotal => .testThreshold trackedTotal
  | .recordObservedPeak sample => .recordObservedPeak sample
  | .dumpLiveToFile | .forkBarrier => .lockAll

/-- `LockAllShards`. -/
def lockAllShards : List TrackerOp := shardMutexes.map .acquire

/-- `UnlockAllShards`. -/
def unlockAllShards : List TrackerOp := shardMutexes.reverse.map .release

/-- The locks of `Remap`: one if both pointers share a shard, else two in ascending order. -/
def remapMutexes (oldPointer newPointer : Pointer) : List TrackerMutex :=
  if shardMutex oldPointer = shardMutex newPointer then [shardMutex oldPointer]
  else if shardMutex oldPointer < shardMutex newPointer then [shardMutex oldPointer, shardMutex newPointer]
  else [shardMutex newPointer, shardMutex oldPointer]

/-- What follows `AddBacktrace`: nothing when it was called for its own sake, else the shard part of
`Add`. -/
def afterBacktrace (entry : Option NewEntry) (hashIndex : Nat) : List TrackerOp :=
  entry.elim [] fun entry => if hashIndex = kBacktraceExitIndex then [] else [.addEntry entry hashIndex]

/-- What `Add` and `Remap` do once they have released their shards. -/
def afterEntry (result : LiveTable.SectionResult) : List TrackerOp :=
  (if result.raisedPeak then [.testThreshold result.trackedTotal] else []) ++
    if result.displacedHashIndex > kBacktraceEmptyIndex then
      [.removeBacktrace result.displacedHashIndex] else []

/-! ### State -/

/-- The tracker and the owners of its mutexes. `collected` records each context read from /proc by a call
that retained a snapshot, with its generation. -/
structure Tracker (θ : Type*) where
  live : LiveTable
  stackTable : StackTable
  peak : PeakState
  owners : AList fun _ : TrackerMutex => θ
  collected : List (Nat × PeakProcContext)

namespace Tracker

variable {θ : Type*}

/-- The tracker as `Initialize` leaves it. -/
def initial (config : Config) : Tracker θ where
  live := .empty
  stackTable := .empty
  peak := .initial config
  owners := ∅
  collected := []

def owner (tracker : Tracker θ) (mutex : TrackerMutex) : Option θ := tracker.owners.lookup mutex

variable (tracker : Tracker θ)

/-- Threshold and flag after a tracked snapshot was attempted. -/
def settle (retained : Bool) (peakNow : Int) : PeakState :=
  if tracker.peak.trackedPeakOnce then
    if retained then tracker.peak.finalize else tracker.peak
  else
    { tracker.peak with
      nextPeakRecordThreshold :=
        if tracker.peak.peakRecordStepBytes = 0 then peakNow.toNat
        else nextPeakThreshold peakNow.toNat tracker.peak.peakRecordStepBytes }

/-- One step of a thread; `none` while the mutex it needs is held. -/
def exec (config : Config) (t : θ) (input : TrackerInput) : TrackerOp → Option (Tracker θ × List TrackerOp)
  | .acquire mutex =>
      if (tracker.owner mutex).isSome then none
      else some ({ tracker with owners := tracker.owners.insert mutex t }, [])
  | .release mutex => some ({ tracker with owners := tracker.owners.erase mutex }, [])
  | .addBacktrace sizeBytes entry =>
      some (tracker,
        if config.shouldBacktraceAllocSize sizeBytes && config.has optionBacktrace && input.stack.usable then
          [.acquire frameMutex, .intern input.stack entry]
        else afterBacktrace entry kBacktraceEmptyIndex)
  | .intern raw entry =>
      let interned := tracker.stackTable.intern raw
      some ({ tracker with stackTable := interned.2 },
        .release frameMutex :: afterBacktrace entry interned.1)
  | .addEntry entry hashIndex =>
      some (tracker, [.acquire (shardMutex entry.pointer), .store entry hashIndex])
  | .store entry hashIndex =>
      let result := tracker.live.addSection entry.pointer entry.trackedSize hashIndex entry.type input.now
      some ({ tracker with live := result.table },
        .release (shardMutex entry.pointer) :: afterEntry result)
  | .takeEntry pointer dropsStack =>
      some (tracker, [.acquire (shardMutex pointer), .take pointer dropsStack])
  | .take pointer dropsStack =>
      let taken := tracker.live.takeEntry pointer
      some ({ tracker with live := taken.2 },
        .release (shardMutex pointer) ::
          taken.1.elim [] fun info => if dropsStack then [.removeBacktrace info.hashIndex] else [])
  | .restoreEntry pointer info =>
      some (tracker, [.acquire (shardMutex pointer), .restore pointer info])
  | .restore pointer info =>
      some ({ tracker with live := tracker.live.restoreEntry pointer info }, [.release (shardMutex pointer)])
  | .remap oldPointer newPointer newSize =>
      some (tracker,
        if oldPointer = 0 ∨ newPointer = 0 ∨ newSize > PointerInfo.maxSize then []
        else (remapMutexes oldPointer newPointer).map .acquire ++ [.rekey oldPointer newPointer newSize])
  | .rekey oldPointer newPointer newSize =>
      let unlocks := (remapMutexes oldPointer newPointer).reverse.map .release
      some ((tracker.live.remapSection oldPointer newPointer newSize).elim (tracker, unlocks) fun result =>
        ({ tracker with live := result.table }, unlocks ++ afterEntry result))
  | .removeBacktrace hashIndex =>
      some (tracker,
        if hashIndex ≤ kBacktraceEmptyIndex then [] else [.acquire frameMutex, .dropReference hashIndex])
  | .dropReference hashIndex =>
      some ({ tracker with stackTable := tracker.stackTable.removeBacktrace hashIndex },
        [.release frameMutex])
  | .testThreshold trackedTotal =>
      some (tracker, if tracker.peak.crossesThreshold config trackedTotal then [.checkObserved] else [])
  | .checkObserved =>
      some (tracker, if tracker.peak.observedOwns input.stalled then [] else [.claim])
  | .claim =>
      let claimed := tracker.peak.claimProcRead
      some ({ tracker with peak := claimed.2 }, if claimed.1 then [] else [.recheckObserved])
  | .recheckObserved =>
      some (tracker, if tracker.peak.observedOwns input.stalled then [.releaseClaim] else [.collectContext])
  | .collectContext => some (tracker, lockAllShards ++ [.retest input.proc])
  | .retest proc =>
      some (tracker,
        if tracker.peak.observedOwns input.stalled || tracker.peak.peakSnapshotFinal ||
            decide (tracker.live.peakTot ≤ tracker.peak.nextPeakRecordThreshold) then
          unlockAllShards ++ [.releaseClaim]
        else [.acquire frameMutex, .takeTracked proc tracker.live.peakTot])
  | .takeTracked proc peakNow =>
      let taken := takePeakSnapshotLocked config tracker.live tracker.stackTable .tracked none (some proc)
        input.nowUs tracker.peak
      some ({ tracker with
          peak := taken.2
          collected :=
            if taken.1 then (taken.2.peakSnapshotGeneration, proc) :: tracker.collected
              else tracker.collected },
        [.release frameMutex, .settleTracked taken.1 peakNow])
  | .settleTracked retained peakNow =>
      some ({ tracker with peak := tracker.settle retained peakNow }, unlockAllShards ++ [.releaseClaim])
  | .releaseClaim => some ({ tracker with peak := tracker.peak.releaseProcRead }, [])
  | .recordObservedPeak sample =>
      some (tracker,
        if config.has optionRecordMemoryPeak then lockAllShards ++ [.activateObserved sample] else [])
  | .activateObserved sample =>
      some ({ tracker with peak := tracker.peak.activateObserved },
        [.acquire frameMutex, .takeObserved sample])
  | .takeObserved sample =>
      let taken := takePeakSnapshotLocked config tracker.live tracker.stackTable .observed (some sample) none
        input.nowUs tracker.peak
      some ({ tracker with peak := taken.2 },
        [.release frameMutex,
          .settleObserved (if taken.1 then some taken.2.peakSnapshotGeneration else none)])
  | .settleObserved snapshot =>
      some ({ tracker with
          peak :=
            if snapshot.isSome && decide (config.peakRetention = .firstCrossing) then tracker.peak.finalize
            else tracker.peak },
        unlockAllShards ++ snapshot.elim [] fun snapshotGeneration => [.joinReader snapshotGeneration])
  | .joinReader snapshotGeneration =>
      some ({ tracker with collected := (snapshotGeneration, input.proc) :: tracker.collected },
        lockAllShards ++ [.testGeneration input.proc snapshotGeneration])
  | .testGeneration proc snapshotGeneration =>
      some (tracker,
        if snapshotGeneration = tracker.peak.peakSnapshotGeneration then
          [.acquire frameMutex, .storeContext proc]
        else unlockAllShards)
  | .storeContext proc =>
      some ({ tracker with
          peak := if proc.rss.valid then (tracker.peak.storeRss proc).storeReadInterval proc
            else tracker.peak },
        .release frameMutex :: unlockAllShards)
  | .lockAll => some (tracker, lockAllShards ++ [.acquire frameMutex, .withAll])
  | .withAll => some (tracker, .release frameMutex :: unlockAllShards)

end Tracker

variable {θ : Type*}

/-- The code of all threads. -/
def trackerCode (config : Config) : Code θ (Tracker θ) TrackerOp TrackerCall TrackerInput where
  start _ call := some [call.start]
  exec t tracker op input := tracker.exec config t input op

/-- The tracker with what every thread has left to do. -/
abbrev TrackerPool (θ : Type*) := Pool θ (Tracker θ) TrackerOp

/-- All interleavings of calls, from a new tracker. -/
def tracker [DecidableEq θ] (config : Config) :
    Machine (TrackerPool θ) (Event θ TrackerCall TrackerInput) :=
  (trackerCode config).machine (.initial config)

end MallocHook
