/-
Module: MallocHook.Core.AsyncPipeline
Purpose: The pipeline that symbolizes stacks on a worker thread, section by section under `mutex_`, with
  where the worker, `Shutdown` and the `Flush` calls are in a run.
Trusted boundary: translation of class AsyncStackPipeline of
  backtrace/src/AsyncStackPipeline.cpp; the module resolver and the symbolizer are inputs, a null callback is
  one that does nothing, and `BeginFinalization` and the refresh of the resolver are left out
Main exports: StackResult, Pipeline, Pipeline.submit, PipelineRun
-/
import MallocHook.Lib.Machine
import MallocHook.Lib.RingBuffer
import MallocHook.Core.StackTable

namespace MallocHook

/-! ### Data -/

/-- `AsyncStackId`; zero is no id. -/
abbrev AsyncStackId := Nat

inductive StackResolutionState where
  | pending
  | resolved
  | failed
  | dropped
deriving DecidableEq, Repr, Inhabited

/-- `StackResult`, with frames of whatever type the symbolizer makes. -/
structure StackResult (φ : Type*) where
  id : AsyncStackId
  state : StackResolutionState
  raw : RawStackRecord
  frames : List φ

structure AsyncStackStats where
  accepted : Nat := 0
  duplicates : Nat := 0
  dropped : Nat := 0
  processed : Nat := 0
  failed : Nat := 0
  workerStartFailures : Nat := 0
  recursiveSubmissions : Nat := 0
  queueHighWater : Nat := 0
deriving DecidableEq, Repr

structure SubmitResult where
  id : AsyncStackId := 0
  accepted : Bool := false
  duplicate : Bool := false
  dropped : Bool := false
  rejectedRecursion : Bool := false
deriving DecidableEq, Repr

/-- `RawStackKey`. Its equality compares the first `frame_count` PCs, which are all that `pcs` holds. -/
structure RawStackKey where
  frameCount : Nat
  moduleGeneration : UInt64
  pcs : List Pointer
deriving DecidableEq, Repr

/-- `MakeKey`. -/
def RawStackRecord.makeKey (raw : RawStackRecord) : RawStackKey :=
  ⟨min raw.pcs.length kMaxAsyncRawFrames, raw.moduleGeneration, raw.pcs⟩

/-- A capture without a generation gets the resolver's current one. -/
def RawStackRecord.withGeneration (raw : RawStackRecord) (currentGeneration : UInt64) : RawStackRecord :=
  if raw.moduleGeneration = 0 then { raw with moduleGeneration := currentGeneration } else raw

structure QueueItem where
  id : AsyncStackId
  raw : RawStackRecord
deriving DecidableEq, Inhabited

/-- The members of `AsyncStackPipeline` that `mutex_` protects. `result_capacity_` is `capacity_`. -/
structure Pipeline (φ : Type*) (capacity : Nat) where
  queue : RingBuffer QueueItem capacity
  active : Nat
  stopping : Bool
  joined : Bool
  nextId : AsyncStackId
  stats : AsyncStackStats
  uniqueStacks : AList fun _ : RawStackKey => AsyncStackId
  idToKey : AList fun _ : AsyncStackId => RawStackKey
  results : AList fun _ : AsyncStackId => StackResult φ
  resultOrder : List AsyncStackId
  droppedOrder : List AsyncStackId

namespace Pipeline

variable {φ : Type*} {capacity : Nat}

/-- The constructor. Without a thread key no worker starts and everything is rejected. -/
def initial [NeZero capacity] (keyCreated : Bool) : Pipeline φ capacity where
  queue := .empty default
  active := 0
  stopping := !keyCreated
  joined := false
  nextId := 1
  stats := if keyCreated then {} else { workerStartFailures := 1 }
  uniqueStacks := ∅
  idToKey := ∅
  results := ∅
  resultOrder := []
  droppedOrder := []

variable (pipeline : Pipeline φ capacity)

/-! ### The cache of results -/

variable (id : AsyncStackId)

/-- `EraseResultLocked`. -/
def eraseResult : Pipeline φ capacity :=
  { pipeline with
    uniqueStacks :=
      match pipeline.idToKey.lookup id with
      | some key =>
          if pipeline.uniqueStacks.lookup key = some id then pipeline.uniqueStacks.erase key
          else pipeline.uniqueStacks
      | none => pipeline.uniqueStacks
    idToKey := pipeline.idToKey.erase id
    results := pipeline.results.erase id }

/-- The state of the result with that id, if it is retained. -/
def stateOf : Option StackResolutionState :=
  (pipeline.results.lookup id).map StackResult.state

/-- The loop of `EvictResultCacheLocked`, over what is left of `result_order_`. -/
def evictResultCacheFrom (pipeline : Pipeline φ capacity) : List AsyncStackId → Pipeline φ capacity
  | [] => { pipeline with resultOrder := [] }
  | evicted :: rest =>
      if rest.length + 1 > capacity then
        if pipeline.stateOf evicted = none ∨ pipeline.stateOf evicted = some .pending then
          pipeline.evictResultCacheFrom rest
        else (pipeline.eraseResult evicted).evictResultCacheFrom rest
      else { pipeline with resultOrder := evicted :: rest }

/-- `EvictResultCacheLocked`. -/
def evictResultCache : Pipeline φ capacity := pipeline.evictResultCacheFrom pipeline.resultOrder

/-- The loop of `EvictDroppedCacheLocked`, over what is left of `dropped_order_`. -/
def evictDroppedCacheFrom (pipeline : Pipeline φ capacity) : List AsyncStackId → Pipeline φ capacity
  | [] => { pipeline with droppedOrder := [] }
  | evicted :: rest =>
      if rest.length + 1 > capacity then (pipeline.eraseResult evicted).evictDroppedCacheFrom rest
      else { pipeline with droppedOrder := evicted :: rest }

/-- `EvictDroppedCacheLocked`. -/
def evictDroppedCache : Pipeline φ capacity := pipeline.evictDroppedCacheFrom pipeline.droppedOrder

/-! ### What callers do -/

variable (raw : RawStackRecord)

/-- A new id for a stack, with its result pending. The id is new, so each `emplace` inserts. -/
def addPending : Pipeline φ capacity :=
  { pipeline with
    nextId := pipeline.nextId + 1
    uniqueStacks := pipeline.uniqueStacks.insert raw.makeKey pipeline.nextId
    idToKey := pipeline.idToKey.insert pipeline.nextId raw.makeKey
    results := pipeline.results.insert pipeline.nextId ⟨pipeline.nextId, .pending, raw, []⟩ }

/-- The queue is full: the stack that has just got the id is dropped. -/
def drop : Pipeline φ capacity :=
  { pipeline with
    uniqueStacks := pipeline.uniqueStacks.erase raw.makeKey
    results := pipeline.results.insert id ⟨id, .dropped, raw, []⟩
    droppedOrder := pipeline.droppedOrder ++ [id] }

/-- The stack that has just got the id is queued. -/
def enqueue (room : pipeline.queue.size ≠ capacity) (item : QueueItem) : Pipeline φ capacity :=
  { pipeline with
    queue := pipeline.queue.push room item
    stats := { pipeline.stats with
      accepted := pipeline.stats.accepted + 1
      queueHighWater := max pipeline.stats.queueHighWater (pipeline.queue.size + 1) } }

/-- `++stats_.dropped`. -/
def countDropped : Pipeline φ capacity :=
  { pipeline with stats := { pipeline.stats with dropped := pipeline.stats.dropped + 1 } }

/-- `Submit` past its lookup: a stack that is not known is queued, or dropped when the queue is full. -/
def submitNew : SubmitResult × Pipeline φ capacity :=
  let id := pipeline.nextId
  if full : pipeline.queue.size = capacity then
    ({ id := id, dropped := true }, ((pipeline.addPending raw).drop id raw).evictDroppedCache.countDropped)
  else ({ id := id, accepted := true }, (pipeline.addPending raw).enqueue full ⟨id, raw⟩)

/-- `Submit`; `onWorker` is `AsyncStackWorkerThread()`. -/
def submit (input : RawStackRecord) (onWorker : Bool) (currentGeneration : UInt64) :
    SubmitResult × Pipeline φ capacity :=
  if onWorker then
    ({ rejectedRecursion := true },
      { pipeline with stats := { pipeline.stats with
          recursiveSubmissions := pipeline.stats.recursiveSubmissions + 1 } })
  else
    let raw := input.withGeneration currentGeneration
    if pipeline.stopping then ({}, pipeline)
    else
      match pipeline.uniqueStacks.lookup raw.makeKey with
      | some id =>
          ({ id := id, duplicate := true },
            { pipeline with stats := { pipeline.stats with
                duplicates := pipeline.stats.duplicates + 1 } })
      | none => pipeline.submitNew raw

/-- `Release`. -/
def release : Bool × Pipeline φ capacity :=
  if id = 0 then (false, pipeline)
  else if pipeline.stateOf id = none ∨ pipeline.stateOf id = some .pending then (false, pipeline)
  else
    (true, { pipeline.eraseResult id with
      resultOrder := pipeline.resultOrder.filter (· ≠ id)
      droppedOrder := pipeline.droppedOrder.filter (· ≠ id) })

/-- `GetResult`. -/
def getResult : Option (StackResult φ) := pipeline.results.lookup id

/-- What `Flush` waits for. -/
def idle : Bool := pipeline.queue.size == 0 && pipeline.active == 0

/-! ### What the worker does under the lock -/

/-- Take the oldest item; `none` while the worker has to wait. -/
def dequeue : Option (QueueItem × Pipeline φ capacity) :=
  if pipeline.queue.size = 0 then none
  else some (pipeline.queue.front,
    { pipeline with queue := pipeline.queue.pop, active := pipeline.active + 1 })

/-- `result->second = ...`, if the result is still there. -/
def replaceResult (result : StackResult φ) : Pipeline φ capacity :=
  { pipeline with
    results := if (pipeline.results.lookup result.id).isSome then
      pipeline.results.insert result.id result else pipeline.results }

/-- Publish a result the worker has computed. -/
def publish (completed : StackResult φ) : Pipeline φ capacity :=
  let replaced := pipeline.replaceResult completed
  let ordered := { replaced with resultOrder := replaced.resultOrder ++ [completed.id] }
  let evicted := ordered.evictResultCache
  { evicted with stats := { evicted.stats with
      processed := evicted.stats.processed + 1
      failed := if completed.state = .failed then evicted.stats.failed + 1 else evicted.stats.failed } }

/-- The result of an item that is failed unresolved. -/
def failedResult (item : QueueItem) : StackResult φ := ⟨item.id, .failed, item.raw, []⟩

/-- `fail_result`. -/
def failResult (item : QueueItem) : Pipeline φ capacity :=
  let replaced := pipeline.replaceResult (failedResult item)
  { replaced with stats := { replaced.stats with
      processed := replaced.stats.processed + 1
      failed := replaced.stats.failed + 1 } }

/-- The loop that fails everything queued, as often as there are items, with the results in order. -/
def failQueued (pipeline : Pipeline φ capacity) : Nat → List (StackResult φ) × Pipeline φ capacity
  | 0 => ([], pipeline)
  | n + 1 =>
      let item := pipeline.queue.front
      let failed := pipeline.failResult item
      let rest := { failed with queue := failed.queue.pop }.failQueued n
      (failedResult item :: rest.1, rest.2)

/-- After the worker could not set its marker: the item in hand and everything queued fails. -/
def failMarker (item : QueueItem) : List (StackResult φ) × Pipeline φ capacity :=
  let first := pipeline.failResult item
  let rest := first.failQueued first.queue.size
  (failedResult item :: rest.1,
    { rest.2 with
      active := rest.2.active - 1
      stopping := true
      stats := { rest.2.stats with
        workerStartFailures := rest.2.stats.workerStartFailures + 1 } })

/-! ### What the sections leave alone -/

/-- Two states agree on what there is to do and what was done. -/
structure SameWork (after before : Pipeline φ capacity) : Prop where
  queue : after.queue = before.queue
  active : after.active = before.active
  stopping : after.stopping = before.stopping
  joined : after.joined = before.joined
  nextId : after.nextId = before.nextId
  stats : after.stats = before.stats

theorem SameWork.trans {first second third : Pipeline φ capacity} (one : first.SameWork second)
    (two : second.SameWork third) : first.SameWork third :=
  ⟨one.queue.trans two.queue, one.active.trans two.active, one.stopping.trans two.stopping,
    one.joined.trans two.joined, one.nextId.trans two.nextId, one.stats.trans two.stats⟩

theorem evictResultCacheFrom_sameWork (order : List AsyncStackId) :
    (pipeline.evictResultCacheFrom order).SameWork pipeline := by
  induction order generalizing pipeline with
  | nil => exact ⟨rfl, rfl, rfl, rfl, rfl, rfl⟩
  | cons evicted rest ih =>
      simp only [evictResultCacheFrom]
      split
      · split
        · exact ih pipeline
        · exact (ih _).trans ⟨rfl, rfl, rfl, rfl, rfl, rfl⟩
      · exact ⟨rfl, rfl, rfl, rfl, rfl, rfl⟩

theorem evictDroppedCacheFrom_sameWork (order : List AsyncStackId) :
    (pipeline.evictDroppedCacheFrom order).SameWork pipeline := by
  induction order generalizing pipeline with
  | nil => exact ⟨rfl, rfl, rfl, rfl, rfl, rfl⟩
  | cons evicted rest ih =>
      simp only [evictDroppedCacheFrom]
      split
      · exact (ih _).trans ⟨rfl, rfl, rfl, rfl, rfl, rfl⟩
      · exact ⟨rfl, rfl, rfl, rfl, rfl, rfl⟩

theorem release_sameWork : (pipeline.release id).2.SameWork pipeline := by
  unfold release
  split_ifs <;> exact ⟨rfl, rfl, rfl, rfl, rfl, rfl⟩

/-- `Submit` turns a stack away, at most counting it, or finds it new. -/
theorem submit_cases (input : RawStackRecord) (onWorker : Bool) (currentGeneration : UInt64) :
    (∃ answer stats, pipeline.submit input onWorker currentGeneration =
        (answer, { pipeline with stats := stats }) ∧
      answer.accepted = false ∧ answer.dropped = false ∧
      stats.accepted = pipeline.stats.accepted ∧ stats.processed = pipeline.stats.processed) ∨
    ∃ raw, pipeline.stopping = false ∧ pipeline.uniqueStacks.lookup raw.makeKey = none ∧
      pipeline.submit input onWorker currentGeneration = pipeline.submitNew raw := by
  unfold submit
  split
  · exact .inl ⟨_, _, rfl, rfl, rfl, rfl, rfl⟩
  · simp only
    split
    · exact .inl ⟨_, _, rfl, rfl, rfl, rfl, rfl⟩
    · next accepting =>
        split
        · exact .inl ⟨_, _, rfl, rfl, rfl, rfl, rfl⟩
        · next unknown => exact .inr ⟨_, Bool.eq_false_iff.2 accepting, unknown, rfl⟩

end Pipeline

/-! ### Runs -/

/-- Where the worker is: `absent` was never started, `failing` still has callbacks to run after the marker
failed. -/
inductive WorkerPhase (φ : Type*) where
  | absent
  | waiting
  | marking (item : QueueItem)
  | resolving (item : QueueItem)
  | resolved (completed : StackResult φ)
  | calling (completed : StackResult φ)
  | called
  | failing (remaining : List (StackResult φ))
  | exited

inductive ShutdownPhase where
  | idle
  | joining
  | returned
deriving DecidableEq, Repr

/-- The pipeline with all threads. `flushes` has the ids accepted when a thread's `Flush` began;
`submissions`, `published` and `called` record what happened. -/
structure PipelineRun (τ φ : Type*) (capacity : Nat) where
  pipeline : Pipeline φ capacity
  worker : WorkerPhase φ
  markerSet : Bool
  shutdown : ShutdownPhase
  flushes : τ → Option (List AsyncStackId)
  submissions : List SubmitResult
  published : List AsyncStackId
  called : List AsyncStackId

/-- The steps of `WorkerLoop`, with what `pthread_setspecific`, the resolver and the symbolizer answer. -/
inductive WorkerStep (φ : Type*) where
  | dequeue
  | setMarker (error : Bool)
  | resolve (unresolvedModule symbolized : Bool) (frames : List φ)
  | publish
  | callback
  | finish
  | exit

/-- One step: a call that takes the lock once, a step of the worker, or a step of `Flush` or `Shutdown`. -/
inductive PipelineStep (τ φ : Type*) where
  | submit (input : RawStackRecord) (onWorker : Bool) (currentGeneration : UInt64)
  | release (id : AsyncStackId)
  | getResult (id : AsyncStackId)
  | worker (step : WorkerStep φ)
  | flushBegin (t : τ)
  | flushReturn (t : τ)
  | shutdownBegin
  | shutdownJoin

namespace PipelineRun

variable {τ φ : Type*} {capacity : Nat}

def initial [NeZero capacity] (keyCreated : Bool) : PipelineRun τ φ capacity where
  pipeline := .initial keyCreated
  worker := if keyCreated then .waiting else .absent
  markerSet := false
  shutdown := .idle
  flushes := fun _ => none
  submissions := []
  published := []
  called := []

variable (run : PipelineRun τ φ capacity)

/-- The ids that `Submit` has accepted, in order. -/
def accepted : List AsyncStackId := (run.submissions.filter SubmitResult.accepted).map SubmitResult.id

def workerStep : WorkerStep φ → Option (PipelineRun τ φ capacity)
  | .dequeue =>
      match run.worker with
      | .waiting => run.pipeline.dequeue.map fun taken =>
          { run with
            pipeline := taken.2
            worker := if run.markerSet then .resolving taken.1 else .marking taken.1 }
      | _ => none
  | .setMarker error =>
      match run.worker with
      | .marking item =>
          if error then
            let failed := run.pipeline.failMarker item
            some { run with
              pipeline := failed.2
              worker := .failing failed.1
              published := run.published ++ failed.1.map StackResult.id }
          else some { run with markerSet := true, worker := .resolving item }
      | _ => none
  | .resolve unresolvedModule symbolized frames =>
      match run.worker with
      | .resolving item => some { run with
          worker := .resolved ⟨item.id,
            if symbolized && !unresolvedModule then .resolved else .failed, item.raw, frames⟩ }
      | _ => none
  | .publish =>
      match run.worker with
      | .resolved completed => some { run with
          pipeline := run.pipeline.publish completed
          worker := .calling completed
          published := run.published ++ [completed.id] }
      | _ => none
  | .callback =>
      match run.worker with
      | .calling completed =>
          some { run with worker := .called, called := run.called ++ [completed.id] }
      | .failing (failed :: rest) =>
          some { run with worker := .failing rest, called := run.called ++ [failed.id] }
      | _ => none
  | .finish =>
      match run.worker with
      | .called => some { run with
          pipeline := { run.pipeline with active := run.pipeline.active - 1 }
          worker := .waiting }
      | .failing [] => some { run with worker := .exited }
      | _ => none
  | .exit =>
      match run.worker with
      | .waiting =>
          if run.pipeline.queue.size = 0 ∧ run.pipeline.stopping = true then
            some { run with worker := .exited }
          else none
      | _ => none

/-- All that a step of the worker can do: the phase it is taken in, and what it leaves. -/
inductive WorkerMove : PipelineRun τ φ capacity → Prop where
  | dequeue (waiting : run.worker = .waiting) (nonempty : run.pipeline.queue.size ≠ 0) :
      WorkerMove { run with
        pipeline := { run.pipeline with queue := run.pipeline.queue.pop, active := run.pipeline.active + 1 }
        worker := if run.markerSet then .resolving run.pipeline.queue.front
          else .marking run.pipeline.queue.front }
  | failMarker {item : QueueItem} (marking : run.worker = .marking item) :
      WorkerMove { run with
        pipeline := (run.pipeline.failMarker item).2
        worker := .failing (run.pipeline.failMarker item).1
        published := run.published ++ (run.pipeline.failMarker item).1.map StackResult.id }
  | setMarker {item : QueueItem} (marking : run.worker = .marking item) :
      WorkerMove { run with markerSet := true, worker := .resolving item }
  | resolve {item : QueueItem} (resolving : run.worker = .resolving item)
    (unresolvedModule symbolized : Bool)
      (frames : List φ) :
      WorkerMove { run with
        worker := .resolved ⟨item.id, if symbolized && !unresolvedModule then .resolved
          else .failed, item.raw, frames⟩ }
  | publish {completed : StackResult φ} (resolved : run.worker = .resolved completed) :
      WorkerMove { run with
        pipeline := run.pipeline.publish completed
        worker := .calling completed
        published := run.published ++ [completed.id] }
  | callback {completed : StackResult φ} (calling : run.worker = .calling completed) :
      WorkerMove { run with worker := .called, called := run.called ++ [completed.id] }
  | callbackFailed {failed : StackResult φ} {rest : List (StackResult φ)}
      (failing : run.worker = .failing (failed :: rest)) :
      WorkerMove { run with worker := .failing rest, called := run.called ++ [failed.id] }
  | finish (called : run.worker = .called) :
      WorkerMove { run with
        pipeline := { run.pipeline with active := run.pipeline.active - 1 }
        worker := .waiting }
  | finishFailed (failing : run.worker = .failing []) : WorkerMove { run with worker := .exited }
  | exit (waiting : run.worker = .waiting) (empty : run.pipeline.queue.size = 0)
      (stopping : run.pipeline.stopping = true) : WorkerMove { run with worker := .exited }

theorem workerMove {run' : PipelineRun τ φ capacity} {step : WorkerStep φ}
    (stepped : run.workerStep step = some run') : run.WorkerMove run' := by
  cases step
  all_goals simp only [workerStep] at stepped
  case dequeue =>
    split at stepped
    · next waiting =>
        obtain ⟨⟨item, pipeline⟩, taken, rfl⟩ := Option.map_eq_some_iff.1 stepped
        simp only [Pipeline.dequeue, Option.ite_none_left_eq_some, Option.some.injEq, Prod.mk.injEq] at taken
        obtain ⟨nonempty, rfl, rfl⟩ := taken
        exact .dequeue waiting nonempty
    · cases stepped
  case setMarker error =>
    split at stepped
    · next item marking =>
        cases error <;> cases stepped
        · exact .setMarker marking
        · exact .failMarker marking
    · cases stepped
  case resolve unresolvedModule symbolized frames =>
    split at stepped <;> cases stepped
    next item resolving => exact .resolve resolving unresolvedModule symbolized frames
  case publish =>
    split at stepped <;> cases stepped
    next completed resolved => exact .publish resolved
  case callback =>
    split at stepped <;> cases stepped
    · next completed calling => exact .callback calling
    · next failed rest failing => exact .callbackFailed failing
  case finish =>
    split at stepped <;> cases stepped
    · next called => exact .finish called
    · next failing => exact .finishFailed failing
  case exit =>
    split at stepped
    · next waiting =>
        obtain ⟨⟨empty, stopping⟩, ⟨⟩⟩ := Option.ite_none_right_eq_some.1 stepped
        exact .exit waiting empty stopping
    · cases stepped

/-- Whether `worker_.join()` returns, or there is nothing to join. -/
def joins : Bool :=
  match run.worker with
  | .absent | .exited => true
  | _ => false

def step [DecidableEq τ] : PipelineStep τ φ → Option (PipelineRun τ φ capacity)
  | .submit input onWorker currentGeneration =>
      let submitted := run.pipeline.submit input onWorker currentGeneration
      some { run with pipeline := submitted.2, submissions := run.submissions ++ [submitted.1] }
  | .release id => some { run with pipeline := (run.pipeline.release id).2 }
  | .getResult _ => some run
  | .worker step => run.workerStep step
  | .flushBegin t =>
      match run.flushes t with
      | none => some { run with flushes := Function.update run.flushes t (some run.accepted) }
      | some _ => none
  | .flushReturn t =>
      match run.flushes t with
      | some _ =>
          if run.pipeline.idle then some { run with flushes := Function.update run.flushes t none }
          else none
      | none => none
  | .shutdownBegin =>
      if run.shutdown = .joining then none
      else if run.pipeline.joined then some { run with shutdown := .returned }
      else some { run with
        pipeline := { run.pipeline with stopping := true }
        shutdown := .joining }
  | .shutdownJoin =>
      if run.shutdown = .joining ∧ run.joins = true then
        some { run with
          pipeline := { run.pipeline with joined := true }
          shutdown := .returned }
      else none

end PipelineRun

/-- All interleavings of callers, worker, `Flush` and `Shutdown`. -/
def asyncPipeline (τ φ : Type*) [DecidableEq τ] (capacity : Nat) [NeZero capacity] (keyCreated : Bool) :
    Machine (PipelineRun τ φ capacity) (PipelineStep τ φ) where
  init := .initial keyCreated
  step := fun run => run.step

end MallocHook
