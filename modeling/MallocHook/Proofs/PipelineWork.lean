/-
Module: MallocHook.Proofs.PipelineWork
Purpose: The ids that `Submit` accepted are, in order, those whose callback has returned or is still to
  run, the one in hand and the queued ones; each step moves ids along this line.
Trusted boundary: none
Main exports: Conserved, flush_waits_for_callbacks
-/
import MallocHook.Core.AsyncPipeline

namespace MallocHook

open List Function

variable {τ φ : Type*} {capacity : Nat}

/-! ### What is counted -/

namespace Pipeline

variable (pipeline : Pipeline φ capacity)

/-- Publishing counts one item. -/
theorem publish_spec (completed : StackResult φ) :
    (pipeline.publish completed).queue = pipeline.queue ∧
      (pipeline.publish completed).active = pipeline.active ∧
      (pipeline.publish completed).stopping = pipeline.stopping ∧
      (pipeline.publish completed).joined = pipeline.joined ∧
      (pipeline.publish completed).nextId = pipeline.nextId ∧
      (pipeline.publish completed).stats.accepted = pipeline.stats.accepted ∧
      (pipeline.publish completed).stats.processed = pipeline.stats.processed + 1 := by
  let replaced := pipeline.replaceResult completed
  let ordered := { replaced with resultOrder := replaced.resultOrder ++ [completed.id] }
  have same : ordered.evictResultCache.SameWork ordered := evictResultCacheFrom_sameWork _ _
  have accepted : ordered.evictResultCache.stats.accepted = pipeline.stats.accepted := by
    rw [same.stats]
    rfl
  have processed : ordered.evictResultCache.stats.processed = pipeline.stats.processed := by
    rw [same.stats]
    rfl
  exact ⟨same.queue, same.active, same.stopping, same.joined, same.nextId, accepted,
    congrArg (· + 1) processed⟩

/-- The loop takes every item in order and counts it. -/
theorem failQueued_spec {n : Nat} (all : pipeline.queue.size = n) :
    (pipeline.failQueued n).1 = pipeline.queue.toList.map failedResult ∧
      (pipeline.failQueued n).2.queue.size = 0 ∧
      (pipeline.failQueued n).2.active = pipeline.active ∧
      (pipeline.failQueued n).2.joined = pipeline.joined ∧
      (pipeline.failQueued n).2.nextId = pipeline.nextId ∧
      (pipeline.failQueued n).2.stats.accepted = pipeline.stats.accepted ∧
      (pipeline.failQueued n).2.stats.processed = pipeline.stats.processed + n := by
  induction n generalizing pipeline with
  | zero =>
      have empty := pipeline.queue.toList_eq_nil.2 all
      simp [failQueued, all, empty]
  | succ n ih =>
      have nonempty : pipeline.queue.size ≠ 0 := by omega
      have popped : pipeline.queue.pop.size = n := by simp [RingBuffer.pop, all]
      let rest := { pipeline.failResult pipeline.queue.front with queue := pipeline.queue.pop }
      obtain ⟨taken, empty, active, joined, nextId, accepted, processed⟩ := ih rest popped
      refine ⟨?_, empty, active, joined, nextId, accepted, processed.trans ?_⟩
      · rw [pipeline.queue.toList_pop nonempty, map_cons]
        exact congrArg (failedResult pipeline.queue.front :: ·) taken
      · change pipeline.stats.processed + 1 + n = _
        omega

/-- The section after a failed marker takes the item in hand and all that is queued. -/
theorem failMarker_spec (item : QueueItem) :
    (pipeline.failMarker item).1.map StackResult.id =
        item.id :: pipeline.queue.toList.map QueueItem.id ∧
      (pipeline.failMarker item).2.queue.size = 0 ∧
      (pipeline.failMarker item).2.active = pipeline.active - 1 ∧
      (pipeline.failMarker item).2.stopping = true ∧
      (pipeline.failMarker item).2.joined = pipeline.joined ∧
      (pipeline.failMarker item).2.nextId = pipeline.nextId ∧
      (pipeline.failMarker item).2.stats.accepted = pipeline.stats.accepted ∧
      (pipeline.failMarker item).2.stats.processed = pipeline.stats.processed + 1 + pipeline.queue.size := by
  obtain ⟨taken, empty, active, joined, nextId, accepted, processed⟩ :=
    (pipeline.failResult item).failQueued_spec rfl
  refine ⟨?_, empty, congrArg (· - 1) active, rfl, joined, nextId, accepted, processed⟩
  refine congrArg (item.id :: ·) ?_
  rw [taken, map_map]
  rfl

end Pipeline

/-! ### The line -/

namespace WorkerPhase

/-- The item the worker has taken and not published. -/
def inHand : WorkerPhase φ → List AsyncStackId
  | .marking item | .resolving item => [item.id]
  | .resolved completed => [completed.id]
  | _ => []

/-- What was published and still awaits its callback. -/
def outstanding : WorkerPhase φ → List AsyncStackId
  | .calling completed => [completed.id]
  | .failing remaining => remaining.map StackResult.id
  | _ => []

/-- The worker is between taking an item and being done with it. -/
def busy : WorkerPhase φ → Bool
  | .marking _ | .resolving _ | .resolved _ | .calling _ | .called => true
  | _ => false

/-- The worker takes no more items. -/
def ended : WorkerPhase φ → Bool
  | .absent | .failing _ | .exited => true
  | _ => false

end WorkerPhase

/-- A worker that can be joined takes no more items. -/
theorem PipelineRun.ended_of_joins {run : PipelineRun τ φ capacity} (joins : run.joins = true) :
    run.worker.ended = true := by
  unfold PipelineRun.joins at joins
  split at joins
  · next absent => rw [absent]; rfl
  · next exited => rw [exited]; rfl
  · cases joins

/-- A worker that can be joined has nothing left. -/
theorem PipelineRun.nothing_of_joins {run : PipelineRun τ φ capacity} (joins : run.joins = true) :
    run.worker.inHand = [] ∧ run.worker.outstanding = [] := by
  unfold PipelineRun.joins at joins
  split at joins
  · next absent => rw [absent]; exact ⟨rfl, rfl⟩
  · next exited => rw [exited]; exact ⟨rfl, rfl⟩
  · cases joins

/-- The ids that `Submit` has given out. -/
def PipelineRun.given (run : PipelineRun τ φ capacity) : List AsyncStackId :=
  (run.submissions.filter fun answer => answer.accepted || answer.dropped).map SubmitResult.id

/-- Nothing is lost, repeated or reordered. -/
structure Conserved (run : PipelineRun τ φ capacity) : Prop where
  line : run.accepted = run.published ++ (run.worker.inHand ++ run.pipeline.queue.toList.map QueueItem.id)
  callbacks : run.published = run.called ++ run.worker.outstanding
  accepted : run.pipeline.stats.accepted = run.accepted.length
  processed : run.pipeline.stats.processed = run.published.length
  active : run.pipeline.active = if run.worker.busy then 1 else 0
  ended : run.worker.ended = true → run.pipeline.stopping = true ∧ run.pipeline.queue.size = 0
  joined : run.pipeline.joined = true → run.joins = true
  stopped : run.shutdown ≠ .idle → run.pipeline.stopping = true
  returned : run.shutdown = .returned → run.joins = true
  exclusive : ∀ answer ∈ run.submissions, answer.accepted = true →
    answer.dropped = false ∧ answer.duplicate = false ∧ answer.rejectedRecursion = false
  distinct : run.given.Nodup
  fresh : ∀ id ∈ run.given, id < run.pipeline.nextId
  flushes : ∀ t ids, run.flushes t = some ids → ids ⊆ run.accepted

namespace Conserved

variable {run run' : PipelineRun τ φ capacity}

theorem initial [NeZero capacity] (keyCreated : Bool) :
    Conserved (.initial keyCreated : PipelineRun τ φ capacity) := by
  cases keyCreated <;>
    exact ⟨rfl, rfl, rfl, rfl, rfl, by simp [PipelineRun.initial, Pipeline.initial, WorkerPhase.ended,
      RingBuffer.empty], by simp [PipelineRun.initial, Pipeline.initial], by simp [PipelineRun.initial],
      by simp [PipelineRun.initial], by simp [PipelineRun.initial],
      by simp [PipelineRun.given, PipelineRun.initial], by simp [PipelineRun.given, PipelineRun.initial],
      by simp [PipelineRun.initial]⟩

variable {pipeline : Pipeline φ capacity}

section

variable (conserved : Conserved run)
include conserved

/-- What a step of a worker that has not ended has to show: it moves ids along the line. -/
theorem advance (running : run.joins = false) {worker : WorkerPhase φ} {markerSet : Bool}
    {published called : List AsyncStackId}
    (line : run.accepted = published ++ (worker.inHand ++ pipeline.queue.toList.map QueueItem.id))
    (callbacks : published = called ++ worker.outstanding)
    (accepted : pipeline.stats.accepted = run.pipeline.stats.accepted)
    (processed : pipeline.stats.processed = published.length)
    (active : pipeline.active = if worker.busy then 1 else 0)
    (ended : worker.ended = true → pipeline.stopping = true ∧ pipeline.queue.size = 0)
    (stopping : run.pipeline.stopping = true → pipeline.stopping = true)
    (joined : pipeline.joined = run.pipeline.joined) (nextId : pipeline.nextId = run.pipeline.nextId) :
    Conserved { run with
      pipeline := pipeline, worker := worker, markerSet := markerSet, published := published,
      called := called } where
  line := line
  callbacks := callbacks
  accepted := accepted.trans conserved.accepted
  processed := processed
  active := active
  ended := ended
  joined isJoined := by
    rw [conserved.joined (joined.symm.trans isJoined)] at running
    cases running
  stopped begun := stopping (conserved.stopped begun)
  returned isReturned := by
    rw [conserved.returned isReturned] at running
    cases running
  exclusive := conserved.exclusive
  distinct := conserved.distinct
  fresh id member := (conserved.fresh id member).trans_eq nextId.symm
  flushes := conserved.flushes

/-- Every step of the worker. -/
theorem worker (moved : run.WorkerMove run') : Conserved run' := by
  have line := conserved.line
  have callbacks := conserved.callbacks
  have processed := conserved.processed
  have active := conserved.active
  have running : run.joins = false := by cases moved <;> simp [PipelineRun.joins, *]
  cases moved with
  | dequeue waiting nonempty =>
      rw [waiting] at callbacks active
      rw [waiting, run.pipeline.queue.toList_pop nonempty] at line
      cases run.markerSet <;>
        exact conserved.advance running line callbacks rfl processed
          (congrArg (· + 1) active) (by simp [WorkerPhase.ended]) id rfl rfl
  | @failMarker item marking =>
      rw [marking] at line callbacks active
      obtain ⟨ids, empty, inactive, stopping, joined, nextId, accepted, counted⟩ :=
        run.pipeline.failMarker_spec item
      refine conserved.advance running ?_ ?_ accepted ?_ ?_
        (fun _ => ⟨stopping, empty⟩) (fun _ => stopping) joined nextId
      · rw [ids, (RingBuffer.toList_eq_nil _).2 empty, line]
        simp [WorkerPhase.inHand]
      · rw [callbacks]
        simp [WorkerPhase.outstanding]
      · rw [counted, length_append, ids, processed]
        simp
        omega
      · rw [inactive, active]
        rfl
  | setMarker marking =>
      rw [marking] at line callbacks active
      exact conserved.advance running line callbacks rfl processed active
        (by simp [WorkerPhase.ended]) id rfl rfl
  | resolve resolving =>
      rw [resolving] at line callbacks active
      exact conserved.advance running line callbacks rfl processed active
        (by simp [WorkerPhase.ended]) id rfl rfl
  | @publish completed resolved =>
      rw [resolved] at line callbacks active
      obtain ⟨queue, isActive, stopping, joined, nextId, accepted, counted⟩ :=
        run.pipeline.publish_spec completed
      refine conserved.advance running ?_ ?_ accepted ?_
        (isActive.trans active) (by simp [WorkerPhase.ended]) stopping.trans joined nextId
      · rw [queue, line]
        simp [WorkerPhase.inHand]
      · rw [callbacks]
        simp [WorkerPhase.outstanding]
      · rw [counted, processed, length_append]
        rfl
  | callback calling =>
      rw [calling] at line callbacks active
      exact conserved.advance running line (by simpa [WorkerPhase.outstanding] using callbacks) rfl
        processed active
        (by simp [WorkerPhase.ended]) id rfl rfl
  | callbackFailed failing =>
      have ended := conserved.ended (by rw [failing]; rfl)
      rw [failing] at line callbacks active
      exact conserved.advance running line
        (by simpa [WorkerPhase.outstanding] using callbacks) rfl processed active (fun _ => ended) id rfl rfl
  | finish called =>
      rw [called] at line callbacks active
      exact conserved.advance running line callbacks rfl processed
        (congrArg (· - 1) active) (by simp [WorkerPhase.ended]) id rfl rfl
  | finishFailed failing =>
      have ended := conserved.ended (by rw [failing]; rfl)
      rw [failing] at line callbacks active
      exact conserved.advance running line callbacks rfl processed active (fun _ => ended) id rfl rfl
  | exit waiting empty stopping =>
      rw [waiting] at line callbacks active
      exact conserved.advance running line callbacks rfl processed active
        (fun _ => ⟨stopping, empty⟩) id rfl rfl

/-- A call that touches neither the line nor what `Submit` has given out. -/
theorem sameWork (same : pipeline.SameWork run.pipeline) : Conserved { run with pipeline := pipeline } where
  line := conserved.line.trans (by rw [same.queue])
  callbacks := conserved.callbacks
  accepted := by rw [same.stats]; exact conserved.accepted
  processed := by rw [same.stats]; exact conserved.processed
  active := same.active.trans conserved.active
  ended isEnded := by rw [same.stopping, same.queue]; exact conserved.ended isEnded
  joined isJoined := conserved.joined (same.joined.symm.trans isJoined)
  stopped begun := same.stopping.trans (conserved.stopped begun)
  returned := conserved.returned
  exclusive := conserved.exclusive
  distinct := conserved.distinct
  fresh id member := (conserved.fresh id member).trans_eq same.nextId.symm
  flushes := conserved.flushes

/-- What `Submit` answers: an id it gives out is new, and an accepted one joins the end of the line. -/
theorem submitted {answer : SubmitResult} (queue : pipeline.queue.toList.map QueueItem.id =
      run.pipeline.queue.toList.map QueueItem.id ++ if answer.accepted then [answer.id] else [])
    (accepted : pipeline.stats.accepted = run.pipeline.stats.accepted + if answer.accepted then 1 else 0)
    (processed : pipeline.stats.processed = run.pipeline.stats.processed)
    (active : pipeline.active = run.pipeline.active) (stopping : pipeline.stopping = run.pipeline.stopping)
    (joined : pipeline.joined = run.pipeline.joined)
    (refused : run.pipeline.stopping = true → answer.accepted = false)
    (exclusive : answer.accepted = true →
      answer.dropped = false ∧ answer.duplicate = false ∧ answer.rejectedRecursion = false)
    (nextId : run.pipeline.nextId ≤ pipeline.nextId)
    (newId : answer.accepted = true ∨ answer.dropped = true →
      answer.id = run.pipeline.nextId ∧ run.pipeline.nextId < pipeline.nextId) :
    Conserved { run with pipeline := pipeline, submissions := run.submissions ++ [answer] } := by
  have acceptedIds : ((run.submissions ++ [answer]).filter SubmitResult.accepted).map SubmitResult.id =
      run.accepted ++ if answer.accepted then [answer.id] else [] := by
    rw [filter_append, map_append]
    cases isAccepted : answer.accepted <;> simp [PipelineRun.accepted, isAccepted]
  have givenIds : ((run.submissions ++ [answer]).filter fun answer =>
      answer.accepted || answer.dropped).map SubmitResult.id =
        run.given ++ if answer.accepted || answer.dropped then [answer.id] else [] := by
    rw [filter_append, map_append]
    cases isGiven : answer.accepted || answer.dropped <;> simp [PipelineRun.given, isGiven]
  have isNew : ∀ id ∈ (if answer.accepted || answer.dropped then [answer.id] else []),
      id = run.pipeline.nextId ∧ run.pipeline.nextId < pipeline.nextId := by
    intro id member
    cases isGiven : answer.accepted || answer.dropped with
    | false => simp [isGiven] at member
    | true =>
        rw [isGiven, if_pos rfl, mem_singleton] at member
        exact member ▸ newId (by simpa using isGiven)
  constructor
  case line =>
    refine acceptedIds.trans ?_
    rw [conserved.line, queue]
    simp
  case callbacks => exact conserved.callbacks
  case accepted =>
    refine accepted.trans ?_
    rw [PipelineRun.accepted, acceptedIds, conserved.accepted, length_append]
    split <;> rfl
  case processed => exact processed.trans conserved.processed
  case active => exact active.trans conserved.active
  case ended =>
    intro isEnded
    obtain ⟨isStopping, empty⟩ := conserved.ended isEnded
    refine ⟨stopping.trans isStopping, ?_⟩
    have length := congrArg List.length queue
    simpa [refused isStopping, empty] using length
  case joined => exact fun isJoined => conserved.joined (joined.symm.trans isJoined)
  case stopped => exact fun begun => stopping.trans (conserved.stopped begun)
  case returned => exact conserved.returned
  case exclusive =>
    intro other member
    rcases mem_append.1 member with before | now
    · exact conserved.exclusive other before
    · exact mem_singleton.1 now ▸ exclusive
  case distinct =>
    rw [PipelineRun.given, givenIds]
    refine nodup_append.2 ⟨conserved.distinct, by split <;> simp, ?_⟩
    intro id member other isOther same
    have older := conserved.fresh id member
    rw [same, (isNew other isOther).1] at older
    exact lt_irrefl _ older
  case fresh =>
    intro id member
    rw [PipelineRun.given, givenIds] at member
    rcases mem_append.1 member with before | now
    · exact (conserved.fresh id before).trans_le nextId
    · obtain ⟨same, later⟩ := isNew id now
      exact same ▸ later
  case flushes =>
    intro t ids waiting
    rw [PipelineRun.accepted, acceptedIds]
    exact List.Subset.trans (conserved.flushes t ids waiting) (subset_append_left _ _)

/-- A stack that is new to `Submit`: the dropped one leaves the queue as it is. -/
theorem submitNew (raw : RawStackRecord) (accepting : run.pipeline.stopping = false) :
    Conserved { run with
      pipeline := (run.pipeline.submitNew raw).2
      submissions := run.submissions ++ [(run.pipeline.submitNew raw).1] } := by
  have notRefused : ∀ answer : SubmitResult,
      run.pipeline.stopping = true → answer.accepted = false := by simp [accepting]
  unfold Pipeline.submitNew
  simp only
  split
  · let added := (run.pipeline.addPending raw).drop run.pipeline.nextId raw
    have same : added.evictDroppedCache.SameWork added := Pipeline.evictDroppedCacheFrom_sameWork _ _
    have later : run.pipeline.nextId < added.evictDroppedCache.nextId :=
      (Nat.lt_succ_self _).trans_eq same.nextId.symm
    refine conserved.submitted ?_ ?_ ?_ same.active same.stopping same.joined (notRefused _)
      (fun accepted => nomatch accepted) later.le (fun _ => ⟨rfl, later⟩)
    · change added.evictDroppedCache.queue.toList.map _ = _
      rw [same.queue]
      exact (append_nil _).symm
    · change added.evictDroppedCache.stats.accepted = _
      rw [same.stats]
      rfl
    · change added.evictDroppedCache.stats.processed = _
      rw [same.stats]
      rfl
  · next room =>
      refine conserved.submitted ?_ rfl rfl rfl rfl rfl (notRefused _) (fun _ => ⟨rfl, rfl, rfl⟩)
        (Nat.le_succ _) (fun _ => ⟨rfl, Nat.lt_succ_self _⟩)
      change (run.pipeline.queue.push room _).toList.map _ = _
      rw [RingBuffer.toList_push, map_append]
      rfl

/-- Every call of `Submit`. -/
theorem submit (input : RawStackRecord) (onWorker : Bool) (currentGeneration : UInt64) :
    Conserved { run with
      pipeline := (run.pipeline.submit input onWorker currentGeneration).2
      submissions := run.submissions ++ [(run.pipeline.submit input onWorker currentGeneration).1] } := by
  rcases run.pipeline.submit_cases input onWorker currentGeneration with
    ⟨answer, stats, answered, notAccepted, notDropped, accepted, processed⟩ | ⟨raw, accepting, -, isNew⟩
  · rw [answered]
    exact conserved.submitted (by simp [notAccepted]) (by simp [notAccepted, accepted]) processed rfl rfl rfl
      (fun _ => notAccepted) (by simp [notAccepted]) le_rfl (by simp [notAccepted, notDropped])
  · rw [isNew]
    exact conserved.submitNew raw accepting

/-- No id is accepted twice. -/
theorem accepted_nodup : run.accepted.Nodup := by
  have part : run.accepted.Sublist run.given :=
    (monotone_filter_right _ fun answer isAccepted => by simp [isAccepted]).map _
  exact conserved.distinct.sublist part

/-- What was published was accepted. -/
theorem published_subset : run.published ⊆ run.accepted := by
  rw [conserved.line]
  exact subset_append_left _ _

/-- A dropped stack has an id of its own. -/
theorem dropped_not_accepted {answer : SubmitResult} (member : answer ∈ run.submissions)
    (dropped : answer.dropped = true) : answer.id ∉ run.accepted := by
  intro isAccepted
  obtain ⟨other, found, same⟩ := mem_map.1 isAccepted
  obtain ⟨submitted, accepted⟩ := mem_filter.1 found
  have isGiven : answer ∈ run.submissions.filter fun answer => answer.accepted || answer.dropped :=
    mem_filter.2 ⟨member, by simp [dropped]⟩
  have isGiven' : other ∈ run.submissions.filter fun answer => answer.accepted || answer.dropped :=
    mem_filter.2 ⟨submitted, by simp [accepted]⟩
  have equal : other = answer := inj_on_of_nodup_map conserved.distinct isGiven' isGiven same
  have notDropped := (conserved.exclusive other submitted accepted).1
  rw [equal, dropped] at notDropped
  cases notDropped

/-- When `Flush` can return nothing is queued or in hand, and only a failed marker leaves callbacks to
run. -/
theorem accepted_of_idle (idle : run.pipeline.idle = true) :
    run.accepted = run.called ++ run.worker.outstanding ∧ run.worker.busy = false := by
  simp only [Pipeline.idle, Bool.and_eq_true, beq_iff_eq] at idle
  have active := conserved.active
  have notBusy : run.worker.busy = false := by
    by_contra busy
    rw [Bool.not_eq_false] at busy
    rw [idle.2, busy] at active
    cases active
  have notInHand : run.worker.inHand = [] := by
    cases phase : run.worker <;> simp_all [WorkerPhase.busy, WorkerPhase.inHand]
  refine ⟨?_, notBusy⟩
  rw [conserved.line, conserved.callbacks, notInHand, (RingBuffer.toList_eq_nil _).2 idle.1]
  simp

end

variable [DecidableEq τ]

/-- A `Flush` begins or returns. -/
theorem flushed (conserved : Conserved run) (t : τ) {waits : Option (List AsyncStackId)}
    (earlier : ∀ ids, waits = some ids → ids ⊆ run.accepted) :
    Conserved { run with flushes := update run.flushes t waits } := by
  refine { conserved with flushes := ?_ }
  change ∀ waiter ids, update run.flushes t waits waiter = some ids → ids ⊆ run.accepted
  intro waiter ids waiting
  by_cases same : waiter = t
  · rw [same, update_self] at waiting
    exact earlier ids waiting
  · rw [update_of_ne same] at waiting
    exact conserved.flushes waiter ids waiting

/-- Every step. -/
theorem step (conserved : Conserved run) {action : PipelineStep τ φ}
    (stepped : run.step action = some run') : Conserved run' := by
  cases action with
  | submit input onWorker currentGeneration =>
      cases stepped
      exact conserved.submit input onWorker currentGeneration
  | release id =>
      cases stepped
      exact conserved.sameWork (run.pipeline.release_sameWork id)
  | getResult id =>
      cases stepped
      exact conserved
  | worker step => exact conserved.worker (run.workerMove stepped)
  | flushBegin t =>
      simp only [PipelineRun.step] at stepped
      split at stepped <;> cases stepped
      exact conserved.flushed t fun ids same => Option.some.inj same ▸ List.Subset.refl _
  | flushReturn t =>
      simp only [PipelineRun.step] at stepped
      split at stepped
      · obtain ⟨-, same⟩ := Option.ite_none_right_eq_some.1 stepped
        cases same
        exact conserved.flushed t fun ids same => nomatch same
      · cases stepped
  | shutdownBegin =>
      obtain ⟨-, begun⟩ := Option.ite_none_left_eq_some.1 stepped
      split at begun <;> cases begun
      · next isJoined =>
          have joins := conserved.joined isJoined
          have ended : run.worker.ended = true := PipelineRun.ended_of_joins joins
          exact { conserved with
            stopped := fun _ => (conserved.ended ended).1
            returned := fun _ => joins }
      · exact { conserved with
          ended := fun isEnded => ⟨rfl, (conserved.ended isEnded).2⟩
          stopped := fun _ => rfl
          returned := fun returned => nomatch returned }
  | shutdownJoin =>
      obtain ⟨⟨joining, joins⟩, ⟨⟩⟩ := Option.ite_none_right_eq_some.1 stepped
      exact { conserved with
        joined := fun _ => joins
        stopped := fun _ => conserved.stopped (by simp [joining])
        returned := fun _ => joins }

end Conserved

variable [DecidableEq τ] [NeZero capacity] {keyCreated : Bool} {run run' : PipelineRun τ φ capacity}

theorem conserved_of_reachable (reached : (asyncPipeline τ φ capacity keyCreated).Reachable run) :
    Conserved run :=
  Machine.ReachableBy.invariant (Conserved.initial keyCreated)
    (fun conserved _ stepped => conserved.step stepped) reached

theorem length_singleton_le_maxFrames (pc : Pointer) : [pc].length ≤ kMaxAsyncRawFrames := by
  simp [kMaxAsyncRawFrames]

/-- A stack of one frame whose capture names the module generation. -/
def pcRecord (pc : Pointer) : RawStackRecord := ⟨.complete, 0, 1, [pc], length_singleton_le_maxFrames pc⟩

/-- `Submit` of such a stack, not on the worker. -/
def submitPc (pc : Pointer) : PipelineStep τ φ := .submit (pcRecord pc) false 1

/-! ### Flush -/

/-- A `Flush` that returns has waited for the callbacks of everything accepted before it began, exactly if
the worker is not in the middle of the callbacks it makes after a failed marker with one of those still to
come. -/
theorem flush_waits_for_callbacks {t : τ} {ids : List AsyncStackId}
    (reached : (asyncPipeline τ φ capacity keyCreated).Reachable run) (flushing : run.flushes t = some ids)
    (returned : run.step (.flushReturn t) = some run') :
    (∀ id ∈ ids, id ∈ run'.called) ↔
      ∀ remaining, run.worker = .failing remaining → ∀ failed ∈ remaining, failed.id ∉ ids := by
  have conserved := conserved_of_reachable reached
  simp only [PipelineRun.step, flushing] at returned
  obtain ⟨idle, same⟩ := Option.ite_none_right_eq_some.1 returned
  have isCalled : run'.called = run.called := by
    cases same
    rfl
  obtain ⟨accepted, notBusy⟩ := conserved.accepted_of_idle idle
  rw [isCalled]
  constructor
  · intro called remaining failing failed member waiting
    have distinct := conserved.accepted_nodup
    rw [accepted, failing] at distinct
    exact disjoint_of_nodup_append distinct (called _ waiting) (mem_map_of_mem member)
  · intro noFailed id waiting
    have isAccepted := conserved.flushes t ids flushing waiting
    rw [accepted] at isAccepted
    rcases mem_append.1 isAccepted with called | outstanding
    · exact called
    · cases phase : run.worker with
      | failing remaining =>
          rw [phase] at outstanding
          obtain ⟨failed, member, isFailed⟩ := mem_map.1 outstanding
          exact absurd (isFailed ▸ waiting) (noFailed remaining phase failed member)
      | calling completed =>
          rw [phase] at notBusy
          cases notBusy
      | _ =>
          rw [phase] at outstanding
          cases outstanding

/-- A run in which everything is called back before `Flush` returns. -/
theorem flush_waits_for_callbacks_finished : ∃ run run' : PipelineRun Unit Unit 1,
    (asyncPipeline Unit Unit 1 true).Reachable run ∧ run.flushes () = some [1] ∧
      run.step (.flushReturn ()) = some run' ∧ 1 ∈ run'.called := by
  obtain ⟨run, ran, run', returned, flushing, nothing⟩ :
    ∃ run ∈ (asyncPipeline Unit Unit 1 true).run (.initial true)
      [submitPc 7, .flushBegin (), .worker .dequeue, .worker (.setMarker false),
        .worker (.resolve false true []), .worker .publish, .worker .callback, .worker .finish],
      ∃ _ ∈ run.step (.flushReturn ()), run.flushes () = some [1] ∧
        run.worker.outstanding = [] := by decide +kernel
  have reached := Machine.Reachable.run .init ran
  refine ⟨run, run', reached, flushing, returned, ?_⟩
  refine (flush_waits_for_callbacks reached flushing returned).2 ?_ 1 (mem_singleton_self 1)
  intro remaining failing failed member
  rw [failing] at nothing
  exact absurd (mem_map_of_mem member) (nothing ▸ not_mem_nil)

/-- The marker cannot be set: the worker counts itself idle before the callback, and `Flush` returns. -/
theorem failed_marker_returns_flush_early : ∃ run run' : PipelineRun Unit Unit 1,
    (asyncPipeline Unit Unit 1 true).Reachable run ∧ run.flushes () = some [1] ∧
      run.step (.flushReturn ()) = some run' ∧ 1 ∉ run'.called := by
  obtain ⟨run, ran, run', returned, flushing, notCalled⟩ :
    ∃ run ∈ (asyncPipeline Unit Unit 1 true).run (.initial true)
      [submitPc 7, .flushBegin (), .worker .dequeue, .worker (.setMarker true)],
      ∃ run' ∈ run.step (.flushReturn ()), run.flushes () = some [1] ∧ 1 ∉ run'.called := by decide +kernel
  exact ⟨run, run', Machine.Reachable.run .init ran, flushing, returned, notCalled⟩

end MallocHook
