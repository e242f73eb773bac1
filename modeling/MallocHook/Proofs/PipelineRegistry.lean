/-
Module: MallocHook.Proofs.PipelineRegistry
Purpose: The containers of the pipeline agree: a stack is known exactly while a result with its key is
  retained, and lists bound how many are. No work is lost or repeated.
Trusted boundary: none
Main exports: Cached, pipeline_conserves_work, registry_identifies_stacks
-/
import MallocHook.Lib.TableIndex
import MallocHook.Proofs.PipelineWork

namespace MallocHook

open List Option

variable {τ φ : Type*} {capacity : Nat}

/-! ### The containers -/

namespace StackResult

variable (result : StackResult φ)

def key : RawStackKey := result.raw.makeKey

/-- The key under which `unique_stacks_` has the result. -/
def liveKey : Option RawStackKey :=
  if result.state = .dropped then none else some result.key

def Pending : Prop := result.state = .pending

def Completed : Prop := result.state = .resolved ∨ result.state = .failed

def Dropped : Prop := result.state = .dropped

theorem covered : result.Pending ∨ result.Completed ∨ result.Dropped := by
  unfold Pending Completed Dropped
  cases result.state <;> simp

end StackResult

/-- The containers agree when `items` are queued or in hand, and `completed` and `dropped` are the other
results retained. -/
structure Registered (pipeline : Pipeline φ capacity) (items : List QueueItem)
    (completed dropped : List AsyncStackId) : Prop where
  keys : ∀ id, pipeline.idToKey.lookup id = (pipeline.results.lookup id).map StackResult.key
  unique : Indexes StackResult.liveKey pipeline.results pipeline.uniqueStacks
  older : ∀ id result, pipeline.results.lookup id = some result → id < pipeline.nextId
  pending : ListsKeys StackResult.Pending pipeline.results (items.map QueueItem.id)
  completed : ListsKeys StackResult.Completed pipeline.results completed
  dropped : ListsKeys StackResult.Dropped pipeline.results dropped
  raws : ∀ item ∈ items, (pipeline.results.lookup item.id).map StackResult.raw = some item.raw

namespace Registered

variable {pipeline : Pipeline φ capacity} {items : List QueueItem} {completed dropped : List AsyncStackId}

theorem initial [NeZero capacity] (keyCreated : Bool) :
    Registered (.initial keyCreated : Pipeline φ capacity) [] [] [] where
  keys id := by simp [Pipeline.initial]
  unique := .empty
  older id result held := by simp [Pipeline.initial] at held
  pending := .empty
  completed := .empty
  dropped := .empty
  raws := by simp

section

variable (registered : Registered pipeline items completed dropped)
include registered

/-- The next id is not in use. -/
theorem nextId_absent : pipeline.results.lookup pipeline.nextId = none := by
  by_contra present
  obtain ⟨result, held⟩ := ne_none_iff_exists'.1 present
  exact lt_irrefl _ (registered.older _ result held)

/-- A new stack gets the next id. -/
theorem addPending {raw : RawStackRecord} (unknown : pipeline.uniqueStacks.lookup raw.makeKey = none) :
    Registered (pipeline.addPending raw) (items ++ [⟨pipeline.nextId, raw⟩]) completed dropped := by
  have absent := registered.nextId_absent
  constructor
  case keys =>
    intro id
    by_cases here : id = pipeline.nextId
    · subst here
      simp [Pipeline.addPending, StackResult.key]
    · simp only [Pipeline.addPending, AList.lookup_insert_ne here]
      exact registered.keys id
  case unique => exact registered.unique.insert absent unknown rfl
  case older =>
    intro id result held
    by_cases here : id = pipeline.nextId
    · exact here ▸ Nat.lt_succ_self _
    · simp only [Pipeline.addPending, AList.lookup_insert_ne here] at held
      exact (registered.older id result held).trans (Nat.lt_succ_self _)
  case pending =>
    rw [map_append]
    exact registered.pending.join (registered.pending.absent absent) rfl
  case completed =>
    exact registered.completed.assign (registered.completed.absent absent) (by simp [StackResult.Completed])
  case dropped =>
    exact registered.dropped.assign (registered.dropped.absent absent) (by simp [StackResult.Dropped])
  case raws =>
    intro item member
    rcases mem_append.1 member with before | now
    · have differs : item.id ≠ pipeline.nextId := fun same => by
        have held := registered.raws item before
        rw [same, absent] at held
        cases held
      simp only [Pipeline.addPending, AList.lookup_insert_ne differs]
      exact registered.raws item before
    · rw [mem_singleton.1 now]
      simp [Pipeline.addPending]

/-- An item in line has its result in the table, pending. -/
theorem heldItem {item : QueueItem} (inLine : item ∈ items) :
    ∃ result, pipeline.results.lookup item.id = some result ∧ result.raw = item.raw ∧
    result.state = .pending := by
  obtain ⟨result, held, isRaw⟩ := map_eq_some_iff.1 (registered.raws item inLine)
  obtain ⟨result', held', isPending⟩ := (registered.pending.mem item.id).1 (mem_map_of_mem inLine)
  rw [held] at held'
  exact ⟨result, held, isRaw, Option.some.inj held' ▸ isPending⟩

end

variable {id : AsyncStackId}

/-- The stack that has just got an id is dropped. -/
theorem drop {raw : RawStackRecord}
    (registered : Registered pipeline (items ++ [⟨id, raw⟩]) completed dropped) :
    Registered (pipeline.drop id raw) items completed (dropped ++ [id]) := by
  have inLine : ⟨id, raw⟩ ∈ items ++ [⟨id, raw⟩] := by simp
  obtain ⟨result, held, isRaw, isPending⟩ := registered.heldItem inLine
  have found : pipeline.uniqueStacks.lookup raw.makeKey = some id := by
    refine (registered.unique _ _).2 ?_
    rw [held, bind_some, StackResult.liveKey, if_neg (by simp [isPending]), StackResult.key, isRaw]
  have distinct := registered.pending.nodup
  rw [map_append, map_singleton] at distinct
  have alone : id ∉ items.map QueueItem.id := fun member =>
    disjoint_of_nodup_append distinct member (mem_singleton_self id)
  constructor
  case keys =>
    intro id'
    by_cases here : id' = id
    · subst here
      simp only [Pipeline.drop, AList.lookup_insert]
      rw [registered.keys, held, map_some, map_some, StackResult.key, StackResult.key, isRaw]
    · simp only [Pipeline.drop, AList.lookup_insert_ne here]
      exact registered.keys id'
  case unique => exact registered.unique.retire found rfl
  case older =>
    intro id' result' held'
    by_cases here : id' = id
    · exact here ▸ registered.older id result held
    · simp only [Pipeline.drop, AList.lookup_insert_ne here] at held'
      exact registered.older id' result' held'
  case pending =>
    have notPending : ¬(⟨id, .dropped, raw, []⟩ : StackResult φ).Pending := by simp [StackResult.Pending]
    have left := registered.pending.leave id notPending
    rw [map_append, erase_append_right _ alone, map_singleton, erase_cons_head, append_nil] at left
    exact left
  case completed =>
    exact registered.completed.assign (registered.completed.other held
      (by simp [StackResult.Completed, isPending]))
      (by simp [StackResult.Completed])
  case dropped =>
    exact registered.dropped.join (registered.dropped.other held
      (by simp [StackResult.Dropped, isPending])) rfl
  case raws =>
    intro item member
    have differs : item.id ≠ id := fun same => alone (same ▸ mem_map_of_mem member)
    simp only [Pipeline.drop, AList.lookup_insert_ne differs]
    exact registered.raws item (mem_append_left _ member)

/-- A result that is not pending is forgotten. -/
theorem eraseResult (registered : Registered pipeline items completed dropped)
    (notPending : pipeline.stateOf id ≠ some .pending) :
    Registered (pipeline.eraseResult id) items (completed.erase id) (dropped.erase id) := by
  have notItem : id ∉ items.map QueueItem.id := by
    intro member
    obtain ⟨result, held, isPending⟩ := (registered.pending.mem id).1 member
    exact notPending (by rw [Pipeline.stateOf, held, map_some, isPending])
  constructor
  case keys =>
    intro id'
    by_cases here : id' = id
    · subst here
      simp [Pipeline.eraseResult]
    · simp only [Pipeline.eraseResult, AList.lookup_erase_ne here]
      exact registered.keys id'
  case unique =>
    simp only [Pipeline.eraseResult]
    rw [registered.keys id]
    cases held : pipeline.results.lookup id with
    | none => exact registered.unique.erase_notLive (by rw [held]; rfl)
    | some result =>
        simp only [map_some]
        split
        · next found => exact registered.unique.erase found
        · next notFound =>
            refine registered.unique.erase_notLive ?_
            rw [held, bind_some]
            by_contra isLive
            obtain ⟨key, isLive⟩ := ne_none_iff_exists'.1 isLive
            have found := (registered.unique key id).2 (by rw [held, bind_some, isLive])
            unfold StackResult.liveKey at isLive
            split at isLive
            · cases isLive
            · exact notFound (Option.some.inj isLive ▸ found)
  case older =>
    intro id' result held
    by_cases here : id' = id
    · subst here
      simp [Pipeline.eraseResult] at held
    · simp only [Pipeline.eraseResult, AList.lookup_erase_ne here] at held
      exact registered.older id' result held
  case pending => exact erase_of_not_mem notItem ▸ registered.pending.erase id
  case completed => exact registered.completed.erase id
  case dropped => exact registered.dropped.erase id
  case raws =>
    intro item member
    have differs : item.id ≠ id := fun same => notItem (same ▸ mem_map_of_mem member)
    simp only [Pipeline.eraseResult, AList.lookup_erase_ne differs]
    exact registered.raws item member

/-- The worker's result takes the place of the pending one. -/
theorem replaceResult {result : StackResult φ}
    (registered : Registered pipeline (⟨result.id, result.raw⟩ :: items) completed dropped)
    (isCompleted : result.Completed) :
    Registered (pipeline.replaceResult result) items (completed ++ [result.id]) dropped := by
  obtain ⟨old, held, isRaw, isPending⟩ := registered.heldItem mem_cons_self
  have notDropped : result.state ≠ .dropped := by
    rcases isCompleted with resolved | failed
    · simp [resolved]
    · simp [failed]
  have notPending : ¬result.Pending := by
    unfold StackResult.Pending
    rcases isCompleted with resolved | failed
    · simp [resolved]
    · simp [failed]
  have sameKey : old.key = result.key := congrArg RawStackRecord.makeKey isRaw
  have alone : result.id ∉ items.map QueueItem.id := (nodup_cons.1 registered.pending.nodup).1
  have replaced : (pipeline.replaceResult result).results = pipeline.results.insert result.id result :=
    if_pos (by simp [held])
  constructor
  case keys =>
    intro id
    rw [replaced]
    by_cases here : id = result.id
    · subst here
      rw [AList.lookup_insert, map_some, ← sameKey]
      exact (registered.keys result.id).trans (by rw [held, map_some])
    · rw [AList.lookup_insert_ne here]
      exact registered.keys id
  case unique =>
    rw [replaced]
    refine registered.unique.assign ?_
    rw [held, bind_some, StackResult.liveKey, StackResult.liveKey, if_neg (by simp [isPending]),
      if_neg notDropped, sameKey]
  case older =>
    intro id result' held'
    rw [replaced] at held'
    by_cases here : id = result.id
    · exact here ▸ registered.older result.id old held
    · rw [AList.lookup_insert_ne here] at held'
      exact registered.older id result' held'
  case pending =>
    rw [replaced]
    have left := registered.pending.leave result.id notPending
    rw [map_cons, erase_cons_head] at left
    exact left
  case completed =>
    rw [replaced]
    exact registered.completed.join
      (registered.completed.other held (by simp [StackResult.Completed, isPending])) isCompleted
  case dropped =>
    rw [replaced]
    exact registered.dropped.assign
      (registered.dropped.other held (by simp [StackResult.Dropped, isPending])) notDropped
  case raws =>
    intro item member
    have differs : item.id ≠ result.id := fun same => alone (same ▸ mem_map_of_mem member)
    rw [replaced, AList.lookup_insert_ne differs]
    exact registered.raws item (mem_cons_of_mem _ member)

/-! ### The loops -/

section

variable (registered : Registered pipeline items completed dropped)
include registered

/-- The state of a result of a known kind. -/
theorem stateOf_dropped (member : id ∈ dropped) : pipeline.stateOf id = some .dropped := by
  obtain ⟨result, held, isDropped⟩ := (registered.dropped.mem id).1 member
  rw [Pipeline.stateOf, held, map_some, isDropped]

theorem stateOf_completed (member : id ∈ completed) :
    pipeline.stateOf id = some .resolved ∨ pipeline.stateOf id = some .failed := by
  obtain ⟨result, held, isCompleted⟩ := (registered.completed.mem id).1 member
  rw [Pipeline.stateOf, held, map_some, Option.some.injEq, Option.some.injEq]
  exact isCompleted

theorem disjoint (member : id ∈ dropped) : id ∉ completed := by
  intro isCompleted
  have state := registered.stateOf_completed isCompleted
  rw [registered.stateOf_dropped member] at state
  simp at state

end

/-- `EvictDroppedCacheLocked` forgets the oldest dropped results, down to the capacity. -/
theorem evictDroppedCacheFrom (order : List AsyncStackId)
    (registered : Registered pipeline items completed order) :
    Registered (pipeline.evictDroppedCacheFrom order) items completed
        (pipeline.evictDroppedCacheFrom order).droppedOrder ∧
      (pipeline.evictDroppedCacheFrom order).droppedOrder.length ≤ capacity := by
  induction order generalizing pipeline with
  | nil => exact ⟨{ registered with }, Nat.zero_le _⟩
  | cons evicted rest ih =>
      simp only [Pipeline.evictDroppedCacheFrom]
      split
      · have state := registered.stateOf_dropped mem_cons_self
        have erased := registered.eraseResult (show pipeline.stateOf evicted ≠ some .pending by simp [state])
        rw [erase_of_not_mem (registered.disjoint mem_cons_self), erase_cons_head] at erased
        exact ih erased
      · exact ⟨{ registered with }, by simp only [length_cons]; omega⟩

/-- `EvictResultCacheLocked` forgets the oldest completed results, down to the capacity. -/
theorem evictResultCacheFrom (order : List AsyncStackId)
    (registered : Registered pipeline items order dropped) :
    Registered (pipeline.evictResultCacheFrom order) items
        (pipeline.evictResultCacheFrom order).resultOrder dropped ∧
      (pipeline.evictResultCacheFrom order).resultOrder.length ≤ capacity := by
  induction order generalizing pipeline with
  | nil => exact ⟨{ registered with }, Nat.zero_le _⟩
  | cons evicted rest ih =>
      simp only [Pipeline.evictResultCacheFrom]
      split
      · have state := registered.stateOf_completed mem_cons_self
        have notDropped : evicted ∉ dropped := fun member => registered.disjoint member mem_cons_self
        rw [if_neg (by rcases state with state | state <;> simp [state])]
        have erased := registered.eraseResult (show pipeline.stateOf evicted ≠ some .pending by
          rcases state with state | state <;> simp [state])
        rw [erase_of_not_mem notDropped, erase_cons_head] at erased
        exact ih erased
      · exact ⟨{ registered with }, by simp only [length_cons]; omega⟩

/-- The loop after a failed marker completes everything that is queued. -/
theorem failQueued {n : Nat} (all : pipeline.queue.size = n)
    (registered : Registered pipeline pipeline.queue.toList completed dropped) :
    Registered (pipeline.failQueued n).2 [] (completed ++ pipeline.queue.toList.map
      QueueItem.id) dropped := by
  induction n generalizing pipeline completed with
  | zero =>
      rw [(RingBuffer.toList_eq_nil _).2 all] at registered ⊢
      rw [map_nil, append_nil]
      exact registered
  | succ n ih =>
      have nonempty : pipeline.queue.size ≠ 0 := by omega
      have popped : pipeline.queue.pop.size = n := by simp [RingBuffer.pop, all]
      rw [pipeline.queue.toList_pop nonempty] at registered ⊢
      have failed : Registered (pipeline.replaceResult (Pipeline.failedResult pipeline.queue.front))
          pipeline.queue.pop.toList (completed ++ [pipeline.queue.front.id]) dropped :=
        registered.replaceResult (.inr rfl)
      let rest := { pipeline.failResult pipeline.queue.front with queue := pipeline.queue.pop }
      have done : Registered (rest.failQueued n).2 []
          (completed ++ [pipeline.queue.front.id] ++ rest.queue.toList.map QueueItem.id) dropped :=
        ih popped { failed with }
      rw [append_assoc] at done
      exact done

/-- The section after a failed marker completes the item in hand as well. -/
theorem failMarker {item : QueueItem}
    (registered : Registered pipeline (item :: pipeline.queue.toList) completed dropped) :
    Registered (pipeline.failMarker item).2 []
      (completed ++ item.id :: pipeline.queue.toList.map QueueItem.id) dropped := by
  have first : Registered (pipeline.replaceResult (Pipeline.failedResult item)) pipeline.queue.toList
      (completed ++ [item.id]) dropped := registered.replaceResult (.inr rfl)
  have failed : Registered (pipeline.failResult item) (pipeline.failResult item).queue.toList
      (completed ++ [item.id]) dropped := { first with }
  have done := failed.failQueued rfl
  rw [append_assoc] at done
  exact { done with }

end Registered

/-! ### What the sections do to the two orders -/

namespace Pipeline

variable (pipeline : Pipeline φ capacity)

theorem evictDroppedCacheFrom_resultOrder (order : List AsyncStackId) :
    (pipeline.evictDroppedCacheFrom order).resultOrder = pipeline.resultOrder := by
  induction order generalizing pipeline with
  | nil => rfl
  | cons evicted rest ih =>
      simp only [evictDroppedCacheFrom]
      split
      · exact ih _
      · rfl

theorem evictResultCacheFrom_droppedOrder (order : List AsyncStackId) :
    (pipeline.evictResultCacheFrom order).droppedOrder = pipeline.droppedOrder := by
  induction order generalizing pipeline with
  | nil => rfl
  | cons evicted rest ih =>
      simp only [evictResultCacheFrom]
      split
      · split
        · exact ih _
        · exact ih _
      · rfl

theorem failQueued_orders (n : Nat) :
    (pipeline.failQueued n).2.resultOrder = pipeline.resultOrder ∧
      (pipeline.failQueued n).2.droppedOrder = pipeline.droppedOrder := by
  induction n generalizing pipeline with
  | zero => exact ⟨rfl, rfl⟩
  | succ n ih => exact ih _

theorem failMarker_orders (item : QueueItem) :
    (pipeline.failMarker item).2.resultOrder = pipeline.resultOrder ∧
      (pipeline.failMarker item).2.droppedOrder = pipeline.droppedOrder :=
  (pipeline.failResult item).failQueued_orders _

end Pipeline

/-- Publishing keeps `result_order_` the list of what is completed. -/
theorem Registered.publish {pipeline : Pipeline φ capacity} {items : List QueueItem}
    {dropped : List AsyncStackId} {result : StackResult φ}
    (registered : Registered pipeline (⟨result.id, result.raw⟩ :: items) pipeline.resultOrder dropped)
    (isCompleted : result.Completed) :
    Registered (pipeline.publish result) items (pipeline.publish result).resultOrder dropped ∧
      (pipeline.publish result).resultOrder.length ≤ capacity ∧
      (pipeline.publish result).droppedOrder = pipeline.droppedOrder := by
  have replaced := registered.replaceResult isCompleted
  let ordered := { pipeline.replaceResult result with resultOrder := pipeline.resultOrder ++ [result.id] }
  have isOrdered : Registered ordered items ordered.resultOrder dropped := { replaced with }
  obtain ⟨evicted, fits⟩ := isOrdered.evictResultCacheFrom ordered.resultOrder
  exact ⟨{ evicted with }, fits, Pipeline.evictResultCacheFrom_droppedOrder _ _⟩

/-! ### Runs -/

namespace WorkerPhase

/-- The item the worker has taken and not published. -/
def items : WorkerPhase φ → List QueueItem
  | .marking item | .resolving item => [item]
  | .resolved completed => [⟨completed.id, completed.raw⟩]
  | _ => []

/-- What the phase says about the marker and about the result in hand. -/
def Marked (markerSet : Bool) : WorkerPhase φ → Prop
  | .marking _ => markerSet = false
  | .resolving _ | .calling _ | .called => markerSet = true
  | .resolved completed => markerSet = true ∧ completed.Completed
  | .absent | .waiting | .failing _ | .exited => True

end WorkerPhase

/-- What is queued or in hand. -/
def PipelineRun.items (run : PipelineRun τ φ capacity) : List QueueItem :=
  run.worker.items ++ run.pipeline.queue.toList

/-- The containers agree and are bounded. On the normal path `completed` is `result_order_`; without the
marker it is empty unless the worker has failed everything. -/
structure Cached (run : PipelineRun τ φ capacity) (completed : List AsyncStackId) : Prop where
  registered : Registered run.pipeline run.items completed run.pipeline.droppedOrder
  droppedFits : run.pipeline.droppedOrder.length ≤ capacity
  marked : run.markerSet = true →
    completed = run.pipeline.resultOrder ∧ run.pipeline.resultOrder.length ≤ capacity
  unmarked : run.markerSet = false → run.pipeline.resultOrder = [] ∧
    completed.length ≤ capacity + 1 ∧ (completed = [] ∨ run.worker.ended = true)
  phase : run.worker.Marked run.markerSet

namespace Cached

variable {run run' : PipelineRun τ φ capacity} {completed : List AsyncStackId}

theorem initial [NeZero capacity] (keyCreated : Bool) :
    Cached (.initial keyCreated : PipelineRun τ φ capacity) [] where
  registered := by
    cases keyCreated <;> exact .initial _
  droppedFits := Nat.zero_le _
  marked isMarked := by simp [PipelineRun.initial] at isMarked
  unmarked _ := ⟨rfl, Nat.zero_le _, .inl rfl⟩
  phase := by cases keyCreated <;> trivial

variable (cached : Cached run completed)
include cached

/-- A stack that is new to `Submit`. -/
theorem submitNew {raw : RawStackRecord} (unknown : run.pipeline.uniqueStacks.lookup raw.makeKey = none)
    (submissions : List SubmitResult) :
    Cached { run with
      pipeline := (run.pipeline.submitNew raw).2
      submissions := submissions } completed := by
  have added := cached.registered.addPending unknown
  unfold Pipeline.submitNew
  simp only
  split
  · let dropped := (run.pipeline.addPending raw).drop run.pipeline.nextId raw
    have same : dropped.evictDroppedCache.SameWork dropped := Pipeline.evictDroppedCacheFrom_sameWork _ _
    have order : dropped.evictDroppedCache.resultOrder = run.pipeline.resultOrder :=
      Pipeline.evictDroppedCacheFrom_resultOrder _ _
    obtain ⟨registered, fits⟩ := added.drop.evictDroppedCacheFrom dropped.droppedOrder
    refine ⟨?_, fits, ?_, ?_, cached.phase⟩
    · have items : run.worker.items ++ dropped.evictDroppedCache.queue.toList = run.items := by
        rw [same.queue]
        rfl
      exact { items ▸ registered with }
    · intro isMarked
      have marked := cached.marked isMarked
      rw [← order] at marked
      exact marked
    · intro isUnmarked
      have unmarked := cached.unmarked isUnmarked
      rw [← order] at unmarked
      exact unmarked
  · next room =>
      refine ⟨?_, cached.droppedFits, cached.marked, cached.unmarked, cached.phase⟩
      have items : run.worker.items ++ (run.pipeline.queue.push room ⟨run.pipeline.nextId, raw⟩).toList =
          run.items ++ [⟨run.pipeline.nextId, raw⟩] := by
        rw [RingBuffer.toList_push, PipelineRun.items, append_assoc]
      exact { items ▸ added with }

/-- Every call of `Submit`. -/
theorem submit (input : RawStackRecord) (onWorker : Bool) (currentGeneration : UInt64)
    (submissions : List SubmitResult) :
    Cached { run with
      pipeline := (run.pipeline.submit input onWorker currentGeneration).2
      submissions := submissions } completed := by
  rcases run.pipeline.submit_cases input onWorker currentGeneration with
    ⟨answer, stats, answered, -⟩ | ⟨raw, -, unknown, isNew⟩
  · rw [answered]
    exact { cached with registered := { cached.registered with } }
  · rw [isNew]
    exact cached.submitNew unknown submissions

/-- Every call of `Release`. -/
theorem release (id : AsyncStackId) :
    ∃ completed', Cached { run with pipeline := (run.pipeline.release id).2 } completed' := by
  unfold Pipeline.release
  split_ifs with isZero notFinished
  · exact ⟨completed, cached⟩
  · exact ⟨completed, cached⟩
  · have erased := cached.registered.eraseResult fun isPending => notFinished (.inr isPending)
    refine ⟨completed.erase id, ?_, ?_, ?_, ?_, cached.phase⟩
    · change Registered _ _ _ (run.pipeline.droppedOrder.filter (· ≠ id))
      rw [cached.registered.dropped.filter_ne id]
      exact { erased with }
    · exact (length_filter_le _ _).trans cached.droppedFits
    · intro isMarked
      obtain ⟨same, fits⟩ := cached.marked isMarked
      refine ⟨?_, (length_filter_le _ _).trans fits⟩
      rw [← cached.registered.completed.filter_ne id, same]
    · intro isUnmarked
      obtain ⟨noOrder, fits, nothing⟩ := cached.unmarked isUnmarked
      refine ⟨?_, (length_erase_le).trans fits, nothing.imp_left ?_⟩
      · change run.pipeline.resultOrder.filter _ = []
        rw [noOrder]
        rfl
      · intro empty
        rw [empty]
        rfl

/-- A step of the worker that leaves the containers alone. -/
theorem moved {pipeline : Pipeline φ capacity} {worker : WorkerPhase φ} {called : List AsyncStackId}
    (containers : Registered pipeline run.items completed pipeline.droppedOrder)
    (resultOrder : pipeline.resultOrder = run.pipeline.resultOrder)
    (droppedOrder : pipeline.droppedOrder = run.pipeline.droppedOrder)
    (items : worker.items ++ pipeline.queue.toList = run.items)
    (ended : run.worker.ended = true → worker.ended = true) (phase : worker.Marked run.markerSet) :
    Cached { run with pipeline := pipeline, worker := worker, called := called } completed where
  registered := by
    change Registered pipeline (worker.items ++ pipeline.queue.toList) _ _
    rw [items]
    exact containers
  droppedFits := droppedOrder ▸ cached.droppedFits
  marked isMarked := resultOrder ▸ cached.marked isMarked
  unmarked isUnmarked := by
    obtain ⟨noOrder, fits, nothing⟩ := cached.unmarked isUnmarked
    exact ⟨resultOrder.trans noOrder, fits, nothing.imp_right ended⟩
  phase := phase

/-- Before the marker is set nothing is completed, and the item in hand stands before the queue. -/
theorem marking {item : QueueItem} (isMarking : run.worker = .marking item) :
    run.markerSet = false ∧ run.pipeline.resultOrder = [] ∧ completed = [] ∧
      run.items = item :: run.pipeline.queue.toList := by
  have phase := cached.phase
  rw [isMarking] at phase
  obtain ⟨noOrder, -, nothing⟩ := cached.unmarked phase
  refine ⟨phase, noOrder, nothing.resolve_right (by simp [isMarking, WorkerPhase.ended]), ?_⟩
  rw [PipelineRun.items, isMarking]
  rfl

/-- A marker that could not be set: everything in the queue has failed. -/
theorem failMarker {item : QueueItem} (marking : run.worker = .marking item) :
    Cached { run with
        pipeline := (run.pipeline.failMarker item).2
        worker := .failing (run.pipeline.failMarker item).1
        published := run.published ++ (run.pipeline.failMarker item).1.map StackResult.id }
      (item.id :: run.pipeline.queue.toList.map QueueItem.id) := by
  obtain ⟨isUnmarked, noOrder, nothing, items⟩ := cached.marking marking
  have registered := cached.registered
  rw [items, nothing] at registered
  have failed := registered.failMarker
  obtain ⟨-, empty, -⟩ := run.pipeline.failMarker_spec item
  obtain ⟨resultOrder, droppedOrder⟩ := run.pipeline.failMarker_orders item
  refine ⟨?_, ?_, ?_, ?_, trivial⟩
  · change Registered _ ([] ++ (run.pipeline.failMarker item).2.queue.toList) _
      (run.pipeline.failMarker item).2.droppedOrder
    rw [(RingBuffer.toList_eq_nil _).2 empty, droppedOrder]
    exact failed
  · change (run.pipeline.failMarker item).2.droppedOrder.length ≤ _
    rw [droppedOrder]
    exact cached.droppedFits
  · intro isMarked
    rw [show run.markerSet = true from isMarked] at isUnmarked
    cases isUnmarked
  · refine fun _ => ⟨resultOrder.trans noOrder, ?_, .inr rfl⟩
    simpa using run.pipeline.queue.fits

theorem setMarker {item : QueueItem} (marking : run.worker = .marking item) :
    Cached { run with markerSet := true, worker := .resolving item } [] := by
  obtain ⟨-, noOrder, nothing, items⟩ := cached.marking marking
  refine ⟨?_, cached.droppedFits, fun _ => ⟨noOrder.symm, ?_⟩, ?_, rfl⟩
  · change Registered _ (item :: run.pipeline.queue.toList) _ _
    rw [← items, ← nothing]
    exact cached.registered
  · change run.pipeline.resultOrder.length ≤ _
    rw [noOrder]
    exact Nat.zero_le _
  · intro isUnmarked
    cases isUnmarked

theorem publish {result : StackResult φ} (resolved : run.worker = .resolved result) :
    Cached { run with
        pipeline := run.pipeline.publish result
        worker := .calling result
        published := run.published ++ [result.id] }
      (run.pipeline.publish result).resultOrder := by
  have phase := cached.phase
  rw [resolved] at phase
  obtain ⟨isMarked, isCompleted⟩ := phase
  have registered := cached.registered
  rw [PipelineRun.items, resolved, (cached.marked isMarked).1] at registered
  obtain ⟨published, fits, droppedOrder⟩ := Registered.publish registered isCompleted
  obtain ⟨queue, -⟩ := run.pipeline.publish_spec result
  refine ⟨?_, ?_, fun _ => ⟨rfl, fits⟩, ?_, isMarked⟩
  · change Registered _ ([] ++ (run.pipeline.publish result).queue.toList) _
      (run.pipeline.publish result).droppedOrder
    rw [queue, droppedOrder]
    exact published
  · change (run.pipeline.publish result).droppedOrder.length ≤ _
    rw [droppedOrder]
    exact cached.droppedFits
  · intro isUnmarked
    rw [show run.markerSet = false from isUnmarked] at isMarked
    cases isMarked

/-- Every step of the worker. -/
theorem worker (moved : run.WorkerMove run') : ∃ completed', Cached run' completed' := by
  have phase := cached.phase
  cases moved with
  | dequeue waiting nonempty =>
      have items : run.items = run.pipeline.queue.front :: run.pipeline.queue.pop.toList := by
        rw [PipelineRun.items, waiting, run.pipeline.queue.toList_pop nonempty]
        rfl
      refine ⟨completed, cached.moved { cached.registered with } rfl rfl ?_ ?_ ?_⟩
      · cases run.markerSet <;> exact items.symm
      · rw [waiting]
        intro ended
        cases ended
      · cases run.markerSet <;> rfl
  | failMarker marking => exact ⟨_, cached.failMarker marking⟩
  | setMarker marking => exact ⟨_, cached.setMarker marking⟩
  | resolve resolving =>
      rw [resolving] at phase
      refine ⟨completed, cached.moved cached.registered rfl rfl ?_ ?_ ⟨phase, ?_⟩⟩
      · rw [PipelineRun.items, resolving]
        rfl
      · rw [resolving]
        intro ended
        cases ended
      · unfold StackResult.Completed
        simp only
        split <;> simp
  | publish resolved => exact ⟨_, cached.publish resolved⟩
  | callback calling =>
      rw [calling] at phase
      refine ⟨completed, cached.moved cached.registered rfl rfl ?_ ?_ phase⟩
      · rw [PipelineRun.items, calling]
        rfl
      · rw [calling]
        intro ended
        cases ended
  | callbackFailed failing | finishFailed failing =>
      refine ⟨completed, cached.moved cached.registered rfl rfl ?_ (fun _ => rfl) trivial⟩
      rw [PipelineRun.items, failing]
      rfl
  | finish called =>
      refine ⟨completed, cached.moved { cached.registered with } rfl rfl ?_ ?_ trivial⟩
      · rw [PipelineRun.items, called]
        rfl
      · rw [called]
        intro ended
        cases ended
  | exit waiting empty stopping =>
      refine ⟨completed, cached.moved cached.registered rfl rfl ?_ (fun _ => rfl) trivial⟩
      rw [PipelineRun.items, waiting]
      rfl

/-- Every step. -/
theorem step [DecidableEq τ] {action : PipelineStep τ φ} (stepped : run.step action = some run') :
    ∃ completed', Cached run' completed' := by
  cases action with
  | submit input onWorker currentGeneration =>
      cases stepped
      exact ⟨completed, cached.submit input onWorker currentGeneration _⟩
  | release id =>
      cases stepped
      exact cached.release id
  | getResult id =>
      cases stepped
      exact ⟨completed, cached⟩
  | worker step => exact cached.worker (run.workerMove stepped)
  | flushBegin t =>
      simp only [PipelineRun.step] at stepped
      split at stepped <;> cases stepped
      exact ⟨completed, { cached with }⟩
  | flushReturn t =>
      simp only [PipelineRun.step] at stepped
      split at stepped
      · obtain ⟨-, same⟩ := ite_none_right_eq_some.1 stepped
        cases same
        exact ⟨completed, { cached with }⟩
      · cases stepped
  | shutdownBegin =>
      obtain ⟨-, begun⟩ := ite_none_left_eq_some.1 stepped
      split at begun <;> cases begun
      · exact ⟨completed, { cached with }⟩
      · exact ⟨completed, { cached with registered := { cached.registered with } }⟩
  | shutdownJoin =>
      obtain ⟨-, ⟨⟩⟩ := ite_none_right_eq_some.1 stepped
      exact ⟨completed, { cached with registered := { cached.registered with } }⟩

/-- At most one item in hand and a full queue are pending, or the worker has ended with nothing pending. -/
theorem length_results_le (conserved : Conserved run) :
    run.pipeline.results.keys.length ≤ 3 * capacity + 1 := by
  have bound := length_keys_le_of_lists cached.registered.pending cached.registered.completed
    cached.registered.dropped StackResult.covered
  have dropped := cached.droppedFits
  have queued := run.pipeline.queue.fits
  have inHand : run.worker.items.length ≤ 1 := by cases run.worker <;> simp [WorkerPhase.items]
  rw [length_map, PipelineRun.items, length_append, RingBuffer.length_toList] at bound
  cases isMarked : run.markerSet with
  | true =>
      obtain ⟨same, fits⟩ := cached.marked isMarked
      rw [same] at bound
      omega
  | false =>
      obtain ⟨-, fits, nothing | isEnded⟩ := cached.unmarked isMarked
      · rw [nothing, length_nil] at bound
        omega
      · have empty := (conserved.ended isEnded).2
        have notInHand : run.worker.items = [] := by
          cases phase : run.worker <;> simp_all [WorkerPhase.items, WorkerPhase.ended]
        rw [empty, notInHand, length_nil] at bound
        omega

/-- The results that are pending are those of the items in hand and in the queue. -/
theorem pending_iff (conserved : Conserved run) (id : AsyncStackId) :
    (∃ result, run.pipeline.getResult id = some result ∧ result.state = .pending) ↔
      id ∈ run.accepted ∧ id ∉ run.published := by
  have line := conserved.line
  have distinct := conserved.accepted_nodup
  have inHand : run.worker.items.map QueueItem.id = run.worker.inHand := by cases run.worker <;> rfl
  rw [line] at distinct ⊢
  refine (cached.registered.pending.mem id).symm.trans ?_
  rw [PipelineRun.items, map_append, inHand, mem_append]
  have apart := (nodup_append.1 distinct).2.2 id
  grind

end Cached

/-! ### Whole runs -/

/-- A `Submit` that looks the stack up answers with the id under which it is known. -/
theorem Pipeline.submit_duplicate_iff {pipeline : Pipeline φ capacity}
    (accepting : pipeline.stopping = false) (input : RawStackRecord) (currentGeneration : UInt64)
    (id : AsyncStackId) :
    ((pipeline.submit input false currentGeneration).1.duplicate = true ∧
        (pipeline.submit input false currentGeneration).1.id = id) ↔
      pipeline.uniqueStacks.lookup (input.withGeneration currentGeneration).makeKey = some id := by
  simp only [submit, accepting, Bool.false_eq_true, if_false]
  split
  · next known => simp [known]
  · next unknown =>
      rw [unknown]
      refine iff_of_false (fun answer => ?_) (by simp)
      simp only [submitNew] at answer
      split at answer
      · cases answer.1
      · cases answer.1

theorem StackResult.liveKey_eq_some {result : StackResult φ} {key : RawStackKey} :
    result.liveKey = some key ↔ result.state ≠ .dropped ∧ result.key = key := by
  unfold liveKey
  split <;> simp_all

variable [DecidableEq τ] [NeZero capacity] {keyCreated : Bool} {run : PipelineRun τ φ capacity}

theorem cached_of_reachable (reached : (asyncPipeline τ φ capacity keyCreated).Reachable run) :
    ∃ completed, Cached run completed :=
  Machine.ReachableBy.invariant (P := fun run => ∃ completed, Cached run completed)
    ⟨[], Cached.initial keyCreated⟩
    (fun cached _ stepped => cached.elim fun _ cached => cached.step stepped) reached

/-- In every interleaving the queue is within its capacity and the counters add up. The accepted ids are,
in order and each once, the published ones, the one in hand and the queued ones; no submission that was
turned away is among them. When `Shutdown` has returned everything accepted was published and called back.
`GetResult` reports a stack as pending exactly if it was accepted and is not published. -/
theorem pipeline_conserves_work (reached : (asyncPipeline τ φ capacity keyCreated).Reachable run) :
    run.pipeline.queue.size ≤ capacity ∧
      run.pipeline.stats.accepted =
        run.pipeline.stats.processed + run.pipeline.queue.size + run.worker.inHand.length ∧
      run.worker.inHand.length ≤ 1 ∧
      run.pipeline.stats.accepted = run.accepted.length ∧
      run.pipeline.stats.processed = run.published.length ∧
      run.accepted = run.published ++ (run.worker.inHand ++ run.pipeline.queue.toList.map QueueItem.id) ∧
      run.accepted.Nodup ∧
      run.published = run.called ++ run.worker.outstanding ∧
      (∀ answer ∈ run.submissions,
        answer.dropped = true ∨ answer.duplicate = true ∨ answer.rejectedRecursion = true →
          answer.accepted = false) ∧
      (∀ answer ∈ run.submissions, answer.dropped = true → answer.id ∉ run.published) ∧
      (run.shutdown ≠ .idle → ∀ input onWorker currentGeneration,
        (run.pipeline.submit input onWorker currentGeneration).1.accepted = false) ∧
      (run.shutdown = .returned → run.published = run.accepted ∧ run.called = run.accepted) ∧
      (∀ id, (∃ result, run.pipeline.getResult id = some result ∧ result.state = .pending) ↔
        id ∈ run.accepted ∧ id ∉ run.published) := by
  obtain ⟨completed, cached⟩ := cached_of_reachable reached
  have conserved := conserved_of_reachable reached
  have length := congrArg List.length conserved.line
  simp only [length_append, length_map, RingBuffer.length_toList] at length
  refine ⟨run.pipeline.queue.fits, ?_, ?_, conserved.accepted, conserved.processed, conserved.line,
    conserved.accepted_nodup, conserved.callbacks, ?_, ?_, ?_, ?_, fun id => cached.pending_iff conserved id⟩
  · rw [conserved.accepted, conserved.processed]
    omega
  · cases run.worker <;> simp [WorkerPhase.inHand]
  · intro answer member otherwise
    by_contra accepted
    obtain ⟨notDropped, notDuplicate, notRejected⟩ :=
      conserved.exclusive answer member (by simpa using accepted)
    simp [notDropped, notDuplicate, notRejected] at otherwise
  · exact fun answer member dropped isPublished =>
      conserved.dropped_not_accepted member dropped (conserved.published_subset isPublished)
  · intro begun input onWorker currentGeneration
    rcases run.pipeline.submit_cases input onWorker currentGeneration with
      ⟨answer, stats, answered, notAccepted, -⟩ | ⟨raw, accepting, -⟩
    · rw [answered]
      exact notAccepted
    · rw [conserved.stopped begun] at accepting
      cases accepting
  · intro returned
    have joins := conserved.returned returned
    have empty := (conserved.ended (PipelineRun.ended_of_joins joins)).2
    obtain ⟨notInHand, notOutstanding⟩ := PipelineRun.nothing_of_joins joins
    have line := conserved.line
    have callbacks := conserved.callbacks
    rw [notInHand, (RingBuffer.toList_eq_nil _).2 empty] at line
    rw [notOutstanding, append_nil] at callbacks
    have isPublished : run.published = run.accepted := by simpa using line.symm
    exact ⟨isPublished, callbacks ▸ isPublished⟩

/-- One item is in hand and one queued when the marker fails; both are called back before `Shutdown`
returns. -/
theorem pipeline_conserves_work_failedMarker : ∃ run : PipelineRun Unit Unit 1,
    (asyncPipeline Unit Unit 1 true).Reachable run ∧ run.shutdown = .returned ∧
      run.accepted = [1, 2] ∧ run.called = run.accepted := by
  obtain ⟨run, ran, returned, accepted⟩ : ∃ run ∈ (asyncPipeline Unit Unit 1 true).run (.initial true)
      [submitPc 7, .worker .dequeue, submitPc 8, submitPc 9, .worker (.setMarker true), .shutdownBegin,
        .worker .callback, .worker .callback, .worker .finish, .shutdownJoin],
      run.shutdown = .returned ∧ run.accepted = [1, 2] := by decide +kernel
  have reached := Machine.Reachable.run .init ran
  obtain ⟨-, -, -, -, -, -, -, -, -, -, -, complete, -⟩ := pipeline_conserves_work reached
  exact ⟨run, reached, returned, accepted, (complete returned).2⟩

/-- In every interleaving `id_to_key_` has the key of every result, and `unique_stacks_` exactly the
results that are not dropped. No id is given out twice. A `Submit` that is not turned away finds the stack
exactly if such a result is retained for its key. A retained result is once in the list of its kind, and
the results are bounded. -/
theorem registry_identifies_stacks (reached : (asyncPipeline τ φ capacity keyCreated).Reachable run) :
    (∀ id, run.pipeline.idToKey.lookup id = (run.pipeline.results.lookup id).map StackResult.key) ∧
      (∀ key id, run.pipeline.uniqueStacks.lookup key = some id ↔ ∃ result,
        run.pipeline.results.lookup id = some result ∧ result.state ≠ .dropped ∧ result.key = key) ∧
      (∀ key key' id, run.pipeline.uniqueStacks.lookup key = some id →
        run.pipeline.uniqueStacks.lookup key' = some id → key = key') ∧
      run.given.Nodup ∧ (∀ id ∈ run.given, id < run.pipeline.nextId) ∧
      (∀ input currentGeneration id, run.pipeline.stopping = false →
        ((run.pipeline.submit input false currentGeneration).1.duplicate = true ∧
            (run.pipeline.submit input false currentGeneration).1.id = id ↔
          ∃ result, run.pipeline.results.lookup id = some result ∧ result.state ≠ .dropped ∧
            result.key = (input.withGeneration currentGeneration).makeKey)) ∧
      (∀ id id' result result', run.pipeline.results.lookup id = some result →
        run.pipeline.results.lookup id' = some result' → result.state ≠ .dropped →
          result'.state ≠ .dropped → result.key = result'.key → id = id') ∧
      (run.markerSet = true → ∀ id result, run.pipeline.results.lookup id = some result →
        result.Completed → run.pipeline.resultOrder.count id = 1) ∧
      (∀ id result, run.pipeline.results.lookup id = some result → result.Dropped →
        run.pipeline.droppedOrder.count id = 1) ∧
      run.pipeline.results.keys.length ≤ 3 * capacity + 1 := by
  obtain ⟨completed, cached⟩ := cached_of_reachable reached
  have conserved := conserved_of_reachable reached
  have registered := cached.registered
  have unique : ∀ key id, run.pipeline.uniqueStacks.lookup key = some id ↔ ∃ result,
      run.pipeline.results.lookup id = some result ∧ result.state ≠ .dropped ∧ result.key = key := by
    intro key id
    rw [registered.unique key id, bind_eq_some_iff]
    simp only [StackResult.liveKey_eq_some]
  refine ⟨registered.keys, unique, ?_, conserved.distinct, conserved.fresh, ?_, ?_, ?_, ?_,
    cached.length_results_le conserved⟩
  · intro key key' id found found'
    exact Option.some.inj (((registered.unique key id).1 found).symm.trans
      ((registered.unique key' id).1 found'))
  · intro input currentGeneration id accepting
    rw [Pipeline.submit_duplicate_iff accepting, unique]
  · intro id id' result result' held held' live live' sameKey
    have found := (unique result.key id).2 ⟨result, held, live, rfl⟩
    have found' := (unique result.key id').2 ⟨result', held', live', sameKey.symm⟩
    exact Option.some.inj (found.symm.trans found')
  · intro isMarked id result held isCompleted
    have member := (registered.completed.mem id).2 ⟨result, held, isCompleted⟩
    rw [(cached.marked isMarked).1] at member registered
    exact count_eq_one_of_mem registered.completed.nodup member
  · intro id result held isDropped
    exact count_eq_one_of_mem registered.dropped.nodup
      ((registered.dropped.mem id).2 ⟨result, held, isDropped⟩)

/-- A stack is submitted, resolved and published; submitted again, it is known under its id. -/
theorem registry_identifies_stacks_resubmitted : ∃ run : PipelineRun Unit Unit 1,
    (asyncPipeline Unit Unit 1 true).Reachable run ∧
      (run.pipeline.submit (pcRecord 7) false 1).1.duplicate = true ∧
      (run.pipeline.submit (pcRecord 7) false 1).1.id = 1 ∧
      run.pipeline.resultOrder.count 1 = 1 ∧ run.pipeline.results.keys.length ≤ 4 := by
  obtain ⟨run, ran, accepting, isMarked, result, held, resolved, sameKey⟩ :
      ∃ run ∈ (asyncPipeline Unit Unit 1 true).run (.initial true)
        [submitPc 7, .worker .dequeue, .worker (.setMarker false), .worker (.resolve false true []),
          .worker .publish],
      run.pipeline.stopping = false ∧ run.markerSet = true ∧ ∃ result ∈ run.pipeline.results.lookup 1,
        result.state = .resolved ∧ result.key = ⟨1, 1, [7]⟩ := by decide +kernel
  have reached := Machine.Reachable.run .init ran
  obtain ⟨-, -, -, -, -, known, -, once, -, bound⟩ := registry_identifies_stacks reached
  obtain ⟨duplicate, sameId⟩ := (known (pcRecord 7) 1 1 accepting).2
    ⟨result, held, by simp [resolved], sameKey⟩
  exact ⟨run, reached, duplicate, sameId, once isMarked 1 result held (.inl resolved), bound⟩

/-- A callback submits the stack it is called for: its result is retained, and the answer is not that it
is known. -/
theorem callback_resubmission_not_duplicate : ∃ (run : PipelineRun Unit Unit 1) (result : StackResult Unit),
    (asyncPipeline Unit Unit 1 true).Reachable run ∧ run.pipeline.stopping = false ∧
      run.pipeline.results.lookup 1 = some result ∧ result.state ≠ .dropped ∧
      result.key = ((pcRecord 7).withGeneration 1).makeKey ∧
      (run.pipeline.submit (pcRecord 7) true 1).1.duplicate = false := by
  obtain ⟨run, ran, accepting, result, held, live, sameKey⟩ :
      ∃ run ∈ (asyncPipeline Unit Unit 1 true).run (.initial true)
        [submitPc 7, .worker .dequeue, .worker (.setMarker false), .worker (.resolve false true []),
          .worker .publish],
      run.pipeline.stopping = false ∧ ∃ result ∈ run.pipeline.results.lookup 1,
        result.state ≠ .dropped ∧ result.key = ⟨1, 1, [7]⟩ := by decide +kernel
  exact ⟨run, result, Machine.Reachable.run .init ran, accepting, held, live, sameKey, rfl⟩

/-- In every state of every interleaving `GetResult` says that a stack is pending exactly if `Submit`
accepted it and its result is not published. -/
theorem get_result_pending_iff (reached : (asyncPipeline τ φ capacity keyCreated).Reachable run)
    (id : AsyncStackId) :
    (∃ result, run.pipeline.getResult id = some result ∧ result.state = .pending) ↔
      id ∈ run.accepted ∧ id ∉ run.published := by
  obtain ⟨completed, cached⟩ := cached_of_reachable reached
  exact cached.pending_iff (conserved_of_reachable reached) id

/-- A stack the worker has taken from the queue and not yet resolved is pending. -/
theorem get_result_pending_iff_taken : ∃ run : PipelineRun Unit Unit 1,
    (asyncPipeline Unit Unit 1 true).Reachable run ∧ 1 ∈ run.accepted ∧ 1 ∉ run.published ∧
      ∃ result, run.pipeline.getResult 1 = some result ∧ result.state = .pending := by
  obtain ⟨run, ran, waits⟩ : ∃ run ∈ (asyncPipeline Unit Unit 1 true).run (.initial true) [submitPc 7,
    .worker .dequeue], 1 ∈ run.accepted ∧ 1 ∉ run.published := by decide +kernel
  have reached := Machine.Reachable.run .init ran
  exact ⟨run, reached, waits.1, waits.2, (get_result_pending_iff reached 1).2 waits⟩

end MallocHook
