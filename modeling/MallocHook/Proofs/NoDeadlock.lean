/-
Module: MallocHook.Proofs.NoDeadlock
Purpose: The mutexes of the tracker never block its threads for good. Every step is typed by the mutexes
  it runs under.
Trusted boundary: none
Main exports: trackerLocks, tracker_no_deadlock, tracker_progress
-/
import MallocHook.Core.TrackerLocks

namespace MallocHook

open List Option Function

/-- The mutexes a step runs under, the last one acquired first. -/
def TrackerOp.effect : TrackerOp → LockEffect TrackerMutex
  | .acquire mutex => .acquire mutex
  | .release mutex => .release mutex
  | .intern _ _ | .dropReference _ => .under [frameMutex]
  | .store entry _ => .under [shardMutex entry.pointer]
  | .take pointer _ | .restore pointer _ => .under [shardMutex pointer]
  | .rekey oldPointer newPointer _ => .under (remapMutexes oldPointer newPointer).reverse
  | .retest _ | .settleTracked _ _ | .activateObserved _ | .settleObserved _ | .testGeneration _ _ =>
      .under shardMutexes.reverse
  | .takeTracked _ _ | .takeObserved _ | .storeContext _ | .withAll =>
      .under (frameMutex :: shardMutexes.reverse)
  | .addBacktrace _ _ | .addEntry _ _ | .takeEntry _ _ | .restoreEntry _ _ | .remap _ _
    _ | .removeBacktrace _
  | .testThreshold _ | .checkObserved | .claim | .recheckObserved | .collectContext | .releaseClaim
  | .recordObservedPeak _ | .joinReader _ | .lockAll => .under []

/-! ### Lists of locks -/

/-- What a thread may do under some mutexes of the tracker. -/
abbrev TrackerGives (held : List TrackerMutex) (ops : List TrackerOp) : Prop :=
  Gives TrackerOp.effect held ops

theorem shardMutexes_ascending : shardMutexes.Pairwise (· < ·) := by
  rw [shardMutexes, pairwise_map]
  exact (pairwise_lt_finRange kPointerShards).imp fun less => WithTop.coe_lt_coe.2 less

theorem remapMutexes_ascending (oldPointer newPointer : Pointer) :
    (remapMutexes oldPointer newPointer).Pairwise (· < ·) := by
  unfold remapMutexes
  split
  · exact pairwise_singleton _ _
  · next differ =>
      split
      · next less => exact pairwise_pair.2 less
      · next notLess => exact pairwise_pair.2 (lt_of_le_of_ne (not_lt.1 notLess) (Ne.symm differ))

variable {mutex : TrackerMutex}

/-- Every shard mutex is below `frame_mutex_`. -/
theorem below_frame (member : mutex ∈ shardMutexes.reverse) : mutex < frameMutex := by
  obtain ⟨index, _, rfl⟩ := mem_map.1 (mem_reverse.1 member)
  exact WithTop.coe_lt_top index

theorem effect_acquire (mutex : TrackerMutex) : TrackerOp.effect (.acquire mutex) = .acquire mutex := rfl

theorem effect_release (mutex : TrackerMutex) : TrackerOp.effect (.release mutex) = .release mutex := rfl

section

variable {ops : List TrackerOp} {op : TrackerOp}

/-- A step of a thread that holds nothing. -/
theorem gives_free (free : op.effect = .under []) : TrackerGives [] [op] := .under free .nil

/-- A lock, and a step under it. -/
theorem gives_scoped {mutex : TrackerMutex} (runs : op.effect = .under [mutex]) :
    TrackerGives [] [.acquire mutex, op] :=
  .acquire (effect_acquire mutex) (by simp) (.under runs .nil)

theorem gives_lockAllShards (runs : op.effect = .under shardMutexes.reverse) :
    TrackerGives [] (lockAllShards ++ [op]) := by
  apply gives_acquireAll effect_acquire shardMutexes_ascending
  · simp
  · rw [append_nil]
    exact .under runs .nil

theorem gives_unlockAllShards (later : TrackerGives [] ops) :
    TrackerGives shardMutexes.reverse (unlockAllShards ++ ops) := by
  have unlocked := gives_releaseAll effect_release shardMutexes.reverse later
  rwa [append_nil] at unlocked

/-- Under all shards, `frame_mutex_` is taken for a step that gives everything back. -/
theorem gives_lockFrame (runs : op.effect = .under (frameMutex :: shardMutexes.reverse)) :
    TrackerGives shardMutexes.reverse [.acquire frameMutex, op] :=
  .acquire (effect_acquire frameMutex) (fun _ => below_frame) (.under runs .nil)

theorem gives_unlockFrame (later : TrackerGives shardMutexes.reverse ops) :
    TrackerGives (frameMutex :: shardMutexes.reverse) (.release frameMutex :: ops) :=
  .release (effect_release frameMutex) later

theorem gives_afterBacktrace (entry : Option NewEntry) (hashIndex : Nat) :
    TrackerGives [] (afterBacktrace entry hashIndex) := by
  unfold afterBacktrace
  cases entry with
  | none => exact .nil
  | some entry =>
      simp only [elim_some]
      split
      · exact .nil
      · exact gives_free rfl

theorem gives_afterEntry (result : LiveTable.SectionResult) : TrackerGives [] (afterEntry result) := by
  unfold afterEntry
  apply Gives.append
  · split
    · exact gives_free rfl
    · exact .nil
  · split
    · exact gives_free rfl
    · exact .nil

end

/-! ### Every step keeps its type -/

variable {θ : Type*} {config : Config} {t : θ} {tracker tracker' : Tracker θ} {input : TrackerInput}
  {op : TrackerOp} {next : List TrackerOp} {held : List TrackerMutex}

/-- A step that is neither a lock nor an unlock leaves the mutexes alone, and what it leaves to do gives back
those it runs under. -/
theorem exec_under_gives (runs : op.effect = .under held)
    (executed : tracker.exec config t input op = some (tracker', next)) :
    tracker'.owner = tracker.owner ∧ TrackerGives held next := by
  cases op
  case acquire | release => cases runs
  case rekey oldPointer newPointer newSize =>
    cases runs
    have unlocked {ops : List TrackerOp} (later : TrackerGives [] ops) :=
      gives_releaseAll effect_release (remapMutexes oldPointer newPointer).reverse later
    simp only [append_nil] at unlocked
    cases moved : tracker.live.remapSection oldPointer newPointer newSize with
    | none =>
        simp only [Tracker.exec, moved, elim_none] at executed
        cases executed
        exact ⟨rfl, by simpa using unlocked .nil⟩
    | some result =>
        simp only [Tracker.exec, moved, elim_some] at executed
        cases executed
        exact ⟨rfl, unlocked (gives_afterEntry result)⟩
  all_goals
    cases runs
    cases executed
    refine ⟨rfl, ?_⟩
  case addBacktrace =>
    split
    · exact gives_scoped rfl
    · exact gives_afterBacktrace _ _
  case intern => exact .release (effect_release _) (gives_afterBacktrace _ _)
  case addEntry | takeEntry | restoreEntry => exact gives_scoped rfl
  case store => exact .release (effect_release _) (gives_afterEntry _)
  case take pointer dropsStack =>
    refine .release (effect_release _) ?_
    cases (tracker.live.takeEntry pointer).1 with
    | none => exact .nil
    | some info =>
        cases dropsStack with
        | true => exact gives_free rfl
        | false => exact .nil
  case restore | dropReference => exact .release (effect_release _) .nil
  case remap =>
    split
    · exact .nil
    · apply gives_acquireAll effect_acquire (remapMutexes_ascending _ _)
      · simp
      · rw [append_nil]
        exact .under rfl .nil
  case removeBacktrace =>
    split
    · exact .nil
    · exact gives_scoped rfl
  case testThreshold =>
    split
    · exact gives_free rfl
    · exact .nil
  case checkObserved | claim =>
    split
    · exact .nil
    · exact gives_free rfl
  case recheckObserved =>
    split
    · exact gives_free rfl
    · exact gives_free rfl
  case collectContext | joinReader => exact gives_lockAllShards rfl
  case retest =>
    split
    · exact gives_unlockAllShards (gives_free rfl)
    · exact gives_lockFrame rfl
  case takeTracked | takeObserved => exact gives_unlockFrame (.under rfl .nil)
  case settleTracked => exact gives_unlockAllShards (gives_free rfl)
  case releaseClaim => exact .nil
  case recordObservedPeak =>
    split
    · exact gives_lockAllShards rfl
    · exact .nil
  case activateObserved => exact gives_lockFrame rfl
  case settleObserved snapshot =>
    refine gives_unlockAllShards ?_
    cases snapshot with
    | none => exact .nil
    | some snapshotGeneration => exact gives_free rfl
  case testGeneration =>
    split
    · exact gives_lockFrame rfl
    · simpa using gives_unlockAllShards .nil
  case storeContext | withAll => exact gives_unlockFrame (by simpa using gives_unlockAllShards .nil)
  case lockAll =>
    apply gives_acquireAll effect_acquire shardMutexes_ascending
    · simp
    · rw [append_nil]
      exact gives_lockFrame rfl

/-- A lock is given to a thread only when nobody holds it. -/
theorem exec_acquire (takes : op.effect = .acquire mutex)
    (executed : tracker.exec config t input op = some (tracker', next)) :
    next = [] ∧ tracker.owner mutex = none ∧ tracker'.owner = update tracker.owner mutex (some t) := by
  cases op <;> cases takes
  simp only [Tracker.exec] at executed
  split at executed <;> cases executed
  next free =>
    refine ⟨rfl, not_isSome_iff_eq_none.1 free, ?_⟩
    funext other
    by_cases same : other = mutex
    · subst same
      rw [update_self]
      exact AList.lookup_insert _
    · rw [update_of_ne same]
      exact AList.lookup_insert_ne same

theorem exec_release (drops : op.effect = .release mutex)
    (executed : tracker.exec config t input op = some (tracker', next)) :
    next = [] ∧ tracker'.owner = update tracker.owner mutex none := by
  cases op <;> cases drops
  cases executed
  refine ⟨rfl, ?_⟩
  funext other
  by_cases same : other = mutex
  · subst same
    rw [update_self]
    exact AList.lookup_erase _ _
  · rw [update_of_ne same]
    exact AList.lookup_erase_ne same

theorem start_gives (call : TrackerCall) : TrackerGives [] [call.start] := by
  apply gives_free
  cases call <;> rfl

/-- The tracker is a system of scoped locks. -/
def trackerLocks (config : Config) :
    LockSystem TrackerMutex (trackerCode config : Code θ (Tracker θ) TrackerOp TrackerCall
      TrackerInput) where
  effect := TrackerOp.effect
  owner := Tracker.owner
  start started := Option.some.inj started ▸ start_gives _
  acquire takes executed := exec_acquire takes executed
  release drops executed := exec_release drops executed
  under runs executed := exec_under_gives runs executed

/-! ### Runs -/

variable [DecidableEq θ] {pool : TrackerPool θ}

theorem tracker_guarded (reached : (MallocHook.tracker config).Reachable pool) :
    Guarded (trackerLocks config) pool :=
  guarded_of_reachable (fun mutex => by simp [trackerLocks, Tracker.owner, Tracker.initial]) reached

/-- Whatever calls threads make and however they interleave: no set of threads waits for mutexes held
within the set, and a thread whose call has returned holds none. -/
theorem tracker_no_deadlock (reached : (MallocHook.tracker config).Reachable pool) :
    (∀ threads : Set θ, threads.Nonempty →
      ¬ ∀ t ∈ threads, ∃ mutex rest holder, holder ∈ threads ∧ pool.todo t = .acquire mutex :: rest ∧
        pool.shared.owner mutex = some holder) ∧
      ∀ t, pool.todo t = [] → ∀ mutex, pool.shared.owner mutex ≠ some t := by
  have guarded := tracker_guarded reached
  constructor
  · intro threads nonempty stuck
    apply guarded.no_deadlock threads
    refine ⟨nonempty, fun t member => ?_⟩
    obtain ⟨mutex, rest, holder, isMember, pending, owned⟩ := stuck t member
    exact ⟨mutex, holder, isMember, .acquire mutex, rest, pending, rfl, owned⟩
  · intro t idle mutex
    exact guarded.released idle mutex

/-- Two threads want the same shard: one holds it, the other waits. -/
theorem tracker_no_deadlock_contended :
    ∃ pool : TrackerPool Bool,
      (pool.shared.owner (shardMutex 4096) = some true ∧ (pool.todo false).length = 2) ∧
        ¬ ∀ t ∈ (Set.univ : Set Bool), ∃ mutex rest holder, holder ∈ (Set.univ : Set Bool) ∧
          pool.todo t = .acquire mutex :: rest ∧ pool.shared.owner mutex = some holder := by
  obtain ⟨pool, ran, found⟩ : ∃ pool ∈ (MallocHook.tracker default).run (MallocHook.tracker default).init
      [.call true (.takeEntry 4096), .call false (.remove 4096), .exec false {}, .exec true {},
        .exec true {}],
      pool.shared.owner (shardMutex 4096) = some true ∧ (pool.todo false).length = 2 := by decide +kernel
  exact ⟨pool, found, (tracker_no_deadlock (Machine.Reachable.run .init ran)).1 Set.univ ⟨true, trivial⟩⟩

/-- As long as a call is in flight, some thread can take a step. -/
theorem tracker_progress (reached : (MallocHook.tracker config).Reachable pool) (busy : pool.todo t ≠ [])
    (input : TrackerInput) :
    ∃ t op rest, pool.todo t = op :: rest ∧ (pool.shared.exec config t input op).isSome := by
  obtain ⟨free, busy, unblocked⟩ := (tracker_guarded reached).someone_free busy
  obtain ⟨op, rest, pending⟩ := exists_cons_of_ne_nil busy
  refine ⟨free, op, rest, pending, ?_⟩
  cases op with
  | acquire mutex =>
      cases owned : pool.shared.owner mutex with
      | none => simp [Tracker.exec, owned]
      | some holder => exact absurd ⟨_, rest, pending, rfl, owned⟩ (unblocked mutex holder)
  | _ => rfl

theorem tracker_progress_contended :
    ∃ pool : TrackerPool Bool, pool.todo false ≠ [] ∧
      ∃ t op rest, pool.todo t = op :: rest ∧ (pool.shared.exec default t {} op).isSome := by
  obtain ⟨pool, ran, busy⟩ : ∃ pool ∈ (MallocHook.tracker default).run (MallocHook.tracker default).init
      [.call true (.takeEntry 4096), .call false (.remove 4096), .exec true {}],
        pool.todo false ≠ [] := by decide +kernel
  exact ⟨pool, busy, tracker_progress (Machine.Reachable.run .init ran) busy {}⟩

end MallocHook
