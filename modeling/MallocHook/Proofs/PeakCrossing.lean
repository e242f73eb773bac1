/-
Module: MallocHook.Proofs.PeakCrossing
Purpose: Whether every new peak beyond the threshold is served. The shards are released before the claim
  is, so a contender can rely on a thread that has nothing left to recheck.
Trusted boundary: none
Main exports: StackCarried, tended_step, crossings_served
-/
import MallocHook.Lib.ClaimedRefresh
import MallocHook.Core.PeakSteps

namespace MallocHook

open Function

open ClaimedRefresh (Stage Move Tended)

/-! ### Where the peak code stands in a call -/

section

variable {θ : Type*}

/-- The steps of `MaybeRecordPeakSnapshot` that stand alone in a call; the others come in a row. -/
def PeakOp.single : PeakOp → Bool
  | .testThreshold _ | .checkObserved | .claim | .recheckObserved | .releaseClaim => true
  | _ => false

/-- How a call of a program thread can continue: with `MaybeRecordPeakSnapshot` first, if it is in it at
all. -/
inductive PeakFirst : List (Op θ) → Prop
  | outside {ops : List (Op θ)} (noPeak : NoPeak ops) : PeakFirst ops
  | alone {peakOp : PeakOp} {rest : List (Op θ)} (single : peakOp.single = true) (noPeak : NoPeak rest) :
      PeakFirst (.peak peakOp :: rest)
  | entering {proc : PeakProcContext} {rest : List (Op θ)} (noPeak : NoPeak rest) :
      PeakFirst (.peak (.trackedSection proc) :: .peak .unlockShards :: .peak .releaseClaim :: rest)
  | leaving {rest : List (Op θ)} (noPeak : NoPeak rest) :
      PeakFirst (.peak .unlockShards :: .peak .releaseClaim :: rest)

/-- The stage of the claim protocol a thread is at. -/
def stageOf : List (Op θ) → Stage Int
  | .peak (.testThreshold trackedTotal) :: _ => .testing trackedTotal
  | .peak .checkObserved :: _ | .peak .claim :: _ => .contending
  | .peak .recheckObserved :: _ | .peak (.trackedSection _) :: _ => .holding
  | .peak .unlockShards :: _ => .inside
  | .peak .releaseClaim :: _ => .releasing
  | _ => .idle

theorem stageOf_noPeak {ops : List (Op θ)} (noPeak : NoPeak ops) : stageOf ops = .idle := by
  cases ops with
  | nil => rfl
  | cons op rest =>
      have notPeak := (List.forall_mem_cons.1 noPeak).1
      cases op with
      | peak peakOp => exact absurd rfl (notPeak peakOp)
      | frame | shard | system | dma => rfl

end

/-! ### The allocation path as the claim protocol -/

section

variable {τ ε : Type*}

/-- What the claim protocol sees of the hook. -/
def crossing (pool : HookPool τ ε) : ClaimedRefresh.State (Option τ) Int where
  level := pool.shared.live.peakTot
  bound := pool.shared.peak.nextPeakRecordThreshold
  claimed := pool.shared.peak.peakProcReadInflight
  locked := pool.shared.shardOwner
  stage t := stageOf (pool.todo t)

/-- The thread is about to exchange the claim. -/
def exchangesNext {θ : Type*} : List (Op θ) → Bool
  | .peak .claim :: _ => true
  | _ => false

/-- The thread has released the shards and still has the claim. -/
def releasesNext {θ : Type*} : List (Op θ) → Bool
  | .peak .releaseClaim :: _ => true
  | _ => false

theorem releasesNext_of_stage {θ : Type*} {ops : List (Op θ)} (releasing : stageOf ops = .releasing) :
    releasesNext ops = true := by
  unfold stageOf at releasing
  split at releasing <;> first | rfl | cases releasing

/-- The thread is about to enter the section under all shards. -/
def entersNext {θ : Type*} : List (Op θ) → Bool
  | .peak (.trackedSection _) :: _ => true
  | _ => false

/-- No thread that finds the claim taken, with `peak_tot` above the threshold, does so after its holder
released the shards. -/
def TimelyExchange (pool : HookPool τ ε) : HookEvent τ → Prop
  | .exec t _ => exchangesNext (pool.todo t) = true → pool.shared.peak.peakProcReadInflight = true →
      (pool.shared.peak.nextPeakRecordThreshold : Int) < pool.shared.live.peakTot →
      ∀ u, releasesNext (pool.todo u) = false
  | .call _ _ => True

/-- Some entry carries a stack whenever a thread enters the section. -/
def StackCarried (pool : HookPool τ ε) : HookEvent τ → Prop
  | .exec t _ => entersNext (pool.todo t) = true →
      ∃ entry ∈ pool.shared.live.entries, kBacktraceEmptyIndex < entry.2.hashIndex
  | .call _ _ => True

instance [Fintype τ] (pool : HookPool τ ε) (event : HookEvent τ) :
    Decidable (TimelyExchange pool event) := by
  induction event using Event.casesOn <;> unfold TimelyExchange <;> infer_instance

instance (pool : HookPool τ ε) (event : HookEvent τ) : Decidable (StackCarried pool event) := by
  induction event using Event.casesOn <;> unfold StackCarried <;> infer_instance

/-- Climb mode, with no observed criterion and no final snapshot. -/
structure Climbing (peak : PeakState) : Prop where
  unobserved : peak.observedPeakActive = false
  notFinal : peak.peakSnapshotFinal = false
  notOnce : peak.trackedPeakOnce = false

/-- Every thread is in order, in climb mode. -/
structure Orderly (pool : HookPool τ ε) : Prop where
  ordered : ∀ t, PeakFirst (pool.todo t)
  climbing : Climbing pool.shared.peak

variable [DecidableEq τ] {config : Config} {env : Environment (Option τ) ε} {pool : HookPool τ ε}
  {t : Option τ} {hook' : Hook (Option τ) ε} {op : Op (Option τ)} {rest next : List (Op (Option τ))}
  {answer : Answer}

theorem crossing_eq (hook' : Hook (Option τ) ε) (ops : List (Op (Option τ))) :
    crossing ⟨hook', update pool.todo t ops⟩ =
      { level := hook'.live.peakTot
        bound := hook'.peak.nextPeakRecordThreshold
        claimed := hook'.peak.peakProcReadInflight
        locked := hook'.shardOwner
        stage := update (crossing pool).stage t (stageOf ops) } := by
  have stage : (fun u => stageOf (update pool.todo t ops u)) =
      update (crossing pool).stage t (stageOf ops) :=
    funext fun u => apply_update (fun _ => stageOf) pool.todo t ops u
  rw [← stage]
  rfl

/-- A step that leaves the peak members alone, by a thread outside the peak code that stays outside. -/
theorem crossing_unchanged (idle : stageOf (pool.todo t) = .idle) {ops : List (Op (Option τ))}
    (stays : stageOf ops = .idle) (samePeakTot : hook'.live.peakTot = pool.shared.live.peakTot)
    (samePeak : hook'.peak = pool.shared.peak) (sameOwner : hook'.shardOwner = pool.shared.shardOwner) :
    crossing ⟨hook', update pool.todo t ops⟩ = crossing pool := by
  have sameStage : update (crossing pool).stage t (stageOf ops) = (crossing pool).stage := by
    rw [update_eq_self_iff, stays]
    exact idle.symm
  rw [crossing_eq, sameStage, samePeakTot, samePeak, sameOwner]
  rfl

/-- What a step of a thread with `ops` left does: a move of the claim protocol or nothing it sees, and the
threshold moves only with a snapshot. -/
structure Progress (pool : HookPool τ ε) (t : Option τ) (hook' : Hook (Option τ) ε)
    (ops : List (Op (Option τ))) : Prop where
  moves : Move t (crossing pool) (crossing ⟨hook', update pool.todo t ops⟩) ∨
    crossing ⟨hook', update pool.todo t ops⟩ = crossing pool
  ordered : PeakFirst ops
  climbing : Climbing hook'.peak
  snapped : hook'.peak.nextPeakRecordThreshold = pool.shared.peak.nextPeakRecordThreshold ∧
      pool.shared.snapshots ⊆ hook'.snapshots ∨
    .tracked ∈ hook'.snapshots

/-- A thread outside the peak code stays outside, or raises the level. -/
theorem outside_step (orderly : Orderly pool) (pending : pool.todo t = op :: rest)
    (noPeak : NoPeak (op :: rest))
    (executed : execOp config env t pool.shared op answer = some (hook', next)) :
    Progress pool t hook' (next ++ rest) := by
  have idle : stageOf (pool.todo t) = .idle := by rw [pending, stageOf_noPeak noPeak]
  have restNoPeak := noPeak.tail
  -- Whatever an operation leaves to do outside the peak code, the thread stays outside.
  have stays : NoPeak next → hook'.live.peakTot = pool.shared.live.peakTot →
      hook'.peak = pool.shared.peak → hook'.shardOwner = pool.shared.shardOwner →
      hook'.snapshots = pool.shared.snapshots → Progress pool t hook' (next ++ rest) :=
    fun nextNoPeak samePeakTot samePeak sameOwner sameSnapshots =>
      { moves := .inr (crossing_unchanged idle (stageOf_noPeak (nextNoPeak.append restNoPeak))
          samePeakTot samePeak sameOwner)
        ordered := .outside (nextNoPeak.append restNoPeak)
        climbing := samePeak ▸ orderly.climbing
        snapped := .inl ⟨by rw [samePeak], sameSnapshots ▸ List.Subset.refl _⟩ }
  rcases execOp_cases executed with
    ⟨frameOp, rfl, framed⟩ | ⟨shardOp, live', rfl, unlocked, sectioned, rfl⟩ |
      ⟨systemOp, world, rfl, -, rfl, rfl⟩ | ⟨peakOp, rfl, -⟩ | ⟨dmaOp, rfl, transacted⟩
  · cases framed
    exact stays (noPeak_frame _ _ _ _) rfl rfl rfl rfl
  · rcases shard_raises sectioned with ⟨samePeakTot, nextNoPeak⟩ | ⟨higher, later, rfl, laterNoPeak⟩
    · exact stays nextNoPeak samePeakTot rfl rfl rfl
    · refine ⟨.inl ?_, .alone rfl (laterNoPeak.append restNoPeak), orderly.climbing,
        .inl ⟨rfl, List.Subset.refl _⟩⟩
      rw [crossing_eq]
      exact .raise idle unlocked higher
  · exact stays (noPeak_system _ _ _) rfl rfl rfl rfl
  · exact absurd rfl ((List.forall_mem_cons.1 noPeak).1 peakOp)
  · obtain ⟨sameLive, -, samePeak, -, sameOwner, -, -, sameSnapshots⟩ := execDma_frame transacted
    exact stays (noPeak_dma transacted) (by rw [sameLive]) samePeak sameOwner sameSnapshots

/-- A step of the peak code that retains no snapshot and leaves the threshold where it is. -/
theorem Progress.of_move {ops : List (Op (Option τ))} (moves : Move t (crossing pool)
      { level := hook'.live.peakTot
        bound := hook'.peak.nextPeakRecordThreshold
        claimed := hook'.peak.peakProcReadInflight
        locked := hook'.shardOwner
        stage := update (crossing pool).stage t (stageOf ops) }) (ordered : PeakFirst ops)
    (climbing : Climbing hook'.peak)
    (sameThreshold : hook'.peak.nextPeakRecordThreshold = pool.shared.peak.nextPeakRecordThreshold)
    (sameSnapshots : hook'.snapshots = pool.shared.snapshots) : Progress pool t hook' ops :=
  ⟨.inl (crossing_eq hook' ops ▸ moves), ordered, climbing,
    .inl ⟨sameThreshold, sameSnapshots ▸ List.Subset.refl _⟩⟩

/-- A thread in the peak code takes a step of the claim protocol, or one the protocol does not see. -/
theorem peak_step (recording : config.has optionRecordMemoryPeak = true) (orderly : Orderly pool)
    {peakOp : PeakOp} (pending : pool.todo t = .peak peakOp :: rest)
    (timely : TimelyExchange pool (.exec t answer)) (carried : StackCarried pool (.exec t answer))
    (executed : pool.shared.execPeak config t answer peakOp = some (hook', next)) :
    Progress pool t hook' (next ++ rest) := by
  have ordered := orderly.ordered t
  have climbing := orderly.climbing
  have stage : (crossing pool).stage t = stageOf (.peak peakOp :: rest) := congrArg stageOf pending
  rw [pending] at ordered
  cases ordered with
  | outside noPeak => exact absurd rfl ((List.forall_mem_cons.1 noPeak).1 peakOp)
  | alone single noPeak =>
      have after : stageOf rest = .idle := stageOf_noPeak noPeak
      -- The protocol does not see the checks of the observed criterion.
      have unseen : ∀ {ops}, stageOf ops = stageOf (pool.todo t) → PeakFirst ops →
          Progress pool t pool.shared ops := fun sameStage ordered => by
        refine ⟨.inr ?_, ordered, climbing, .inl ⟨rfl, List.Subset.refl _⟩⟩
        rw [crossing_eq, update_eq_self_iff.2 sameStage]
        rfl
      cases peakOp
      case unlockShards | trackedSection | takeSample | observedSection | applyProcContext | settle =>
        cases single
      all_goals obtain ⟨⟩ := executed
      case testThreshold trackedTotal =>
        simp only [PeakState.crossesThreshold, recording, Bool.true_and, decide_eq_true_eq]
        split
        · next beyond => exact .of_move (.cross stage beyond) (.alone rfl noPeak) climbing rfl rfl
        · next within =>
            refine .of_move ?_ (.outside noPeak) climbing rfl rfl
            rw [List.nil_append, after]
            exact .pass stage (Int.not_lt.1 within)
      case checkObserved =>
        simp only [PeakState.observedOwns, climbing.unobserved, Bool.false_and]
        exact unseen (by rw [pending]; rfl) (.alone rfl noPeak)
      case claim =>
        by_cases taken : pool.shared.peak.claimProcRead.1 = true
        · rw [if_pos taken, List.nil_append]
          refine .of_move ?_ (.outside noPeak) ⟨climbing.1, climbing.2, climbing.3⟩ rfl rfl
          have notLate : (crossing pool).bound < (crossing pool).level →
              ∀ u, (crossing pool).stage u ≠ .releasing := fun beyond u late => by
            have next := releasesNext_of_stage late
            rw [timely (by rw [pending]; rfl) taken beyond u] at next
            cases next
          have gaveUp := Move.giveUp (s := crossing pool) stage taken notLate
          rw [show (crossing pool).claimed = true from taken] at gaveUp
          rw [after]
          exact gaveUp
        · rw [if_neg taken]
          exact .of_move (.take stage (Bool.eq_false_iff.2 taken)) (.alone rfl noPeak)
            ⟨climbing.1, climbing.2, climbing.3⟩ rfl rfl
      case recheckObserved =>
        simp only [PeakState.observedOwns, climbing.unobserved, Bool.false_and]
        exact unseen (by rw [pending]; rfl) (.entering noPeak)
      case releaseClaim =>
        refine .of_move ?_ (.outside noPeak) ⟨climbing.1, climbing.2, climbing.3⟩ rfl rfl
        rw [List.nil_append, after]
        exact .release stage
  | entering noPeak =>
      simp only [Hook.execPeak] at executed
      split at executed <;> cases executed
      next unlocked =>
        obtain ⟨threshold, covers, control, snapped⟩ := trackedSection_climbs config pool.shared.live
          pool.shared.stackTable answer.stalled _ answer.nowUs climbing.unobserved climbing.notFinal
            climbing.notOnce
        simp only [PeakState.control, Prod.mk.injEq] at control
        obtain ⟨bound, -, final, once, inflight, active⟩ := control
        refine ⟨.inl ?_, .leaving noPeak, ⟨active, final, once⟩, ?_⟩
        · rw [crossing_eq]
          simp only [Hook.underAllShards, bound, inflight]
          exact .enter stage (Option.not_isSome_iff_eq_none.1 unlocked) covers
        · rcases snapped with same | noStack | ⟨generation, source⟩
          · refine .inl ⟨bound.trans same, ?_⟩
            simp only [Hook.underAllShards]
            split
            · exact List.Subset.refl _
            · exact List.subset_append_left _ _
          · obtain ⟨entry, listed, hasStack⟩ := carried (by rw [pending]; rfl)
            exact absurd (noStack entry listed) (Nat.not_le.2 hasStack)
          · refine .inr ?_
            simp [Hook.underAllShards, generation, source]
  | leaving noPeak =>
      cases executed
      exact .of_move (.leave stage) (.alone rfl noPeak) climbing rfl rfl

/-- Every step of a program thread keeps the threads in order and an open level attended. -/
theorem tended_step {pool' : HookPool τ ε} {event : HookEvent τ}
    (recording : config.has optionRecordMemoryPeak = true) (orderly : Orderly pool)
    (tended : Tended (crossing pool)) (byProgram : event.thread.isSome = true)
    (timely : TimelyExchange pool event) (carried : StackCarried pool event)
    (stepped : (hooked config env).step pool event = some pool') :
    Orderly pool' ∧ Tended (crossing pool') ∧
      (pool'.shared.peak.nextPeakRecordThreshold = pool.shared.peak.nextPeakRecordThreshold ∧
          pool.shared.snapshots ⊆ pool'.shared.snapshots ∨
        .tracked ∈ pool'.shared.snapshots) := by
  rcases Code.step_call_or_exec stepped with
    ⟨t, request, ops, rfl, idle, started, rfl⟩ | ⟨t, answer, op, rest, hook', next, rfl,
      pending, executed, rfl⟩
  · have noPeak : NoPeak ops := noPeak_startCall byProgram started
    have same : crossing (pool.setTodo t ops) = crossing pool :=
      crossing_unchanged (by rw [idle]; rfl) (stageOf_noPeak noPeak) rfl rfl rfl
    refine ⟨⟨?_, orderly.climbing⟩, same ▸ tended, .inl ⟨rfl, List.Subset.refl _⟩⟩
    exact (forall_update_iff pool.todo fun _ ops => PeakFirst ops).2
      ⟨.outside noPeak, fun u _ => orderly.ordered u⟩
  · have executed : execOp config env t pool.shared op answer = some (hook', next) := executed
    have progress : Progress pool t hook' (next ++ rest) := by
      cases op with
      | peak peakOp => exact peak_step recording orderly pending timely carried executed
      | frame | shard | system | dma =>
          have noPeak : NoPeak (pool.todo t) := by
            have ordered := orderly.ordered t
            rw [pending] at ordered ⊢
            cases ordered with
            | outside noPeak => exact noPeak
          exact outside_step orderly pending (pending ▸ noPeak) executed
    refine ⟨⟨?_, progress.climbing⟩, ?_, progress.snapped⟩
    · exact (forall_update_iff pool.todo fun _ ops => PeakFirst ops).2
        ⟨progress.ordered, fun u _ => orderly.ordered u⟩
    · rcases progress.moves with moves | same
      · exact tended.move moves
      · exact same ▸ tended

/-- In climb mode without an observed sampler, when a stack is carried at every snapshot and no contender
comes upon a claim whose holder is done: once all calls have returned, `peak_tot` is at most the threshold.
-/
theorem crossings_served (climbs : config.peakRetention = .chaseMax)
    (recording : config.has optionRecordMemoryPeak = true)
    (reached : (hooked config env).ReachableBy (fun pool event => event.thread.isSome = true ∧
      StackCarried pool event ∧ TimelyExchange pool event) pool) (returned : pool.Quiescent) :
    pool.shared.live.peakTot ≤ pool.shared.peak.nextPeakRecordThreshold ∧
      (pool.shared.live.peakTot > config.backtraceDumpPeakVal → .tracked ∈ pool.shared.snapshots) := by
  have all : Orderly pool ∧ Tended (crossing pool) ∧
      (pool.shared.peak.nextPeakRecordThreshold = config.backtraceDumpPeakVal ∨
        .tracked ∈ pool.shared.snapshots) := by
    refine reached.invariant (P := fun pool => Orderly pool ∧ Tended (crossing pool) ∧
      (pool.shared.peak.nextPeakRecordThreshold = config.backtraceDumpPeakVal ∨
        .tracked ∈ pool.shared.snapshots)) ?_ ?_
    · have notOnce : (PeakState.initial config).trackedPeakOnce = false := by
        simp [PeakState.initial, climbs]
      have notBeyond : ¬ ((config.backtraceDumpPeakVal : Int) < 0) := by omega
      exact ⟨⟨fun t => .outside .nil, rfl, rfl, notOnce⟩,
        ⟨nofun, nofun, nofun, fun beyond => absurd beyond notBeyond⟩, .inl rfl⟩
    · rintro before after event ⟨orderly, tended, snapped⟩ ⟨byProgram, carried, timely⟩ stepped
      obtain ⟨orderly', tended', moved⟩ := tended_step recording orderly tended byProgram timely
        carried stepped
      refine ⟨orderly', tended', ?_⟩
      rcases moved with ⟨same, kept⟩ | now
      · exact snapped.imp same.trans fun before => kept before
      · exact .inr now
  obtain ⟨-, tended, snapped⟩ := all
  have within : pool.shared.live.peakTot ≤ pool.shared.peak.nextPeakRecordThreshold :=
    tended.settled fun t => congrArg stageOf (returned t)
  exact ⟨within, fun beyond => snapped.resolve_left fun same => by omega⟩

end

/-! ### A contender that comes too late -/

/-- Peaks are recorded in climb mode, in steps of 1 MiB. -/
def climbConfig : Config :=
  { trackingConfig with
    options := optionBacktrace ||| optionTrackAllocs ||| optionRecordMemoryPeak
    peakRecordStepBytes := 2 ^ 20 }

/-- The first thread claims, takes its snapshot and releases the shards; the second crosses the threshold
and finds the claim taken; then the claim is released. -/
def lateContenderRun : List (HookEvent Worker) :=
  allocBlock (some .one) 0x10000 100000000 ++ proceed (some .one) 6 ++
    allocBlock (some .two) 0x20000 50000000 ++ proceed (some .two) 3 ++ proceed (some .one) 1

/-- All calls have returned, and the peak of 150 MB is beyond the threshold of 100 MB and a step. -/
theorem late_contender_unserved :
    ∃ pool, (hooked climbConfig (.any (Option Worker))).ReachableBy
        (fun pool event => event.thread.isSome = true ∧ StackCarried pool event) pool ∧
      pool.Quiescent ∧ pool.shared.live.peakTot = 150000000 ∧
      pool.shared.peak.nextPeakRecordThreshold = 101048576 := by
  obtain ⟨pool, ran, seen⟩ : ∃ pool ∈ (hooked climbConfig (.any (Option Worker))).run
      (hooked climbConfig (.any (Option Worker))).init lateContenderRun, (∀ t, pool.todo t = []) ∧
        pool.shared.live.peakTot = 150000000 ∧ pool.shared.peak.nextPeakRecordThreshold = 101048576 := by
    decide +kernel
  have respects : (hooked climbConfig (.any (Option Worker))).Respects
      (fun pool event => event.thread.isSome = true ∧ StackCarried pool event)
      (hooked climbConfig (.any (Option Worker))).init lateContenderRun := by decide +kernel
  exact ⟨pool, .of_run .init respects ran, seen⟩

/-- The same two threads, with the contender giving up before the holder enters its section. -/
def timelyContenderRun : List (HookEvent Worker) :=
  allocBlock (some .one) 0x10000 100000000 ++ proceed (some .one) 4 ++
    allocBlock (some .two) 0x20000 50000000 ++ proceed (some .two) 3 ++ proceed (some .one) 3

theorem crossings_served_timelyContender :
    ∃ pool, (hooked climbConfig (.any (Option Worker))).run
        (hooked climbConfig (.any (Option Worker))).init timelyContenderRun = some pool ∧
      pool.Quiescent ∧ pool.shared.live.peakTot = 150000000 ∧
      150000000 ≤ (pool.shared.peak.nextPeakRecordThreshold : Int) := by
  obtain ⟨pool, ran, idle, peak⟩ : ∃ pool ∈ (hooked climbConfig (.any (Option Worker))).run
      (hooked climbConfig (.any (Option Worker))).init timelyContenderRun,
        (∀ t, pool.todo t = []) ∧ pool.shared.live.peakTot = 150000000 := by decide +kernel
  have respects : (hooked climbConfig (.any (Option Worker))).Respects
      (fun pool event => event.thread.isSome = true ∧ StackCarried pool event ∧ TimelyExchange pool event)
      (hooked climbConfig (.any (Option Worker))).init timelyContenderRun := by decide +kernel
  have reached := Machine.ReachableBy.of_run .init respects ran
  exact ⟨pool, ran, idle, peak, peak ▸ (crossings_served rfl (by decide +kernel) reached idle).1⟩

end MallocHook
