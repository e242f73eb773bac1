/-
Module: MallocHook.Proofs.PeakRetention
Purpose: What first-crossing retention keeps over a whole run: nothing, one snapshot of either source,
  or a tracked one and then an observed one.
Trusted boundary: none
Main exports: RetainsOnce, first_crossing_retains_once
-/
import MallocHook.Core.PeakSteps

namespace MallocHook

open List Function Option

/-! ### The sampler's own operations -/

section

variable {θ : Type*}

/-- The operations only the sampler has. -/
def Op.ofSampler : Op θ → Bool
  | .peak (.takeSample _) | .peak (.observedSection _) | .peak (.applyProcContext _)
  | .peak (.settle _ _) => true
  | _ => false

/-- The operations that follow a snapshot of the sampler. -/
def Op.concludes : Op θ → Bool
  | .peak .unlockShards | .peak (.applyProcContext _) | .peak (.settle _ _) => true
  | _ => false

/-- What the sampler can have left to do: take its sample, take the snapshot it calls for, or conclude. -/
inductive SamplerTodo : List (Op θ) → Prop
  | sampling (sample : ObservedMemSample) : SamplerTodo [.peak (.takeSample sample)]
  | observing (sample : ObservedMemSample) : SamplerTodo [.peak (.observedSection sample)]
  | concluding {ops : List (Op θ)} (concludes : ∀ op ∈ ops, op.concludes = true) : SamplerTodo ops

theorem NoPeak.notOfSampler {ops : List (Op θ)} (noPeak : NoPeak ops) :
    ∀ op ∈ ops, op.ofSampler = false := by
  intro op member
  cases op with
  | peak peakOp => exact absurd rfl (noPeak _ member peakOp)
  | frame | shard | system | dma => rfl

end

/-! ### What an operation does to the snapshots -/

section

variable {τ ε : Type*}

/-- Two states retain the same snapshot, and the same ones were retained before. -/
structure SameRetention (hook' hook : Hook (Option τ) ε) : Prop where
  retained : hook'.peak.retained = hook.peak.retained
  final : hook'.peak.peakSnapshotFinal = hook.peak.peakSnapshotFinal
  once : hook'.peak.trackedPeakOnce = hook.peak.trackedPeakOnce
  snapshots : hook'.snapshots = hook.snapshots

theorem SameRetention.of_eq {hook hook' : Hook (Option τ) ε} (samePeak : hook'.peak = hook.peak)
    (sameSnapshots : hook'.snapshots = hook.snapshots) : SameRetention hook' hook :=
  ⟨by rw [samePeak], by rw [samePeak], by rw [samePeak], sameSnapshots⟩

/-- One more snapshot was retained, and is final. -/
structure NewSnapshot (source : PeakSnapshotSource) (hook' hook : Hook (Option τ) ε) : Prop where
  final : hook'.peak.peakSnapshotFinal = true
  once : hook'.peak.trackedPeakOnce = hook.peak.trackedPeakOnce
  snapshots : hook'.snapshots = hook.snapshots ++ [source]

theorem NewSnapshot.of_retained {hook : Hook (Option τ) ε} {t : Option τ} {peak peak' : PeakState}
    {source : PeakSnapshotSource} (retained : peak.Retained source peak')
    (generation : peak.peakSnapshotGeneration = hook.peak.peakSnapshotGeneration)
    (once : peak.trackedPeakOnce = hook.peak.trackedPeakOnce) :
    NewSnapshot source (hook.underAllShards t peak'.finalize) hook where
  final := rfl
  once := by
    have control := retained.control
    simp only [PeakState.control, Prod.mk.injEq] at control
    exact control.2.2.2.1.trans once
  snapshots := by
    have grows : peak'.peakSnapshotGeneration ≠ hook.peak.peakSnapshotGeneration := by
      rw [retained.generation, generation]
      omega
    simp [Hook.underAllShards, PeakState.finalize, grows, retained.source]

variable [DecidableEq τ] {config : Config} {env : Environment (Option τ) ε} {t : Option τ}
  {hook hook' : Hook (Option τ) ε} {op : Op (Option τ)} {answer : Answer}
  {next : List (Op (Option τ))}

/-- In first-crossing mode an operation retains no snapshot, or is the tracked section while none is
final, or the observed one, which goes on to tell the sampler. -/
theorem execOp_retention (first : config.peakRetention = .firstCrossing)
    (once : hook.peak.trackedPeakOnce = true)
    (executed : execOp config env t hook op answer = some (hook', next)) :
    SameRetention hook' hook ∨
      (hook.peak.peakSnapshotFinal = false ∧ op.ofSampler = false ∧ NewSnapshot .tracked hook' hook) ∨
      ∃ sample, op = .peak (.observedSection sample) ∧ NewSnapshot .observed hook' hook ∧
        .peak (.settle sample true) ∈ next := by
  rcases execOp_cases executed with
    ⟨frameOp, rfl, framed⟩ | ⟨shardOp, live', rfl, -, -, rfl⟩ | ⟨systemOp, world, rfl, -, rfl, -⟩ |
      ⟨peakOp, rfl, peaked⟩ | ⟨dmaOp, rfl, transacted⟩
  · cases framed
    exact .inl (.of_eq rfl rfl)
  · exact .inl (.of_eq rfl rfl)
  · exact .inl (.of_eq rfl rfl)
  · cases peakOp <;> simp only [Hook.execPeak] at peaked
    case trackedSection proc =>
      split at peaked
      · cases peaked
      cases peaked
      rcases trackedSection_once config hook.live hook.stackTable answer.stalled proc answer.nowUs once
        with same | ⟨notFinal, peak', result, retained⟩
      · exact .inl (.of_eq same (by simp [Hook.underAllShards, same]))
      · refine .inr (.inl ⟨notFinal, rfl, ?_⟩)
        rw [result]
        exact .of_retained retained rfl rfl
    case observedSection sample =>
      split at peaked
      · cases peaked
      cases peaked
      rcases observedSection_once config hook.live hook.stackTable answer.nowUs first sample
        with result | ⟨peak', result, retained⟩
      · rw [result]
        exact .inl ⟨rfl, rfl, rfl, by simp [Hook.underAllShards, PeakState.activateObserved]⟩
      · rw [result]
        exact .inr (.inr ⟨sample, rfl, .of_retained retained rfl rfl, by simp⟩)
    case applyProcContext generation =>
      split at peaked
      · cases peaked
      cases peaked
      obtain ⟨control, retained, same⟩ := applyPeakProcContextLocked_members answer.proc generation
      simp only [PeakState.control, Prod.mk.injEq] at control
      exact .inl ⟨retained, control.2.2.1, control.2.2.2.1, by simp [Hook.underAllShards, same]⟩
    all_goals
      cases peaked
      exact .inl ⟨rfl, rfl, rfl, rfl⟩
  · obtain ⟨-, -, samePeak, -, -, -, -, sameSnapshots⟩ := execDma_frame transacted
    exact .inl (.of_eq samePeak sameSnapshots)

/-- The sampler's threshold stays pinned, and is pinned once the sampler learns that a snapshot was
retained. -/
theorem execOp_sampler (oneShot : hook.sampler.oneShot = true)
    (executed : execOp config env t hook op answer = some (hook', next)) :
    hook'.sampler.oneShot = true ∧
      (hook.sampler.nextThreshold = sizeMax ∨ (∃ sample, op = .peak (.settle sample true)) →
        hook'.sampler.nextThreshold = sizeMax) := by
  have unchanged : hook'.sampler = hook.sampler → (∀ sample, op ≠ .peak (.settle sample true)) →
      hook'.sampler.oneShot = true ∧
        (hook.sampler.nextThreshold = sizeMax ∨ (∃ sample, op = .peak (.settle sample true)) →
          hook'.sampler.nextThreshold = sizeMax) := by
    intro same notSettling
    rw [same]
    refine ⟨oneShot, fun before => before.resolve_right ?_⟩
    rintro ⟨sample, settles⟩
    exact notSettling sample settles
  rcases execOp_cases executed with
    ⟨frameOp, rfl, framed⟩ | ⟨shardOp, live', rfl, -, -, rfl⟩ | ⟨systemOp, world, rfl, -, rfl, -⟩ |
      ⟨peakOp, rfl, peaked⟩ | ⟨dmaOp, rfl, transacted⟩
  · cases framed
    exact unchanged rfl (by simp)
  · exact unchanged rfl (by simp)
  · exact unchanged rfl (by simp)
  · cases peakOp <;> simp only [Hook.execPeak] at peaked
    case takeSample sample =>
      cases peaked
      simp only [Sampler.observe]
      split <;> exact ⟨oneShot, fun before => before.resolve_right (by simp)⟩
    case settle sample retained =>
      cases peaked
      cases retained <;> simp [Sampler.settle, oneShot]
    case trackedSection | observedSection | applyProcContext =>
      split at peaked
      · cases peaked
      cases peaked
      exact unchanged rfl (by simp)
    all_goals
      cases peaked
      exact unchanged rfl (by simp)
  · obtain ⟨-, -, -, sameSampler, -⟩ := execDma_frame transacted
    exact unchanged sameSampler (by simp)

/-- A program's operation leaves no operation of the sampler to do. -/
theorem execOp_notOfSampler (notOfSampler : op.ofSampler = false)
    (executed : execOp config env t hook op answer = some (hook', next)) :
    ∀ later ∈ next, later.ofSampler = false := by
  rcases execOp_cases executed with
    ⟨frameOp, rfl, framed⟩ | ⟨shardOp, live', rfl, -, sectioned, -⟩ |
      ⟨systemOp, world, rfl, -, -, rfl⟩ | ⟨peakOp, rfl, peaked⟩ | ⟨dmaOp, rfl, transacted⟩
  · cases framed
    exact (noPeak_frame _ _ _ _).notOfSampler
  · rcases shard_raises sectioned with ⟨-, noPeak⟩ | ⟨-, rest, rfl, noPeak⟩
    · exact noPeak.notOfSampler
    · exact forall_mem_cons.2 ⟨rfl, noPeak.notOfSampler⟩
  · exact (noPeak_system _ _ _).notOfSampler
  · cases peakOp <;> simp only [Hook.execPeak] at peaked
    case takeSample | observedSection | applyProcContext | settle => cases notOfSampler
    all_goals
      repeat' split at peaked
      all_goals cases peaked
      all_goals simp [Op.ofSampler]
  · exact (noPeak_dma transacted).notOfSampler

/-- The sampler takes the snapshot only while its threshold is not pinned, and concludes after it. -/
theorem execOp_ofSampler {rest : List (Op (Option τ))} (todo : SamplerTodo (op :: rest))
    (executed : execOp config env t hook op answer = some (hook', next)) :
    SamplerTodo (next ++ rest) ∧
      ∀ sample, .peak (.observedSection sample) ∈ next ++ rest →
        hook.sampler.nextThreshold ≠ sizeMax ∧ ∀ sample, .peak (.settle sample true) ∉ op :: rest := by
  cases todo with
  | sampling sample =>
      cases executed
      simp only [append_nil]
      split
      · next calls =>
          split
          · refine ⟨.observing sample, fun _ _ => ⟨fun pinned => ?_, by simp⟩⟩
            rw [Sampler.observe_pinned pinned] at calls
            cases calls
          · exact ⟨.concluding (by simp [Op.concludes]), by simp⟩
      · exact ⟨.concluding (by simp), by simp⟩
  | observing sample =>
      have executed : hook.execPeak config t answer (.observedSection sample) =
        some (hook', next) := executed
      simp only [Hook.execPeak] at executed
      split at executed
      · cases executed
      cases executed
      simp only [append_nil]
      split <;> exact ⟨.concluding (by simp [Op.concludes]), by simp⟩
  | concluding concludes =>
      obtain ⟨concludesNow, concludesLater⟩ := forall_mem_cons.1 concludes
      have nothing : next = [] := by
        cases op with
        | peak peakOp =>
            have executed : hook.execPeak config t answer peakOp = some (hook', next) := executed
            cases peakOp with
            | unlockShards | settle =>
                cases executed
                rfl
            | applyProcContext =>
                simp only [Hook.execPeak] at executed
                split at executed <;> cases executed
                rfl
            | _ => cases concludesNow
        | frame | shard | system | dma => cases concludesNow
      subst nothing
      refine ⟨.concluding concludesLater, fun sample member => ?_⟩
      cases concludesLater _ member

end

/-! ### Whole runs -/

section

variable {τ ε : Type*}

/-- What first-crossing retention keeps along a run. -/
structure RetainsOnce (pool : HookPool τ ε) : Prop where
  once : pool.shared.peak.trackedPeakOnce = true
  oneShot : pool.shared.sampler.oneShot = true
  /-- The snapshots retained so far, in order. -/
  history : pool.shared.snapshots ∈ [[], [.tracked], [.observed], [PeakSnapshotSource.tracked, .observed]]
  final : pool.shared.snapshots ≠ [] → pool.shared.peak.peakSnapshotFinal = true
  program : ∀ t, ∀ op ∈ pool.todo (some t), op.ofSampler = false
  sampler : SamplerTodo (pool.todo none)
  /-- The sampler is not about to replace a snapshot of its own. -/
  observing : ∀ sample, .peak (.observedSection sample) ∈ pool.todo none →
    .observed ∉ pool.shared.snapshots
  /-- Once it retained one, its threshold is pinned, or is as soon as it concludes. -/
  pinned : .observed ∈ pool.shared.snapshots → pool.shared.sampler.nextThreshold = sizeMax ∨
    ∃ sample, .peak (.settle sample true) ∈ pool.todo none

variable [DecidableEq τ] {config : Config} {env : Environment (Option τ) ε} {pool pool' : HookPool τ ε}
  {event : HookEvent τ}

omit [DecidableEq τ] in
theorem RetainsOnce.init (first : config.peakRetention = .firstCrossing) :
    RetainsOnce (⟨.initial config env, fun _ => []⟩ : HookPool τ ε) where
  once := by simp [Hook.initial, PeakState.initial, first]
  oneShot := by simp [Hook.initial, Sampler.ofConfig, first]
  history := by simp [Hook.initial]
  final := by simp [Hook.initial]
  program := by simp
  sampler := .concluding (by simp)
  observing := by simp
  pinned := by simp [Hook.initial]

/-- An operation leaves the snapshots, or retains the first one, or is the sampler's and retains its first
one. -/
theorem RetainsOnce.exec {t : Option τ} {hook' : Hook (Option τ) ε} {op : Op (Option τ)}
    {rest next : List (Op (Option τ))} {answer : Answer} (retains : RetainsOnce pool)
    (first : config.peakRetention = .firstCrossing) (pending : pool.todo t = op :: rest)
    (executed : execOp config env t pool.shared op answer = some (hook', next)) :
    SameRetention hook' pool.shared ∨
      (pool.shared.snapshots = [] ∧ op.ofSampler = false ∧ NewSnapshot .tracked hook' pool.shared) ∨
      (t = none ∧ .observed ∉ pool.shared.snapshots ∧ NewSnapshot .observed hook' pool.shared ∧
        ∃ sample, .peak (.settle sample true) ∈ next) := by
  rcases execOp_retention first retains.once executed with
    same | ⟨notFinal, notOfSampler, new⟩ | ⟨sample, rfl, new, settles⟩
  · exact .inl same
  · refine .inr (.inl ⟨?_, notOfSampler, new⟩)
    by_contra some
    rw [retains.final some] at notFinal
    cases notFinal
  · have mine : t = none := by
      cases t with
      | none => rfl
      | some worker =>
          have notOfSampler := retains.program worker _ (by rw [pending]; exact mem_cons_self)
          cases notOfSampler
    subst mine
    exact .inr (.inr ⟨rfl, retains.observing sample (by rw [pending]; exact mem_cons_self), new,
      sample, settles⟩)

/-- A call starts with no operation of the sampler, or is the sampler's round. -/
theorem RetainsOnce.call {t : Option τ} {request : Request (Option τ)} {ops : List (Op (Option τ))}
    (retains : RetainsOnce pool) (idle : pool.todo t = [])
    (started : startCall config t request = some ops) : RetainsOnce (pool.setTodo t ops) := by
  cases t with
  | none =>
      cases request with
      | sample sample =>
          cases started
          have todo : (pool.setTodo none (startHooked config (.sample sample))).todo none =
              [.peak (.takeSample sample)] := pool.setTodo_self none _
          refine ⟨retains.once, retains.oneShot, retains.history, retains.final, fun u => ?_, ?_, ?_,
            fun observed => .inl ?_⟩
          · rw [pool.setTodo_other _ (some_ne_none u)]
            exact retains.program u
          · rw [todo]
            exact .sampling sample
          · rw [todo]
            simp
          · refine (retains.pinned observed).resolve_right ?_
            simp [idle]
      | _ => cases started
  | some worker =>
      have notOfSampler : ∀ op ∈ ops, op.ofSampler = false := (noPeak_startCall rfl started).notOfSampler
      have sampler : (pool.setTodo (some worker) ops).todo none = pool.todo none :=
        pool.setTodo_other ops (some_ne_none worker).symm
      refine ⟨retains.once, retains.oneShot, retains.history, retains.final, fun u => ?_, ?_, ?_, ?_⟩
      · by_cases mine : u = worker
        · rw [mine, pool.setTodo_self]
          exact notOfSampler
        · rw [pool.setTodo_other ops fun same => mine (Option.some.inj same)]
          exact retains.program u
      · exact sampler ▸ retains.sampler
      · exact sampler ▸ retains.observing
      · exact sampler ▸ retains.pinned

/-- A sampler that is about to tell that a snapshot was retained is not about to take one. -/
theorem SamplerTodo.not_observing {θ : Type*} {ops : List (Op θ)} (todo : SamplerTodo ops)
    {told sample : ObservedMemSample} (settles : .peak (.settle told true) ∈ ops) :
    .peak (.observedSection sample) ∉ ops := by
  intro member
  cases todo with
  | sampling | observing => simp at settles
  | concluding concludes => cases concludes _ member

/-- An operation keeps the invariant. -/
theorem RetainsOnce.executed {t : Option τ} {hook' : Hook (Option τ) ε} {op : Op (Option τ)}
    {rest next : List (Op (Option τ))} {answer : Answer} (retains : RetainsOnce pool)
    (first : config.peakRetention = .firstCrossing) (pending : pool.todo t = op :: rest)
    (executed : execOp config env t pool.shared op answer = some (hook', next)) :
    RetainsOnce ⟨hook', update pool.todo t (next ++ rest)⟩ := by
  obtain ⟨oneShot, pinned⟩ := execOp_sampler retains.oneShot executed
  have outcome := retains.exec first pending executed
  have history : hook'.snapshots ∈ [[], [.tracked], [.observed], [PeakSnapshotSource.tracked, .observed]] ∧
      (hook'.snapshots ≠ [] → hook'.peak.peakSnapshotFinal = true) ∧
      hook'.peak.trackedPeakOnce = true := by
    rcases outcome with same | ⟨nothing, -, new⟩ | ⟨-, unseen, new, -⟩
    · rw [same.snapshots, same.final, same.once]
      exact ⟨retains.history, retains.final, retains.once⟩
    · rw [new.snapshots, nothing, new.once]
      exact ⟨by simp, fun _ => new.final, retains.once⟩
    · refine ⟨?_, fun _ => new.final, new.once.trans retains.once⟩
      have history := retains.history
      rw [new.snapshots]
      simp only [mem_cons, not_mem_nil, or_false] at history
      rcases history with fresh | tracked | observed | both
      · simp [fresh]
      · simp [tracked]
      · simp [observed] at unseen
      · simp [both] at unseen
  -- an observed snapshot was there before, or is the one the sampler has just retained
  have observed_cases : .observed ∈ hook'.snapshots → .observed ∈ pool.shared.snapshots ∨
      t = none ∧ ∃ sample, .peak (.settle sample true) ∈ next := by
    intro observed
    rcases outcome with same | ⟨nothing, -, new⟩ | ⟨mine, -, -, settles⟩
    · exact .inl (same.snapshots ▸ observed)
    · rw [new.snapshots, nothing] at observed
      simp at observed
    · exact .inr ⟨mine, settles⟩
  cases t with
  | none =>
      have todo : update pool.todo none (next ++ rest) none = next ++ rest := update_self ..
      obtain ⟨sampler, observing⟩ := execOp_ofSampler (pending ▸ retains.sampler) executed
      refine ⟨history.2.2, oneShot, history.1, history.2.1, fun u => ?_, ?_, ?_, ?_⟩
      · exact (update_of_ne (some_ne_none u) (next ++ rest) pool.todo) ▸ retains.program u
      · exact todo ▸ sampler
      · intro sample member observed
        have member : _ ∈ update pool.todo none (next ++ rest) none := member
        rw [todo] at member
        obtain ⟨notPinned, notTold⟩ := observing sample member
        rcases observed_cases observed with before | ⟨-, told, settles⟩
        · rcases retains.pinned before with pinned | ⟨told, settles⟩
          · exact notPinned pinned
          · exact notTold told (pending ▸ settles)
        · exact sampler.not_observing (mem_append_left rest settles) member
      · intro observed
        have later : (∃ sample, .peak (.settle sample true) ∈ next ++ rest) →
            ∃ sample, .peak (.settle sample true) ∈ update pool.todo none (next ++ rest) none := by
          rw [todo]
          exact id
        rcases observed_cases observed with before | ⟨-, told, settles⟩
        · rcases retains.pinned before with already | ⟨told, settles⟩
          · exact .inl (pinned (.inl already))
          · rw [pending] at settles
            rcases mem_cons.1 settles with now | notYet
            · exact .inl (pinned (.inr ⟨told, now.symm⟩))
            · exact .inr (later ⟨told, mem_append_right next notYet⟩)
        · exact .inr (later ⟨told, mem_append_left rest settles⟩)
  | some worker =>
      have before : .observed ∈ hook'.snapshots → .observed ∈ pool.shared.snapshots :=
        fun observed => (observed_cases observed).resolve_right nofun
      have mine := retains.program worker
      rw [pending] at mine
      obtain ⟨notOfSampler, restNotOfSampler⟩ := forall_mem_cons.1 mine
      have sampler : update pool.todo (some worker) (next ++ rest) none = pool.todo none :=
        update_of_ne (some_ne_none worker).symm ..
      refine ⟨history.2.2, oneShot, history.1, history.2.1, fun u => ?_, ?_, ?_, ?_⟩
      · show ∀ op ∈ update pool.todo (some worker) (next ++ rest) (some u), _
        by_cases same : u = worker
        · rw [same, update_self]
          exact forall_mem_append.2 ⟨execOp_notOfSampler notOfSampler executed, restNotOfSampler⟩
        · rw [update_of_ne fun inj => same (Option.some.inj inj)]
          exact retains.program u
      · exact sampler ▸ retains.sampler
      · intro sample member observed
        exact retains.observing sample (sampler ▸ member) (before observed)
      · intro observed
        rcases retains.pinned (before observed) with already | settles
        · exact .inl (pinned (.inl already))
        · exact .inr (sampler ▸ settles)

/-- Every step keeps the invariant, and an observed snapshot. -/
theorem retainsOnce_step (first : config.peakRetention = .firstCrossing) (retains : RetainsOnce pool)
    (stepped : (hooked config env).step pool event = some pool') :
    RetainsOnce pool' ∧ (.observed ∈ pool.shared.snapshots →
      .observed ∈ pool'.shared.snapshots ∧ pool'.shared.peak.retained = pool.shared.peak.retained) := by
  rcases Code.step_call_or_exec stepped with
    ⟨t, request, ops, -, idle, started, rfl⟩ | ⟨t, answer, op, rest, hook', next, -, pending, executed, rfl⟩
  · exact ⟨retains.call idle started, fun observed => ⟨observed, rfl⟩⟩
  · refine ⟨retains.executed first pending executed, fun observed => ?_⟩
    rcases retains.exec first pending executed with same | ⟨nothing, -⟩ | ⟨-, unseen, -⟩
    · exact ⟨same.snapshots ▸ observed, same.retained⟩
    · simp [nothing] at observed
    · exact absurd observed unseen

/-- A run keeps the invariant, and an observed snapshot. -/
theorem retainsOnce_run (first : config.peakRetention = .firstCrossing) {schedule : List (HookEvent τ)}
    (retains : RetainsOnce pool) (observed : .observed ∈ pool.shared.snapshots)
    (ran : (hooked config env).run pool schedule = some pool') :
    pool'.shared.peak.retained = pool.shared.peak.retained := by
  induction schedule generalizing pool with
  | nil =>
      cases ran
      rfl
  | cons event rest ih =>
      obtain ⟨middle, stepped, ran⟩ := bind_eq_some_iff.1 ran
      obtain ⟨retains, kept⟩ := retainsOnce_step first retains stepped
      obtain ⟨observed, same⟩ := kept observed
      exact (ih retains observed ran).trans same

/-- Whatever the threads, the sampler and `Stalled()` do: a run retains at most one tracked and at most one
observed snapshot, the tracked one first, and an observed snapshot never changes again. -/
theorem first_crossing_retains_once (first : config.peakRetention = .firstCrossing)
    (reached : (hooked config env).Reachable pool) :
    pool.shared.snapshots ∈ [[], [.tracked], [.observed], [PeakSnapshotSource.tracked, .observed]] ∧
      (.observed ∈ pool.shared.snapshots → ∀ (schedule : List (HookEvent τ)) pool',
        (hooked config env).run pool schedule = some pool' →
          pool'.shared.peak.retained = pool.shared.peak.retained) := by
  have retains : RetainsOnce pool := reached.invariant (P := RetainsOnce) (.init first)
    fun before _ stepped => (retainsOnce_step first before stepped).1
  exact ⟨retains.history, fun observed schedule pool' ran => retainsOnce_run first retains observed ran⟩

end

/-- The first crossing is retained, from the first byte on. -/
def onceConfig : Config :=
  { trackingConfig with
    options := optionBacktrace ||| optionTrackAllocs ||| optionRecordMemoryPeak
    peakRetention := .firstCrossing }

/-- An allocation retains a tracked snapshot, and the sampler then replaces it by an observed one. -/
def replacedOnceRun : List (HookEvent Worker) :=
  allocBlock (some .one) 0x10000 100 ++ proceed (some .one) 7 ++
    [.call none (.sample ⟨4096, 0, 0, true⟩)] ++ proceed none 6

/-- Another allocation raises the peak, and the sampler sees a larger footprint. -/
def climbingOnRun : List (HookEvent Worker) :=
  allocBlock (some .two) 0x20000 50 ++ proceed (some .two) 1 ++
    [.call none (.sample ⟨8192, 0, 0, true⟩)] ++ proceed none 1

theorem first_crossing_retains_once_replaced :
    ∃ pool pool', (hooked onceConfig (.any (Option Worker))).run
        (hooked onceConfig (.any (Option Worker))).init replacedOnceRun = some pool ∧
      pool.shared.snapshots = [.tracked, .observed] ∧
      (hooked onceConfig (.any (Option Worker))).run pool climbingOnRun = some pool' ∧
      pool'.shared.live.peakTot = 150 ∧
      pool'.shared.peak.retained = pool.shared.peak.retained := by
  obtain ⟨pool, ran, pool', later, snapshots, peak⟩ : ∃ pool ∈ (hooked onceConfig (.any (Option Worker))).run
      (hooked onceConfig (.any (Option Worker))).init replacedOnceRun,
      ∃ pool' ∈ (hooked onceConfig (.any (Option Worker))).run pool climbingOnRun,
        pool.shared.snapshots = [.tracked, .observed] ∧ pool'.shared.live.peakTot = 150 := by decide +kernel
  have reached : (hooked onceConfig (.any (Option Worker))).Reachable pool := Machine.Reachable.run .init ran
  refine ⟨pool, pool', ran, snapshots, later, peak, ?_⟩
  exact (first_crossing_retains_once rfl reached).2 (by simp [snapshots]) climbingOnRun pool' later

end MallocHook
