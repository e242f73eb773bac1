/-
Module: MallocHook.Core.SerialPeak
Purpose: What a hooked call does to the peak members when it runs alone and there is no sampler.
  `CallOutcome` is the whole effect.
Trusted boundary: none
Main exports: PeakState.recorded, maybeRecordPeakSnapshot_alone
-/
import MallocHook.Core.SerialHook
import MallocHook.Core.PeakSteps

namespace MallocHook

/-! ### The snapshot code alone -/

/-- What `MaybeRecordPeakSnapshot` makes of the peak members when it runs alone after `peak_tot` rose. -/
def PeakState.recorded (peak : PeakState) (config : Config) (live : LiveTable) (stackTable : StackTable)
    (stalled : Bool) (proc : PeakProcContext) (nowUs : Nat) : PeakState :=
  if peak.crossesThreshold config live.peakTot then
    (trackedSection config live stackTable stalled proc nowUs peak.claimProcRead.2).releaseProcRead
  else peak

namespace PeakState

/-- No sampler has claimed the snapshot, and no thread is about to take one. -/
structure Unsampled (peak : PeakState) : Prop where
  unobserved : peak.observedPeakActive = false
  unclaimed : peak.peakProcReadInflight = false

variable {peak : PeakState} {config : Config} {live : LiveTable} (stackTable : StackTable)
  (stalled : Bool) (proc : PeakProcContext) (nowUs : Nat)

theorem Unsampled.initial (config : Config) : (PeakState.initial config).Unsampled := ⟨rfl, rfl⟩

/-- A claim that is released leaves no trace. -/
theorem release_claim (unclaimed : peak.peakProcReadInflight = false) :
    peak.claimProcRead.2.releaseProcRead = peak := by
  cases peak
  cases unclaimed
  rfl

/-- The peak members once the snapshot code has retained a snapshot. -/
def withSnapshot (peak : PeakState) (config : Config) (live : LiveTable) (stackTable : StackTable)
    (proc : PeakProcContext) (nowUs : Nat) : PeakState :=
  peak.claimProcRead.2.retain config live stackTable (getUniqueList live stackTable true) .tracked none
    (some proc) nowUs

/-- The snapshot lists the live stacks with the total beside them, and the steering members stay. -/
theorem withSnapshot_members (peak : PeakState) (config : Config) (live : LiveTable)
    (stackTable : StackTable) (proc : PeakProcContext) (nowUs : Nat) :
    let kept := peak.withSnapshot config live stackTable proc nowUs
    kept.peakList = getUniqueList live stackTable true ∧ kept.peakListTot = live.currentUsed ∧
      kept.peakRecordStepBytes = peak.peakRecordStepBytes ∧
      kept.peakSnapshotFinal = peak.peakSnapshotFinal ∧ kept.trackedPeakOnce = peak.trackedPeakOnce ∧
      kept.observedPeakActive = peak.observedPeakActive := by
  obtain ⟨control, retained, -⟩ := retain_members peak.claimProcRead.2 config live stackTable
    (getUniqueList live stackTable true) .tracked none (some proc) nowUs
  simp only [PeakState.control, PeakState.retained, Prod.mk.injEq] at control retained
  exact ⟨retained.1, retained.2.2.2.1, control.2.1, control.2.2.1, control.2.2.2.1, control.2.2.2.2.2⟩

/-- The snapshot code by cases: a peak within the threshold and a final snapshot change nothing, a
crossing with a live stack retains a snapshot, one without moves the threshold in climb mode. -/
theorem recorded_eq (unsampled : peak.Unsampled) (recording : config.has optionRecordMemoryPeak = true) :
    peak.recorded config live stackTable stalled proc nowUs =
      if peak.peakSnapshotFinal = true ∨ live.peakTot ≤ peak.nextPeakRecordThreshold then peak
      else if live.CarriesStack then
        if peak.trackedPeakOnce then
          (peak.withSnapshot config live stackTable proc nowUs).finalize.releaseProcRead
        else ((peak.withSnapshot config live stackTable proc nowUs).climb live).releaseProcRead
      else if peak.trackedPeakOnce then peak
      else peak.climb live := by
  have section_eq : trackedSection config live stackTable stalled proc nowUs peak.claimProcRead.2 = _ :=
    trackedSection_unobserved config live stackTable stalled proc nowUs unsampled.unobserved
  have released := release_claim unsampled.unclaimed
  unfold recorded
  rw [section_eq]
  by_cases crosses : peak.crossesThreshold config live.peakTot = true
  · rw [if_pos crosses]
    by_cases done : peak.peakSnapshotFinal = true ∨ live.peakTot ≤ peak.nextPeakRecordThreshold
    · rw [if_pos done, if_pos (by exact done), released]
    · rw [if_neg done, if_neg (by exact done)]
      by_cases carries : live.CarriesStack
      · rw [if_pos carries, if_pos carries]
        exact apply_ite PeakState.releaseProcRead _ _ _
      · rw [if_neg carries, if_neg carries]
        cases once : peak.trackedPeakOnce with
        | true => exact (if_pos once).symm ▸ released
        | false =>
            have released : (peak.climb live).claimProcRead.2.releaseProcRead = peak.climb live :=
              release_claim unsampled.unclaimed
            exact (if_neg (Bool.eq_false_iff.1 once)).symm ▸ released
  · rw [if_neg crosses, if_pos]
    simp only [crossesThreshold, recording, Bool.true_and, decide_eq_true_eq] at crosses
    exact .inr (by omega)

end PeakState

variable {τ ε : Type*} [DecidableEq τ] {config : Config} {env : Environment (Option τ) ε} {t : Option τ}

/-- The section under all shards, the release of the shards and that of the claim. -/
theorem trackedSection_alone (hook : Hook (Option τ) ε) (proc : PeakProcContext) :
    (hookCode config env).Triple t (fun before => before = hook)
      [.peak (.trackedSection proc), .peak .unlockShards, .peak .releaseClaim]
      (fun after => after.live = hook.live ∧ ∃ stalled nowUs, after.peak =
        (trackedSection config hook.live hook.stackTable stalled proc nowUs hook.peak).releaseProcRead) := by
  refine .cons (R := fun after => after.live = hook.live ∧ ∃ stalled nowUs, after.peak =
    trackedSection config hook.live hook.stackTable stalled proc nowUs hook.peak) ?_ (.cons
      (R := fun after => after.live = hook.live ∧ ∃ stalled nowUs, after.peak =
        trackedSection config hook.live hook.stackTable stalled proc nowUs hook.peak) ?_ ?_)
  · refine .atomic fun {before answer after next} same executed => ?_
    subst same
    have executed : before.execPeak config t answer (.trackedSection proc) = some (after, next) := executed
    simp only [Hook.execPeak] at executed
    split at executed <;> cases executed
    exact ⟨rfl, rfl, _, _, rfl⟩
  · refine .atomic fun holds executed => ?_
    cases executed
    exact ⟨rfl, holds⟩
  · refine .atomic fun {before answer after next} holds executed => ?_
    obtain ⟨sameLive, stalled, nowUs, taken⟩ := holds
    cases executed
    exact ⟨rfl, sameLive, stalled, nowUs, congrArg PeakState.releaseProcRead taken⟩

/-- `MaybeRecordPeakSnapshot`, run to its end with no claim taken and no observed criterion. -/
theorem maybeRecordPeakSnapshot_alone (hook : Hook (Option τ) ε)
    (unobserved : hook.peak.observedPeakActive = false)
    (unclaimed : hook.peak.peakProcReadInflight = false) :
    (hookCode config env).Triple t (fun before => before = hook)
      [.peak (.testThreshold hook.live.peakTot)]
      (fun after => after.live = hook.live ∧ ∃ stalled proc nowUs,
        after.peak = hook.peak.recorded config hook.live hook.stackTable stalled proc nowUs) := by
  refine .step fun same executed => ?_
  subst same
  cases executed
  split
  · next crosses =>
      have unowned : ∀ {peak : PeakState} stalled, peak.observedPeakActive = false →
          peak.observedOwns stalled = false := by
        intro peak stalled inactive
        rw [PeakState.observedOwns, inactive, Bool.false_and]
      refine .step fun same executed => ?_
      subst same
      cases executed
      rw [unowned _ unobserved]
      refine .step fun {before answer after next} same executed => ?_
      subst same
      cases executed
      have free : before.peak.claimProcRead.1 = false := unclaimed
      rw [free]
      refine .step fun {before answer after next} same executed => ?_
      subst same
      cases executed
      have unowned : before.peak.claimProcRead.2.observedOwns answer.stalled = false := unowned _ unobserved
      rw [unowned]
      refine (trackedSection_alone _ answer.proc).imp (fun _ same => same) ?_
      rintro after ⟨sameLive, stalled, nowUs, taken⟩
      refine ⟨sameLive, stalled, answer.proc, nowUs, ?_⟩
      rw [PeakState.recorded, if_pos crosses]
      exact taken
  · next within =>
      refine .nil fun after same => ?_
      subst same
      exact ⟨rfl, false, default, 0, (if_neg within).symm⟩

/-! ### Which operations may still raise the peak -/

section

variable {θ : Type*}

/-- The operation is, or leads to, a section of `Add` or `Remap`. -/
def Op.mayRaise : Op θ → Bool
  | .frame (.addBacktrace ..) | .shard (.addEntry ..) | .shard (.remap ..) | .shard (.reallocTake ..)
  | .system (.alloc ..) | .system (.realloc ..) | .system (.mmap ..) | .system (.mremap ..)
  | .system (.ioctl ..) | .dma (.takePending ..) | .dma (.recognize ..) | .dma (.register ..)
  | .dma (.consultMapping ..) => true
  | _ => false

/-- The operation neither touches a shard or the peak members nor leads to one that does. -/
def Op.neutral : Op θ → Bool
  | .frame (.removeBacktrace _) | .dma .unlockFds | .dma (.markTracked _) => true
  | _ => false

/-- What comes after an operation that may raise the peak is neutral. -/
def RaisesLast (ops : List (Op θ)) : Prop :=
  ops.Pairwise fun op later => op.mayRaise = true → later.neutral = true

theorem RaisesLast.of_calm {ops : List (Op θ)} (calm : ∀ op ∈ ops, op.mayRaise = false) :
    RaisesLast ops := by
  refine List.pairwise_of_forall_mem_list fun op member later _ raises => ?_
  rw [calm op member] at raises
  cases raises

theorem raisesLast_startHooked (config : Config) (request : Request θ) :
    RaisesLast (startHooked config request) := by
  cases request <;> simp only [startHooked, startRealloc, startAlloc, startFree, inFdTransaction]
  all_goals
    repeat' split
    all_goals simp [RaisesLast, Op.mayRaise, Op.neutral]

theorem calm_afterSection (result : LiveTable.SectionResult) :
    ∀ op ∈ (afterSection result : List (Op θ)), op.mayRaise = false := by
  unfold afterSection
  split <;> split <;> simp [Op.mayRaise]

end

section

variable {hook hook' : Hook (Option τ) ε} {op : Op (Option τ)} {answer : Answer}
  {next : List (Op (Option τ))}

/-- An operation that cannot raise the peak leaves only such operations. -/
theorem calm_next (calm : op.mayRaise = false)
    (executed : execOp config env t hook op answer = some (hook', next)) :
    ∀ later ∈ next, later.mayRaise = false := by
  rcases execOp_cases executed with
    ⟨frameOp, rfl, framed⟩ | ⟨shardOp, live', rfl, -, sectioned, -⟩ |
      ⟨systemOp, world, rfl, -, -, rfl⟩ | ⟨peakOp, rfl, peaked⟩ | ⟨dmaOp, rfl, transacted⟩
  · cases frameOp with
    | addBacktrace => cases calm
    | removeBacktrace =>
        cases framed
        simp [FrameOp.exec]
  · cases shardOp with
    | addEntry | remap | reallocTake => cases calm
    | internalFree pointer | remove pointer =>
        cases sectioned
        cases (hook.live.takeEntry pointer).1 <;> simp [Op.mayRaise]
    | munmapTake | restoreEntry =>
        cases sectioned
        simp [Op.mayRaise]
  · cases systemOp with
    | alloc | realloc | mmap | mremap | ioctl => cases calm
    | munmap addr size previous =>
        cases previous with
        | none => simp [SystemOp.next]
        | some info =>
            simp only [SystemOp.next, Option.elim_some]
            split <;> simp [Op.mayRaise]
    | free | handOver => simp [SystemOp.next]
    | close =>
        simp only [SystemOp.next]
        split <;> simp [Op.mayRaise]
  · intro later member
    obtain ⟨peakOp, rfl⟩ := execPeak_next peaked later member
    rfl
  · cases dmaOp <;> simp only [Hook.execDma] at transacted
    case takePending | recognize | register | consultMapping => cases calm
    case lockFds => split at transacted <;> cases transacted; simp
    all_goals
      cases transacted
      repeat' split
      all_goals simp [Op.mayRaise]

/-- What an operation leaves to do has the shape by itself. -/
theorem raisesLast_next (executed : execOp config env t hook op answer = some (hook', next)) :
    RaisesLast next := by
  cases raises : op.mayRaise with
  | false => exact .of_calm (calm_next raises executed)
  | true =>
      rcases execOp_cases executed with
        ⟨frameOp, rfl, framed⟩ | ⟨shardOp, live', rfl, -, sectioned, -⟩ |
          ⟨systemOp, world, rfl, -, -, rfl⟩ | ⟨peakOp, rfl, -⟩ | ⟨dmaOp, rfl, transacted⟩
      · cases frameOp with
        | addBacktrace =>
            cases framed
            simp only [FrameOp.exec]
            split <;> simp [RaisesLast]
        | removeBacktrace => cases raises
      · cases shardOp with
        | addEntry =>
            cases sectioned
            exact .of_calm (calm_afterSection _)
        | remap oldPointer newPointer newSize =>
            simp only [ShardOp.exec] at sectioned
            split at sectioned <;> cases sectioned
            · exact List.Pairwise.nil
            · exact .of_calm (calm_afterSection _)
        | reallocTake =>
            cases sectioned
            simp [RaisesLast]
        | _ => cases raises
      · cases systemOp with
        | realloc pointer bytes previous =>
            cases previous <;> simp only [SystemOp.next] <;> split_ifs <;>
              simp [RaisesLast, Op.add, Op.neutral]
        | munmap | free | close | handOver => cases raises
        | _ =>
            simp only [SystemOp.next]
            repeat' split
            all_goals simp [RaisesLast]
      · cases raises
      · cases dmaOp <;> simp only [Hook.execDma] at transacted
        case lockFds | unlockFds | takeOldGeneration | markTracked | takeClosed | dropIonAllocations =>
          cases raises
        all_goals
          cases transacted
          repeat' split
          all_goals simp [RaisesLast, Op.mayRaise, Op.neutral]

/-- Executing an operation keeps the shape of what is left. -/
theorem RaisesLast.exec {rest : List (Op (Option τ))} (raisesLast : RaisesLast (op :: rest))
    (executed : execOp config env t hook op answer = some (hook', next)) : RaisesLast (next ++ rest) := by
  obtain ⟨before, later⟩ := List.pairwise_cons.1 raisesLast
  refine List.pairwise_append.2 ⟨raisesLast_next executed, later, ?_⟩
  intro first firstMember second secondMember firstRaises
  refine before second secondMember ?_
  by_contra calm
  rw [calm_next (Bool.eq_false_iff.2 calm) executed first firstMember] at firstRaises
  cases firstRaises

omit [DecidableEq τ] in
/-- A section that raises the peak raises it to the total it leaves, and what follows is neutral but for
the snapshot code. -/
theorem neutral_of_raised {shardOp : ShardOp} {live live' : LiveTable} {next : List (Op (Option τ))}
    (sectioned : shardOp.exec live answer = (live', next)) (raised : live.peakTot < live'.peakTot) :
    live'.peakTot = live'.currentUsed ∧ (.shard shardOp : Op (Option τ)).mayRaise = true ∧
      ∀ later ∈ next, (∀ peakOp, later ≠ .peak peakOp) → later.neutral = true := by
  have raises : ∀ {result : LiveTable.SectionResult}, result.Raises live.peakTot →
      live.peakTot < result.table.peakTot → result.trackedTotal = result.table.currentUsed →
      result.table.peakTot = result.table.currentUsed ∧
        ∀ later ∈ (afterSection result : List (Op (Option τ))), (∀ peakOp, later ≠ .peak peakOp) →
          later.neutral = true := by
    intro result raises raised total
    refine ⟨?_, ?_⟩
    · unfold LiveTable.SectionResult.Raises at raises
      split at raises
      · exact raises.2.trans total
      · omega
    · unfold afterSection
      split <;> split <;> simp [Op.neutral]
  cases shardOp with
  | addEntry pointer trackedSize hashIndex type =>
      cases sectioned
      obtain ⟨total, neutral⟩ := raises
        (live.addSection_raises pointer trackedSize hashIndex type answer.now) raised rfl
      exact ⟨total, rfl, neutral⟩
  | remap oldPointer newPointer newSize =>
      simp only [ShardOp.exec] at sectioned
      split at sectioned <;> cases sectioned
      · exact absurd raised (Int.lt_irrefl _)
      · next remapped =>
          obtain ⟨info, -, -, rfl⟩ := live.remap_eq_some remapped
          obtain ⟨total, neutral⟩ := raises (live.rekey_raises info oldPointer newPointer newSize) raised rfl
          exact ⟨total, rfl, neutral⟩
  | internalFree pointer | remove pointer | reallocTake pointer | munmapTake pointer =>
      cases sectioned
      rw [live.takeEntry_peakTot] at raised
      exact absurd raised (Int.lt_irrefl _)
  | restoreEntry pointer info =>
      cases sectioned
      rw [live.restoreEntry_peakTot] at raised
      exact absurd raised (Int.lt_irrefl _)

/-- A neutral operation leaves the table and the peak members alone, and nothing to do. -/
theorem execOp_neutral (neutral : op.neutral = true)
    (executed : execOp config env t hook op answer = some (hook', next)) :
    hook'.live = hook.live ∧ hook'.peak = hook.peak ∧ next = [] := by
  cases op with
  | frame frameOp =>
      cases frameOp with
      | addBacktrace => cases neutral
      | removeBacktrace =>
          cases executed
          exact ⟨rfl, rfl, rfl⟩
  | dma dmaOp =>
      cases dmaOp with
      | unlockFds | markTracked =>
          cases executed
          exact ⟨rfl, rfl, rfl⟩
      | _ => cases neutral
  | shard | system | peak => cases neutral

end

/-! ### Whole calls -/

/-- What a call does to the peak: nothing, or it raises `peak_tot` to the total it leaves and the snapshot
code has run on the table it leaves. -/
def CallOutcome (config : Config) (before after : Hook (Option τ) ε) : Prop :=
  (after.live.peakTot = before.live.peakTot ∧ after.peak = before.peak) ∨
    before.live.peakTot < after.live.peakTot ∧ after.live.peakTot = after.live.currentUsed ∧
      ∃ stackTable stalled proc nowUs,
        after.peak = before.peak.recorded config after.live stackTable stalled proc nowUs

/-- Neutral operations, run to their end. -/
theorem neutral_alone (live : LiveTable) (peak : PeakState) {ops : List (Op (Option τ))}
    (neutral : ∀ op ∈ ops, op.neutral = true) :
    (hookCode config env).Triple t (fun hook => hook.live = live ∧ hook.peak = peak) ops
      (fun hook => hook.live = live ∧ hook.peak = peak) := by
  refine .invariant (fun op => op.neutral = true) ?_ neutral
  intro hook op answer hook' next isNeutral same executed
  obtain ⟨sameLive, samePeak, rfl⟩ := execOp_neutral isNeutral executed
  exact ⟨⟨sameLive.trans same.1, samePeak.trans same.2⟩, by simp⟩

/-- Every call that runs alone has the outcome, as long as it has not come to the peak code yet. -/
theorem outcome_of_finish {before hook after : Hook (Option τ) ε}
    (unobserved : before.peak.observedPeakActive = false)
    (unclaimed : before.peak.peakProcReadInflight = false) {answers : List Answer}
    {ops : List (Op (Option τ))} (noPeak : NoPeak ops) (raisesLast : RaisesLast ops)
    (samePeakTot : hook.live.peakTot = before.live.peakTot) (samePeak : hook.peak = before.peak)
    (finished : (hookCode config env).finish t answers hook ops = some after) :
    CallOutcome config before after := by
  induction finished using Code.finish_induction with
  | done => exact .inl ⟨samePeakTot, samePeak⟩
  | exec answer answers hook op rest middle next executed finished ih =>
      have executed : execOp config env t hook op answer = some (middle, next) := executed
      -- every operation but a section that raises the peak leaves the induction hypothesis to apply
      have quiet : NoPeak next → middle.live.peakTot = hook.live.peakTot →
          middle.peak = hook.peak → CallOutcome config before after :=
        fun nextNoPeak sameTot same => ih (nextNoPeak.append noPeak.tail) (raisesLast.exec executed)
          (sameTot.trans samePeakTot) (same.trans samePeak)
      rcases execOp_cases executed with
        ⟨frameOp, rfl, framed⟩ | ⟨shardOp, live', rfl, -, sectioned, rfl⟩ |
          ⟨systemOp, world, rfl, -, rfl, rfl⟩ | ⟨peakOp, rfl, -⟩ | ⟨dmaOp, rfl, transacted⟩
      · cases framed
        exact quiet (noPeak_frame _ _ _ _) rfl rfl
      · rcases shard_raises sectioned with ⟨sameTot, nextNoPeak⟩ | ⟨raised, release, rfl, notPeak⟩
        · exact quiet nextNoPeak sameTot rfl
        · obtain ⟨total, mayRaise, neutral⟩ := neutral_of_raised sectioned raised
          have neutral : ∀ later ∈ release ++ rest, later.neutral = true :=
            List.forall_mem_append.2
              ⟨fun later member => neutral later (List.mem_cons_of_mem _ member) (notPeak later member),
                fun later member => (List.pairwise_cons.1 raisesLast).1 later member mayRaise⟩
          have finished : (hookCode config env).finish t answers { hook with live := live' }
              ([.peak (.testThreshold live'.peakTot)] ++ (release ++ rest)) = some after := finished
          obtain ⟨early, late, taken, -, recorded, finished⟩ := Code.finish_append finished
          obtain ⟨sameLive, stalled, proc, nowUs, snapshot⟩ := maybeRecordPeakSnapshot_alone _
            (samePeak ▸ unobserved) (samePeak ▸ unclaimed) _ _ _ rfl recorded
          obtain ⟨live, peak⟩ := neutral_alone _ _ neutral _ _ _ ⟨sameLive, snapshot⟩ finished
          refine .inr ⟨?_, ?_, hook.stackTable, stalled, proc, nowUs, ?_⟩
          · rw [live, ← samePeakTot]
            exact raised
          · rw [live]
            exact total
          · rw [peak, live, ← samePeak]
      · exact quiet (noPeak_system _ _ _) rfl rfl
      · exact absurd rfl (noPeak _ List.mem_cons_self peakOp)
      · obtain ⟨sameLive, -, samePeak, -⟩ := execDma_frame transacted
        exact quiet (noPeak_dma transacted) (by rw [sameLive]) samePeak

/-- Every call of the program has the outcome. -/
theorem outcome_of_step {hook hook' : Hook (Option τ) ε} {call : HookCall τ}
    (unsampled : hook.peak.Unsampled) (byProgram : call.thread.isSome = true)
    (stepped : (serialHook config env).step hook call = some hook') : CallOutcome config hook hook' := by
  obtain ⟨ops, started, finished⟩ := Option.bind_eq_some_iff.1 stepped
  refine outcome_of_finish unsampled.unobserved unsampled.unclaimed (noPeak_startCall byProgram started)
    ?_ rfl rfl finished
  obtain rfl := startHooked_of_startCall started
  exact raisesLast_startHooked config call.request

end MallocHook
