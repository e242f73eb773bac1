/-
Module: MallocHook.Core.SerialHook
Purpose: Hooked calls one after the other: what the tracker functions do when nothing comes between
  their sections.
Trusted boundary: none
Main exports: HookCall, serialHook, CallAnswered, KeptBySections
-/
import MallocHook.Lib.SerialCalls
import MallocHook.Core.HookedThreads

namespace MallocHook

open Option

variable {τ ε : Type*} [DecidableEq τ]

/-- A hooked call with the answers it gets. -/
abbrev HookCall (τ : Type*) := Call (Option τ) (Request (Option τ)) Answer

/-- Hooked calls, one after the other. -/
def serialHook (config : Config) (env : Environment (Option τ) ε) :
    Machine (Hook (Option τ) ε) (HookCall τ) :=
  (hookCode config env).serial (.initial config env)

variable {config : Config} {env : Environment (Option τ) ε} {t : Option τ}

/-- What calls reach one after the other, interleaved threads reach as well. -/
theorem hooked_of_serial {hook : Hook (Option τ) ε} (reached : (serialHook config env).Reachable hook) :
    (hooked config env).Reachable { shared := hook, todo := fun _ => [] } :=
  Code.serial_reachable reached

/-! ### Calls by the answers they get -/

/-- The allocator and the kernel, giving only the answers that `keep` allows. -/
def Environment.only {θ : Type*} (env : Environment θ ε) (keep : SystemOp θ → Answer → Bool) :
    Environment θ ε where
  initial := env.initial
  answer world t op answer := if keep op answer then env.answer world t op answer else none

/-- The call comes to its end, and all that the allocator and the kernel answer it satisfies `keep`. -/
def CallAnswered (config : Config) (env : Environment (Option τ) ε)
    (keep : SystemOp (Option τ) → Answer → Bool) (hook : Hook (Option τ) ε) (call : HookCall τ) : Prop :=
  ((serialHook config (env.only keep)).step hook call).isSome

instance (keep : SystemOp (Option τ) → Answer → Bool) (hook : Hook (Option τ) ε) (call : HookCall τ) :
    Decidable (CallAnswered config env keep hook call) :=
  inferInstanceAs (Decidable (_ = true))

variable {op : Op (Option τ)} {answer : Answer}

theorem execOp_of_only {keep : SystemOp (Option τ) → Answer → Bool} {hook : Hook (Option τ) ε}
    {result : Hook (Option τ) ε × List (Op (Option τ))}
    (executed : execOp config (env.only keep) t hook op answer = some result) :
    execOp config env t hook op answer = some result := by
  cases op with
  | system systemOp =>
      obtain ⟨world, answered, same⟩ := map_eq_some_iff.1 executed
      simp only [Environment.only, ite_none_right_eq_some] at answered
      exact map_eq_some_iff.2 ⟨world, answered.2, same⟩
  | frame | shard | peak | dma => exact executed

variable {hook hook' : Hook (Option τ) ε}

/-- A call with such answers does what it does among all answers. -/
theorem CallAnswered.step {keep : SystemOp (Option τ) → Answer → Bool} {call : HookCall τ}
    (answered : CallAnswered config env keep hook call)
    (stepped : (serialHook config env).step hook call = some hook') :
    (serialHook config (env.only keep)).step hook call = some hook' := by
  obtain ⟨other, steppedOnly⟩ := isSome_iff_exists.1 answered
  obtain ⟨ops, started, finished⟩ := bind_eq_some_iff.1 steppedOnly
  obtain ⟨ops', started', finished'⟩ := bind_eq_some_iff.1 stepped
  cases started.symm.trans started'
  cases (Code.finish_mono execOp_of_only finished).symm.trans finished'
  exact steppedOnly

/-! ### The operations one by one -/

section

variable {P Q : Hook (Option τ) ε → Prop}

theorem frame_alone {op : FrameOp} (leaves : ∀ hook answer, P hook → (hookCode config env).Triple t
      (fun after => after = (hook.execFrame config answer op).1) (hook.execFrame config answer op).2 Q) :
    (hookCode config env).Triple t P [.frame op] Q := by
  refine .step fun {hook answer hook' next} holds executed => ?_
  have executed : some (hook.execFrame config answer op) = some (hook', next) := executed
  have leaves := leaves hook answer holds
  rwa [Option.some.inj executed] at leaves

theorem shard_alone {op : ShardOp}
    (leaves : ∀ hook answer, P hook → (hookCode config env).Triple t
      (fun after => after = { hook with live :=
      (op.exec hook.live answer : _ × List (Op (Option τ))).1 }) (op.exec hook.live answer).2 Q) :
    (hookCode config env).Triple t P [.shard op] Q := by
  refine .step fun {hook answer hook' next} holds executed => ?_
  have executed : execOp config env t hook (.shard op) answer = some (hook', next) := executed
  simp only [execOp] at executed
  split at executed <;> cases executed
  exact leaves hook answer holds

theorem system_alone {op : SystemOp (Option τ)}
    (leaves : ∀ hook answer world, P hook → env.answer hook.world t op answer = some world →
      (hookCode config env).Triple t (fun after => after = { hook with world := world })
      (op.next config answer) Q) :
    (hookCode config env).Triple t P [.system op] Q := by
  refine .step fun {hook answer hook' next} holds executed => ?_
  obtain ⟨world, answered, ⟨⟩⟩ := map_eq_some_iff.1 executed
  exact leaves hook answer world holds answered

theorem dma_alone {op : DmaOp}
    (leaves : ∀ hook answer hook' next, P hook → hook.execDma t answer op = some (hook', next) →
      (hookCode config env).Triple t (fun after => after = hook') next Q) :
    (hookCode config env).Triple t P [.dma op] Q :=
  .step fun holds executed => leaves _ _ _ _ holds executed

/-- The lock of a descriptor transaction is in nobody's way. -/
theorem transaction_alone {registersFd : Bool} {ops : List (Op (Option τ))}
    (locks : ∀ {hook}, P hook → P { hook with fdOwner := some t })
    (unlocks : ∀ {hook}, Q hook → Q { hook with fdOwner := none })
    (inside : (hookCode config env).Triple t P ops Q) :
    (hookCode config env).Triple t P (inFdTransaction registersFd ops) Q := by
  cases registersFd with
  | false => exact inside
  | true =>
      have lock : (hookCode config env).Triple t P [.dma .lockFds] P := by
        refine .atomic fun {before answer after next} holds executed => ?_
        have executed : before.execDma t answer .lockFds = some (after, next) := executed
        simp only [Hook.execDma, ite_none_left_eq_some] at executed
        obtain ⟨-, ⟨⟩⟩ := executed
        exact ⟨rfl, locks holds⟩
      have unlock : (hookCode config env).Triple t Q [.dma .unlockFds] Q := by
        refine .atomic fun {before answer after next} holds executed => ?_
        cases executed
        exact ⟨rfl, unlocks holds⟩
      exact (lock.append inside).append unlock

end

/-! ### The tracker functions -/

/-- Stack releases and the peak code, run to their end. -/
theorem weightless_alone (hook : Hook (Option τ) ε) {ops : List (Op (Option τ))}
    (light : load Op.weight ops = 0) :
    (hookCode config env).Triple t (fun before => before = hook) ops
      (fun after => after.live = hook.live ∧ after.SameOutside hook) := by
  have kept : (hookCode config env).Triple t
      (fun after => after.live = hook.live ∧ after.SameOutside hook) ops
      (fun after => after.live = hook.live ∧ after.SameOutside hook) := by
    refine .invariant (fun op => op.weight = 0) ?_ (weightless_of_load light)
    intro s op answer s' next opLight same executed
    obtain ⟨sameLive, sameOutside, nextLight⟩ := execOp_weightless opLight executed
    exact ⟨⟨sameLive.trans same.1, sameOutside.trans same.2⟩, weightless_of_load nextLight⟩
  exact kept.imp (fun s same => same ▸ ⟨rfl, .refl _⟩) fun _ after => after

/-- `Add`, run to its end. -/
theorem add_alone (hook : Hook (Option τ) ε) (pointer : Pointer) (size : Nat) (type : MemType) :
    (hookCode config env).Triple t (fun before => before = hook) [.add pointer size type]
      (fun after => ∃ hashIndex now,
        after.live = (hook.live.addSection pointer size hashIndex type now).table ∧
          after.SameOutside hook) := by
  refine frame_alone fun hook answer before => ?_
  subst before
  have index := hook.stackTable.addBacktrace_index config size answer.stack
  simp only [Hook.execFrame, FrameOp.exec, Nat.ne_of_gt index, if_false]
  refine shard_alone fun entering answer before => ?_
  subst before
  refine (weightless_alone _ (weight_afterSection _)).imp (fun _ same => same) ?_
  rintro after ⟨sameLive, sameOutside⟩
  exact ⟨_, _, sameLive, sameOutside.trans ⟨rfl, rfl, rfl, rfl⟩⟩

/-- `Remap`, run to its end. -/
theorem remap_alone (hook : Hook (Option τ) ε) (oldPointer newPointer : Pointer) (newSize : Nat) :
    (hookCode config env).Triple t (fun before => before = hook)
      [.shard (.remap oldPointer newPointer newSize)]
      (fun after =>
        after.live = (hook.live.remap oldPointer newPointer newSize).elim hook.live
          LiveTable.SectionResult.table ∧ after.SameOutside hook) := by
  refine shard_alone fun hook answer before => ?_
  subst before
  simp only [ShardOp.exec]
  cases hook.live.remap oldPointer newPointer newSize with
  | none => exact .nil fun after same => same ▸ ⟨rfl, .refl _⟩
  | some result =>
      refine (weightless_alone _ (weight_afterSection result)).imp (fun _ same => same) ?_
      rintro after ⟨sameLive, sameOutside⟩
      exact ⟨sameLive, sameOutside.trans ⟨rfl, rfl, rfl, rfl⟩⟩

/-- `Remove`, run to its end. -/
theorem remove_alone (hook : Hook (Option τ) ε) (pointer : Pointer) :
    (hookCode config env).Triple t (fun before => before = hook) [.shard (.remove pointer)]
      (fun after => after.live = (hook.live.takeEntry pointer).2 ∧ after.SameOutside hook) := by
  refine shard_alone fun hook answer before => ?_
  subst before
  have light : load Op.weight ((hook.live.takeEntry pointer).1.elim []
      fun info => [(.frame (.removeBacktrace info.hashIndex) : Op (Option τ))]) = 0 := by
    cases (hook.live.takeEntry pointer).1 <;> rfl
  refine (weightless_alone _ light).imp (fun _ same => same) ?_
  rintro after ⟨sameLive, sameOutside⟩
  exact ⟨sameLive, sameOutside.trans ⟨rfl, rfl, rfl, rfl⟩⟩

/-! ### Properties of the table that every section keeps -/

/-- A property of the table that every section keeps, a `RestoreEntry` provided it overwrites nothing. -/
structure KeptBySections (P : LiveTable → Prop) : Prop where
  empty : P .empty
  takeEntry : ∀ {live} pointer, P live → P (live.takeEntry pointer).2
  addSection : ∀ {live} pointer trackedSize hashIndex type now, P live →
    P (live.addSection pointer trackedSize hashIndex type now).table
  rekey : ∀ {live info oldPointer} newPointer newSize, live.find oldPointer = some info → P live →
    P (live.rekey info oldPointer newPointer newSize).table
  restoreEntry : ∀ {live pointer} info, live.find pointer = none → P live →
    P (live.restoreEntry pointer info)

/-- Operations that have no part in taking a record and restoring it. -/
def Op.Settled {θ : Type*} : Op θ → Prop
  | .shard (.reallocTake ..) | .shard (.munmapTake ..) | .shard (.restoreEntry ..)
  | .system (.realloc ..) | .system (.munmap ..) => False
  | _ => True

/-- Settled operations that have no part in moving a record either. -/
def Op.Steady {θ : Type*} : Op θ → Prop
  | .shard (.remap ..) | .system (.mremap ..) => False
  | .shard (.reallocTake ..) | .shard (.munmapTake ..) | .shard (.restoreEntry ..)
  | .system (.realloc ..) | .system (.munmap ..) => False
  | _ => True

omit [DecidableEq τ] in
theorem Op.Steady.settled {op : Op τ} (steady : op.Steady) : op.Settled := by
  unfold Op.Settled
  split <;> trivial

omit [DecidableEq τ] in
theorem steady_afterSection (result : LiveTable.SectionResult) :
    ∀ op ∈ (afterSection result : List (Op τ)), op.Steady := by
  unfold afterSection
  split <;> split <;> simp [Op.Steady]

omit [DecidableEq τ] in
theorem startFree_steady (config : Config) (pointer : Pointer) :
    ∀ op ∈ (startFree config pointer : List (Op τ)), op.Steady := by
  unfold startFree
  split <;> simp [Op.Steady]

variable {next : List (Op (Option τ))}

section

variable (settled : op.Settled) (executed : execOp config env t hook op answer = some (hook', next))
include settled executed

/-- Only calls that take a record or move it leave operations that do so. -/
theorem execOp_leaves :
    (∀ later ∈ next, later.Steady) ∨
      ∃ oldAddr oldSize newSize flags newAddr, op =
      .system (.mremap oldAddr oldSize newSize flags newAddr) := by
  rcases execOp_cases executed with
    ⟨frameOp, rfl, framed⟩ | ⟨shardOp, live', rfl, -, sectioned, -⟩ |
      ⟨systemOp, world, rfl, -, -, rfl⟩ | ⟨peakOp, rfl, peaked⟩ | ⟨dmaOp, rfl, transacted⟩
  · left
    cases framed
    cases frameOp with
    | addBacktrace =>
        simp only [FrameOp.exec]
        split <;> simp [Op.Steady]
    | removeBacktrace => simp [FrameOp.exec]
  · left
    cases shardOp with
    | addEntry =>
        cases sectioned
        exact steady_afterSection _
    | internalFree pointer | remove pointer =>
        cases sectioned
        cases (hook.live.takeEntry pointer).1 <;> simp [Op.Steady]
    | remap oldPointer newPointer newSize =>
        simp only [ShardOp.exec] at sectioned
        split at sectioned <;> cases sectioned
        · simp
        · exact steady_afterSection _
    | reallocTake | munmapTake | restoreEntry => cases settled
  · cases systemOp with
    | realloc | munmap => cases settled
    | mremap => exact .inr ⟨_, _, _, _, _, rfl⟩
    | _ =>
        left
        simp only [SystemOp.next]
        repeat' split
        all_goals simp [Op.Steady, Op.add]
  · left
    intro later member
    obtain ⟨peakOp, rfl⟩ := execPeak_next peaked later member
    trivial
  · left
    cases dmaOp <;> simp only [Hook.execDma] at transacted
    case lockFds => split at transacted <;> cases transacted; simp
    all_goals
      cases transacted
      repeat' split
      all_goals simp [Op.Steady, Op.add]

theorem settled_next : ∀ later ∈ next, later.Settled := by
  rcases execOp_leaves settled executed with steady | ⟨oldAddr, oldSize, newSize, flags, newAddr, rfl⟩
  · exact fun later member => (steady later member).settled
  · obtain ⟨world, -, same⟩ := map_eq_some_iff.1 executed
    cases same
    simp only [SystemOp.next]
    repeat' split
    all_goals simp [Op.Settled, Op.add]

end

theorem steady_next (steady : op.Steady)
    (executed : execOp config env t hook op answer = some (hook', next)) :
    ∀ later ∈ next, later.Steady := by
  rcases execOp_leaves steady.settled executed with steady | ⟨_, _, _, _, _, rfl⟩
  · exact steady
  · cases steady

/-- How a hooked call starts: with operations that move no record, by taking a record, with the call alone
where nothing is tracked, or with an `mremap`. -/
inductive Starts (config : Config) : Request (Option τ) → List (Op (Option τ)) → Prop where
  | steady {request ops} (areSteady : ∀ op ∈ ops, op.Steady) : Starts config request ops
  | realloc (pointer bytes) : Starts config (.realloc pointer bytes) [.shard (.reallocTake pointer bytes)]
  | munmap (addr size) : Starts config (.munmap addr size) [.shard (.munmapTake addr size)]
  | untrackedRealloc (untracked : config.trackPointers = false) (pointer bytes) :
      Starts config (.realloc pointer bytes) [.system (.realloc pointer bytes none)]
  | untrackedMunmap (addr size) : Starts config (.munmap addr size) [.system (.munmap addr size none)]
  | mremap (oldAddr oldSize newSize flags newAddr) :
      Starts config (.mremap oldAddr oldSize newSize flags newAddr)
        [.system (.mremap oldAddr oldSize newSize flags newAddr)]

omit [DecidableEq τ] in
theorem startHooked_starts (config : Config) (request : Request (Option τ)) :
    Starts config request (startHooked config request) := by
  cases request with
  | realloc pointer bytes =>
      simp only [startHooked, startRealloc, startAlloc]
      split_ifs with null large empty refused tracked
      · exact .steady (by simp)
      · exact .steady (by simp [Op.Steady])
      · exact .steady (startFree_steady config pointer)
      · exact .steady (by simp)
      · exact .realloc pointer bytes
      · exact .untrackedRealloc (Bool.eq_false_iff.2 tracked) pointer bytes
  | munmap addr size =>
      simp only [startHooked]
      split_ifs
      · exact .munmap addr size
      · exact .untrackedMunmap addr size
  | mremap oldAddr oldSize newSize flags newAddr =>
      simp only [startHooked]
      split_ifs
      · exact .steady (by simp)
      · exact .mremap oldAddr oldSize newSize flags newAddr
  | free pointer =>
      simp only [startHooked]
      split_ifs
      · exact .steady (by simp)
      · exact .steady (startFree_steady config pointer)
  | _ =>
      refine .steady ?_
      simp only [startHooked, startAlloc, inFdTransaction]
      repeat' split
      all_goals simp [Op.Steady]

section

variable {P : LiveTable → Prop} (kept : KeptBySections P)

include kept

omit [DecidableEq τ] in
/-- A shard section keeps the property, unless it restores a record over another one. -/
theorem kept_shardExec {live live' : LiveTable} (holds : P live) {shardOp : ShardOp}
    (vacant : ∀ pointer info, shardOp = .restoreEntry pointer info → live.find pointer = none)
    (sectioned : shardOp.exec live answer = (live', next)) : P live' := by
  obtain rfl : (shardOp.exec live answer).1 = live' := congrArg Prod.fst sectioned
  cases shardOp with
  | addEntry => exact kept.addSection _ _ _ _ _ holds
  | internalFree pointer | remove pointer | reallocTake pointer | munmapTake pointer =>
      exact kept.takeEntry pointer holds
  | restoreEntry pointer info => exact kept.restoreEntry info (vacant pointer info rfl) holds
  | remap oldPointer newPointer newSize =>
      simp only [ShardOp.exec]
      cases remapped : live.remap oldPointer newPointer newSize with
      | none => exact holds
      | some result =>
          obtain ⟨info, found, -, rfl⟩ := live.remap_eq_some remapped
          exact kept.rekey newPointer newSize found holds

theorem kept_execOp (holds : P hook.live)
    (vacant : ∀ pointer info, op = .shard (.restoreEntry pointer info) → hook.live.find pointer = none)
    (executed : execOp config env t hook op answer = some (hook', next)) : P hook'.live := by
  rcases execOp_cases executed with
    ⟨frameOp, rfl, framed⟩ | ⟨shardOp, live', rfl, -, sectioned, rfl⟩ |
      ⟨systemOp, world, rfl, -, rfl, -⟩ | ⟨peakOp, rfl, peaked⟩ | ⟨dmaOp, rfl, transacted⟩
  · cases framed
    exact holds
  · exact kept_shardExec kept holds (fun pointer info same => vacant pointer info (same ▸ rfl)) sectioned
  · exact holds
  · exact (execPeak_frame peaked).1 ▸ holds
  · exact (execDma_frame transacted).1 ▸ holds

/-- A settled operation keeps the property and leaves only settled ones to do. -/
theorem settled_keeps (settled : op.Settled) (holds : P hook.live)
    (executed : execOp config env t hook op answer = some (hook', next)) :
    P hook'.live ∧ ∀ later ∈ next, later.Settled := by
  refine ⟨kept_execOp kept holds ?_ executed, settled_next settled executed⟩
  rintro pointer info rfl
  cases settled

theorem settled_alone {ops : List (Op (Option τ))} (settled : ∀ op ∈ ops, op.Settled) :
    (hookCode config env).Triple t (fun hook => P hook.live) ops (fun hook => P hook.live) :=
  .invariant Op.Settled (fun isSettled holds executed => settled_keeps kept isSettled holds executed) settled

/-- A record that goes back to where it was taken overwrites nothing when no other call came between. -/
theorem restore_alone (hook : Hook (Option τ) ε) {live : LiveTable} {pointer : Pointer}
    (info : PointerInfo) (holds : P live) (taken : hook.live = (live.takeEntry pointer).2) :
    (hookCode config env).Triple t (fun before => before = hook) [.shard (.restoreEntry pointer info)]
      (fun after => P after.live) := by
  refine shard_alone fun hook answer same => ?_
  subst same
  refine .nil fun after same => ?_
  subst same
  have vacant : hook.live.find pointer = none := by simp [taken]
  exact kept.restoreEntry info vacant (taken ▸ kept.takeEntry pointer holds)

theorem realloc_alone (pointer : Pointer) (bytes : Nat) :
    (hookCode config env).Triple t (fun hook => P hook.live) [.shard (.reallocTake pointer bytes)]
      (fun hook => P hook.live) := by
  refine shard_alone fun hook answer holds => ?_
  refine system_alone fun before answer world same answered => ?_
  subst same
  simp only [SystemOp.next]
  split
  · cases (hook.live.takeEntry pointer).1 with
    | none => exact .nil fun after same => same ▸ kept.takeEntry pointer holds
    | some info => exact restore_alone kept _ info holds rfl
  · refine (settled_alone kept ?_).imp (fun after same =>
      same ▸ kept.takeEntry pointer holds) fun _ after => after
    cases (hook.live.takeEntry pointer).1 <;> cases config.trackPointers <;>
      simp [Op.Settled, Op.add]

theorem munmap_alone (addr : Pointer) (size : Nat) :
    (hookCode config env).Triple t (fun hook => P hook.live) [.shard (.munmapTake addr size)]
      (fun hook => P hook.live) := by
  refine shard_alone fun hook answer holds => ?_
  refine system_alone fun before answer world same answered => ?_
  subst same
  simp only [SystemOp.next]
  cases (hook.live.takeEntry addr).1 with
  | none => exact .nil fun after same => same ▸ kept.takeEntry addr holds
  | some info =>
      simp only [elim_some]
      split
      · exact (settled_alone kept (by simp [Op.Settled])).imp
          (fun after same => same ▸ kept.takeEntry addr holds) fun _ after => after
      · exact restore_alone kept _ info holds rfl

/-- Without tracking there is no record to carry. -/
theorem untracked_alone {op : SystemOp (Option τ)}
    (untracked : ∀ answer, ∀ later ∈ op.next config answer, later.Settled) :
    (hookCode config env).Triple t (fun hook => P hook.live) [.system op] (fun hook => P hook.live) :=
  system_alone fun _ answer _ holds _ =>
    (settled_alone kept (untracked answer)).imp (fun _ same => same ▸ holds) fun _ after => after

/-- Between calls that run one after the other, the table has every property its sections keep. -/
theorem kept_of_reachable {ok : Hook (Option τ) ε → HookCall τ → Prop}
    (reached : (serialHook config env).ReachableBy ok hook) : P hook.live := by
  refine Code.serial_invariant (P := fun hook => P hook.live) kept.empty ?_ reached
  rintro before ⟨t, request, answers⟩ ops - started
  obtain rfl := startHooked_of_startCall started
  suffices keeps : (hookCode config env).Triple t (fun hook => P hook.live)
      (startHooked config request) (fun hook => P hook.live) from
    keeps.imp (fun hook same => same.1 ▸ same.2) fun _ after => after
  have starts := startHooked_starts config request
  generalize startHooked config request = ops at starts
  cases starts with
  | steady areSteady => exact settled_alone kept fun op member => (areSteady op member).settled
  | realloc pointer bytes => exact realloc_alone kept pointer bytes
  | munmap addr size => exact munmap_alone kept addr size
  | untrackedRealloc untracked pointer bytes =>
      exact untracked_alone kept fun answer => by simp [SystemOp.next, untracked]
  | untrackedMunmap addr size => exact untracked_alone kept (by simp [SystemOp.next])
  | mremap => exact settled_alone kept (by simp [Op.Settled])

end

end MallocHook
