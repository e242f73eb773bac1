/-
Module: MallocHook.Proofs.FailedCalls
Purpose: A hooked call that fails leaves the tracker as it was; `realloc` and `munmap` put back the
  record they took.
Trusted boundary: none
Main exports: Hook.SameTracker, failed_call_leaves_tracker
-/
import MallocHook.Core.SerialHook

namespace MallocHook

open Function LiveTable

/-! ### What a failure is -/

variable {θ : Type*}

/-- The allocator or the kernel said no. A `close` that fails with anything but `EBADF` may have closed
the descriptor. -/
def SystemOp.failed (op : SystemOp θ) (answer : Answer) : Bool :=
  match op with
  | .alloc routine _ => !routine.succeeded answer
  | .realloc .. => answer.pointer == 0
  | .mmap .. => answer.pointer == mapFailed
  | .mremap .. => !mappingSucceeded answer.pointer
  | .munmap .. | .ioctl .. => answer.status != 0
  | .close _ => answer.status != 0 && answer.badFd
  | .free _ | .handOver .. => false

/-- What is left to do after a failure: put back the record that was taken. -/
def SystemOp.undo : SystemOp θ → List (Op θ)
  | .realloc pointer _ (some info) | .munmap pointer _ (some info) =>
      [.shard (.restoreEntry pointer info)]
  | _ => []

theorem SystemOp.next_of_failed (config : Config) {op : SystemOp θ} {answer : Answer}
    (failed : op.failed answer = true) : op.next config answer = op.undo := by
  cases op with
  | alloc routine size | ioctl fd request | close fd =>
      simp_all [SystemOp.failed, SystemOp.next, SystemOp.undo]
  | realloc pointer bytes previous | munmap addr size previous =>
      cases previous <;> simp_all [SystemOp.failed, SystemOp.next, SystemOp.undo]
  | mmap addr size flags fd pendingIoctl =>
      simp_all [SystemOp.failed, SystemOp.next, SystemOp.undo, classifyMmap]
  | mremap oldAddr oldSize newSize flags newAddr =>
      simp_all [SystemOp.failed, SystemOp.next, SystemOp.undo]
  | free | handOver => cases failed

/-! ### Being as it was -/

namespace LiveTable

/-- The same records and the same counters. -/
structure SameContents (table' table : LiveTable) : Prop where
  records : ∀ pointer, table'.find pointer = table.find pointer
  currentUsed : table'.currentUsed = table.currentUsed
  currentHost : table'.currentHost = table.currentHost
  currentDma : table'.currentDma = table.currentDma
  peakTot : table'.peakTot = table.peakTot
  peakHost : table'.peakHost = table.peakHost
  peakDma : table'.peakDma = table.peakDma

theorem SameContents.refl (table : LiveTable) : table.SameContents table :=
  ⟨fun _ => rfl, rfl, rfl, rfl, rfl, rfl, rfl⟩

variable {table : LiveTable} {pointer : Pointer}

/-- Taking a record that is not there does nothing. -/
theorem sameContents_takeEntry
    (absent : table.find pointer = none) : (table.takeEntry pointer).2.SameContents table := by
  simp only [takeEntry, detach, absent]
  exact .refl table

/-- A record put back where it was taken makes the table what it was. -/
theorem sameContents_restoreEntry {info : PointerInfo} (found : table.find pointer = some info) :
    ((table.takeEntry pointer).2.restoreEntry pointer info).SameContents table := by
  have records : ∀ other, ((table.takeEntry pointer).2.restoreEntry pointer info).find other =
      table.find other := by
    intro other
    rw [find_restoreEntry, find_takeEntry]
    split
    · next same => rw [same, found]
    · rfl
  have taken : (table.takeEntry pointer).2 =
      (table.charge info.memType (-(info.size : Int))).erase pointer := by
    simp only [takeEntry, detach, found]
  rw [taken] at records ⊢
  -- the charge of each memory type is undone by the opposite charge of the same type
  cases type : info.memType with
  | host | mmap | dma =>
      rw [type] at records
      refine ⟨records, ?_, ?_, ?_, ?_, ?_, ?_⟩ <;>
        simp [restoreEntry, charge, erase, store, markPointerFilter, type]

end LiveTable

/-- The tracker is as it was: records, counters, stacks, descriptors, waiting ION allocations and the
retained peak. -/
structure Hook.SameTracker {θ ε : Type*} (hook' hook : Hook θ ε) : Prop where
  live : hook'.live.SameContents hook.live
  stackTable : hook'.stackTable = hook.stackTable
  dma : hook'.dma = hook.dma
  peak : hook'.peak = hook.peak

/-! ### Failing calls -/

variable {τ ε : Type*} [DecidableEq τ] {config : Config} {env : Environment (Option τ) ε} {t : Option τ}
  {op : SystemOp (Option τ)} {P Q : Hook (Option τ) ε → Prop}

/-- A failed call into the allocator or the kernel, with what it leaves to do. -/
theorem failed_system_alone
    (leaves : ∀ hook world, P hook → (hookCode config (env.only SystemOp.failed)).Triple t
      (fun after => after = { hook with world := world }) op.undo Q) :
    (hookCode config (env.only SystemOp.failed)).Triple t P [.system op] Q := by
  refine system_alone fun hook answer world holds answered => ?_
  simp only [Environment.only, Option.ite_none_right_eq_some] at answered
  rw [SystemOp.next_of_failed config answered.1]
  exact leaves hook world holds

/-- The tracker is as it was in `hook`, and the marks of pending GPU allocations are `pendingGpu`. -/
structure Untouched (hook : Hook (Option τ) ε) (pendingGpu : Option τ → UInt32)
    (after : Hook (Option τ) ε) : Prop where
  same : after.SameTracker hook
  pending : after.pendingGpu = pendingGpu

variable (hook : Hook (Option τ) ε)

omit [DecidableEq τ] in
theorem Untouched.refl : Untouched hook hook.pendingGpu hook := ⟨⟨.refl _, rfl, rfl, rfl⟩, rfl⟩

variable {hook} {pendingGpu : Option τ → UInt32}

theorem untouched_system_alone (nothing : op.undo = []) :
    (hookCode config (env.only SystemOp.failed)).Triple t (Untouched hook pendingGpu) [.system op]
      (Untouched hook pendingGpu) := by
  refine failed_system_alone fun before world untouched => ?_
  rw [nothing]
  refine .nil fun after same => ?_
  subst same
  exact ⟨⟨untouched.same.live, untouched.same.stackTable, untouched.same.dma, untouched.same.peak⟩,
    untouched.pending⟩

/-- `realloc` and `munmap`: the record is taken, the call fails, the record goes back. -/
theorem untouched_take_alone {shardOp : ShardOp} {pointer : Pointer}
    {systemOp : Option PointerInfo → SystemOp (Option τ)} (takes : ∀ live answer, shardOp.exec live answer =
      ((live.takeEntry pointer).2, [.system (systemOp (live.takeEntry pointer).1)]))
    (nothing : (systemOp none).undo = [])
    (restores : ∀ info, (systemOp (some info)).undo = [.shard (.restoreEntry pointer info)]) :
    (hookCode config (env.only SystemOp.failed)).Triple t (fun before => before = hook)
      [.shard shardOp] (Untouched hook hook.pendingGpu) := by
  refine shard_alone fun before answer same => ?_
  subst same
  rw [takes]
  refine failed_system_alone fun taking world same => ?_
  subst same
  rw [takeEntry_fst]
  cases found : before.live.find pointer with
  | none =>
      rw [nothing]
      refine .nil fun after same => ?_
      subst same
      exact ⟨⟨sameContents_takeEntry found, rfl, rfl, rfl⟩, rfl⟩
  | some info =>
      rw [restores]
      refine shard_alone fun restoring answer same => ?_
      subst same
      refine .nil fun after same => ?_
      subst same
      exact ⟨⟨sameContents_restoreEntry found, rfl, rfl, rfl⟩, rfl⟩

/-- A descriptor transaction around calls that leave the tracker untouched. -/
theorem untouched_transaction {registersFd : Bool} {ops : List (Op (Option τ))}
    (inside : (hookCode config (env.only SystemOp.failed)).Triple t (Untouched hook hook.pendingGpu) ops
      (Untouched hook pendingGpu)) :
    (hookCode config (env.only SystemOp.failed)).Triple t (Untouched hook hook.pendingGpu)
      (inFdTransaction registersFd ops) (Untouched hook pendingGpu) := by
  refine transaction_alone (fun untouched => ?_) (fun untouched => ?_) inside
  all_goals
    exact ⟨⟨untouched.same.live, untouched.same.stackTable, untouched.same.dma, untouched.same.peak⟩,
      untouched.pending⟩

/-- A failing `mmap` takes the mark of its thread before it asks the kernel. -/
theorem untouched_mmap (addr : Pointer) (size : Nat) (flags : UInt32) (fd : Fd) :
    (hookCode config (env.only SystemOp.failed)).Triple t (Untouched hook hook.pendingGpu)
      [.dma (.takePending addr size flags fd)]
      (Untouched hook (update hook.pendingGpu t 0)) := by
  refine .step fun {before answer after next} untouched executed => ?_
  cases executed
  have taken : Untouched hook (update hook.pendingGpu t 0)
      { before with pendingGpu := update before.pendingGpu t 0 } :=
    ⟨⟨untouched.same.live, untouched.same.stackTable, untouched.same.dma, untouched.same.peak⟩,
      by rw [untouched.pending]⟩
  split
  · exact .nil fun after same => same ▸ taken
  · exact (untouched_system_alone rfl).imp (fun after same => same ▸ taken) fun _ after => after

/-- `free` has no way to fail: in an environment of failures it never comes to its end. -/
theorem free_never_fails (pointer : Pointer) :
    (hookCode config (env.only SystemOp.failed)).Triple t P (startFree config pointer) Q := by
  have freed : ∀ {P : Hook (Option τ) ε → Prop} {Q : Hook (Option τ) ε → Prop},
      (hookCode config (env.only SystemOp.failed)).Triple t P [.system (.free pointer)] Q :=
    system_alone fun _ _ _ _ answered => by cases answered
  unfold startFree
  split
  · refine shard_alone fun hook answer _ => ?_
    exact .append (R := fun _ => True) (fun _ _ _ _ _ => trivial) freed
  · exact freed

/-- The marks after a failing call: `debug_mmap` has taken that of its thread. -/
def Request.marksLeft [DecidableEq θ] (t : θ) (pendingGpu : θ → UInt32) :
    Request θ → θ → UInt32
  | .mmap .. => update pendingGpu t 0
  | _ => pendingGpu

/-- The operations of a call, executed alone in an environment of failures. -/
theorem failed_request_alone (hook : Hook (Option τ) ε) {request : Request (Option τ)}
    (ofProgram : ∀ sample, request ≠ .sample sample) :
    (hookCode config (env.only SystemOp.failed)).Triple t (fun before => before = hook)
      (startHooked config request) (Untouched hook (request.marksLeft t hook.pendingGpu)) := by
  have refuse : (hookCode config (env.only SystemOp.failed)).Triple t (fun before => before = hook) []
      (Untouched hook hook.pendingGpu) := .nil fun after same => same ▸ .refl hook
  have ask : ∀ {op : SystemOp (Option τ)}, op.undo = [] →
      (hookCode config (env.only SystemOp.failed)).Triple t (fun before => before = hook) [.system op]
        (Untouched hook hook.pendingGpu) :=
    fun nothing => (untouched_system_alone nothing).imp
      (fun _ same => same ▸ .refl hook) fun _ after => after
  cases request
  case mmap addr size flags fd =>
    exact (untouched_transaction (untouched_mmap addr size flags fd)).imp
      (fun _ same => same ▸ .refl hook) fun _ after => after
  case ioctl fd request =>
    exact (untouched_transaction (untouched_system_alone rfl)).imp (fun _ same => same ▸ .refl hook)
      fun _ after => after
  case handOver pointer heir => exact ask rfl
  case sample sample => exact absurd rfl (ofProgram sample)
  all_goals simp only [startHooked, startRealloc, startAlloc]
  case malloc | memalign | alignedAlloc | calloc | mremap =>
    split
    · exact refuse
    · exact ask rfl
  case posixMemalign =>
    split_ifs
    · exact refuse
    · exact refuse
    · exact ask rfl
  case realloc pointer bytes =>
    split_ifs
    · exact refuse
    · exact ask rfl
    · exact free_never_fails pointer
    · exact refuse
    · exact untouched_take_alone (fun _ _ => rfl) rfl fun _ => rfl
    · exact ask rfl
  case free pointer =>
    split
    · exact refuse
    · exact free_never_fails pointer
  case munmap addr size =>
    split
    · exact untouched_take_alone (fun _ _ => rfl) rfl fun _ => rfl
    · exact ask rfl
  case close fd =>
    split
    · exact (untouched_transaction (untouched_system_alone rfl)).imp
        (fun _ same => same ▸ .refl hook) fun _ after => after
    · exact ask rfl

/-- What a failing call leaves: the tracker as it was, and all marks but the one that `debug_mmap` takes.
-/
theorem failed_call {hook hook' : Hook (Option τ) ε} {call : HookCall τ}
    (byProgram : call.thread.isSome = true) (fails : CallAnswered config env SystemOp.failed hook call)
    (stepped : (serialHook config env).step hook call = some hook') :
    Untouched hook (call.request.marksLeft call.thread hook.pendingGpu) hook' := by
  obtain ⟨ops, started, finished⟩ := Option.bind_eq_some_iff.1 (fails.step stepped)
  obtain rfl := startHooked_of_startCall started
  refine failed_request_alone hook (fun sample isSample => ?_) _ _ _ rfl finished
  obtain ⟨thread, isProgram⟩ := Option.isSome_iff_exists.1 byProgram
  rw [isSample, isProgram] at started
  cases started

/-- In every state, a call of the program that the hook refuses or that the allocator or the kernel fails
leaves the tracker as it was; the mark of a pending GPU allocation too, unless the call is
`debug_mmap`. -/
theorem failed_call_leaves_tracker {hook hook' : Hook (Option τ) ε} {call : HookCall τ}
    (byProgram : call.thread.isSome = true) (fails : CallAnswered config env SystemOp.failed hook call)
    (stepped : (serialHook config env).step hook call = some hook') :
    hook'.SameTracker hook ∧
      ((∀ addr size flags fd, call.request ≠ .mmap addr size flags fd) →
        hook'.pendingGpu = hook.pendingGpu) := by
  obtain ⟨same, marks⟩ := failed_call byProgram fails stepped
  refine ⟨same, fun notMmap => marks.trans ?_⟩
  cases request : call.request with
  | mmap addr size flags fd => exact absurd request (notMmap addr size flags fd)
  | _ => rfl

/-- A `realloc` that fails, on a block of 100 bytes that carries a stack. -/
def failedRealloc : HookCall Worker := ⟨some .one, .realloc 0x10000 200, List.replicate 3 {}⟩

theorem failed_call_leaves_tracker_realloc :
    ∃ hook hook', (serialHook trackingConfig (.any (Option Worker))).run
        (.initial trackingConfig (.any _))
        [⟨some .one, .malloc 100, [{ pointer := 0x10000 }, { stack := oneFrame 0x400 }, {}, {}]⟩] =
          some hook ∧
      (serialHook trackingConfig (.any (Option Worker))).step hook failedRealloc = some hook' ∧
      (hook.live.find 0x10000).map PointerInfo.size = some 100 ∧
      hook'.live.find 0x10000 = hook.live.find 0x10000 := by
  obtain ⟨hook, ran, hook', stepped, found, fails⟩ :
      ∃ hook ∈ (serialHook trackingConfig (.any (Option Worker))).run (.initial trackingConfig (.any _))
        [⟨some .one, .malloc 100, [{ pointer := 0x10000 }, { stack := oneFrame 0x400 }, {}, {}]⟩],
      ∃ _ ∈ (serialHook trackingConfig (.any (Option Worker))).step hook failedRealloc,
        (hook.live.find 0x10000).map PointerInfo.size = some 100 ∧
          CallAnswered trackingConfig (.any (Option Worker)) SystemOp.failed hook
            failedRealloc := by decide +kernel
  exact ⟨hook, hook', ran, stepped, found, (failed_call_leaves_tracker rfl fails stepped).1.live.records
    0x10000⟩

end MallocHook
