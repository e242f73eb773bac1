/-
Module: MallocHook.Proofs.StackReferences
Purpose: Reference counting of the allocation stacks across all interleavings. Only a `RestoreEntry`
  into an address that has been registered again loses a holder.
Trusted boundary: none
Main exports: RestoreVacant, stack_references_exact, restore_leaks_stack
-/
import Mathlib.Algebra.Order.BigOperators.Group.Finset
import MallocHook.Core.HookedThreads

namespace MallocHook

open List LiveTable

/-- One if a hash index is the index asked for. -/
def refersTo (index hashIndex : Nat) : Int := if hashIndex = index then 1 else 0

theorem refersTo_nonneg (index hashIndex : Nat) : 0 ≤ refersTo index hashIndex := by
  unfold refersTo
  split <;> decide

@[simp] theorem refersTo_self (index : Nat) : refersTo index index = 1 := if_pos rfl

section

variable {θ : Type*} (index : Nat)

/-- The references to a stack that an operation in flight carries. -/
def Op.references : Op θ → Int
  | .frame (.removeBacktrace hashIndex) => refersTo index hashIndex
  | .shard (.addEntry _ _ hashIndex _) => refersTo index hashIndex
  | .shard (.restoreEntry _ info) => refersTo index info.hashIndex
  | .system (.realloc _ _ previous) => previous.elim 0 fun info => refersTo index info.hashIndex
  | .system (.munmap _ _ previous) => previous.elim 0 fun info => refersTo index info.hashIndex
  | _ => 0

/-- The live entries that refer to a stack. -/
def entriesWith (live : LiveTable) : Int := live.total fun info => refersTo index info.hashIndex

theorem entriesWith_nonneg (live : LiveTable) : 0 ≤ entriesWith index live :=
  live.total_nonneg fun info => refersTo_nonneg index info.hashIndex

theorem Op.references_nonneg (op : Op θ) : 0 ≤ op.references index := by
  unfold Op.references
  split
  case h_4 previous | h_5 previous =>
    cases previous with
    | none => exact Int.le_refl _
    | some info => exact refersTo_nonneg index info.hashIndex
  all_goals first | exact refersTo_nonneg _ _ | exact Int.le_refl _

variable {index}

/-! ### Each operation hands its references on -/

/-- A call starts without references. -/
theorem load_startHooked (config : Config) (request : Request θ) :
    load (Op.references index) (startHooked config request) = 0 := by
  cases request <;> simp only [startHooked, startAlloc, startFree, startRealloc, inFdTransaction]
  all_goals repeat' split
  all_goals rfl

/-- The displaced record of an `Add` or `Remap` is released afterwards, if it has a stack. -/
theorem load_afterSection (stack : kBacktraceEmptyIndex < index) (result : LiveTable.SectionResult) :
    load (Op.references index) (afterSection result : List (Op θ)) =
      result.displaced.elim 0 fun info => refersTo index info.hashIndex := by
  have unraised : ∀ raised : Bool, load (Op.references index)
      (if raised then [(.peak (.testThreshold result.trackedTotal) : Op θ)] else []) = 0 := by
    intro raised
    cases raised <;> rfl
  unfold afterSection LiveTable.SectionResult.displacedHashIndex
  rw [load_append, unraised, Int.zero_add]
  cases result.displaced with
  | none => rfl
  | some info =>
      by_cases large : (some info).elim 0 PointerInfo.hashIndex > kBacktraceEmptyIndex
      · rw [if_pos large]
        exact Int.add_zero _
      · have small : info.hashIndex ≤ kBacktraceEmptyIndex := Nat.le_of_not_lt large
        rw [if_neg large, load_nil, Option.elim_some, refersTo, if_neg (by omega)]

/-- The record `TakeEntry` took is released afterwards. -/
theorem load_release (found : Option PointerInfo) :
    load (Op.references index) (found.elim [] fun info =>
      [(.frame (.removeBacktrace info.hashIndex) : Op θ)]) =
      found.elim 0 fun info => refersTo index info.hashIndex := by
  cases found with
  | none => rfl
  | some info => exact Int.add_zero _

variable {answer : Answer}

/-- A shard section moves references between the table and the operations in flight, unless it restores
over a record. -/
theorem shard_balance (stack : kBacktraceEmptyIndex < index) {live live' : LiveTable} {op : ShardOp}
    {next : List (Op θ)}
    (vacant : ∀ pointer info, op = .restoreEntry pointer info → live.find pointer = none)
    (executed : op.exec live answer = (live', next)) :
    entriesWith index live' + load (Op.references index) next =
      entriesWith index live + (Op.shard op : Op θ).references index := by
  unfold entriesWith
  cases op
  case remap oldPointer newPointer newSize =>
    simp only [ShardOp.exec] at executed
    split at executed <;> cases executed
    · rfl
    · next result remapped =>
        obtain ⟨info, found, -, rfl⟩ := live.remap_eq_some remapped
        rw [load_afterSection stack, live.total_rekey _ _ _ found]
        simp only [Op.references]
        omega
  all_goals cases executed
  case addEntry pointer trackedSize hashIndex type =>
    rw [load_afterSection stack, addSection_displaced, total_addSection]
    simp only [Op.references]
    omega
  case internalFree pointer =>
    rw [load_append, load_release, takeEntry_fst, total_takeEntry]
    simp only [Op.references, load_cons, load_nil]
    omega
  case remove pointer =>
    rw [load_release, takeEntry_fst, total_takeEntry]
    simp only [Op.references]
    omega
  case reallocTake pointer bytes | munmapTake addr size =>
    rw [takeEntry_fst, total_takeEntry]
    simp only [Op.references, load_cons, load_nil]
    omega
  case restoreEntry pointer info =>
    rw [total_restoreEntry, vacant pointer info rfl]
    simp only [Op.references, load_nil, Option.elim_none]
    omega

/-- What a call does after the allocator or the kernel answered carries what the call carried. -/
theorem system_balance (config : Config) (answer : Answer) (op : SystemOp θ) :
    load (Op.references index) (op.next config answer) = (Op.system op).references index := by
  cases op with
  | realloc pointer bytes previous =>
      simp only [SystemOp.next]
      split
      · cases previous with
        | none => rfl
        | some info => exact Int.add_zero _
      · rw [load_append, load_release]
        have added : load (Op.references index)
            (if config.trackPointers then [(.add answer.pointer bytes .host : Op θ)] else []) = 0 := by
          split <;> rfl
        rw [added, Int.zero_add]
        rfl
  | munmap addr size previous =>
      simp only [SystemOp.next]
      cases previous with
      | none => rfl
      | some info =>
          simp only [Option.elim_some]
          split
          · exact Int.add_zero _
          · exact Int.add_zero _
  | alloc | free | mmap | mremap | ioctl | close | handOver =>
      simp only [SystemOp.next]
      repeat' split
      all_goals rfl

/-- A frame section changes the count by the references it takes in and hands on. -/
theorem frame_balance (stack : kBacktraceEmptyIndex < index) {config : Config}
    {stackTable stackTable' : StackTable} {op : FrameOp} {next : List (Op θ)}
    (held : (Op.frame op : Op θ).references index ≤ stackTable.references index)
    (executed : op.exec config stackTable answer = (stackTable', next)) :
    (stackTable'.references index : Int) =
      stackTable.references index - (Op.frame op : Op θ).references index + load
      (Op.references index) next := by
  cases op with
  | addBacktrace pointer pointerSize trackedSize type =>
      cases executed
      have returned := stackTable.addBacktrace_index config pointerSize answer.stack
      rw [if_neg (Nat.ne_of_gt returned), stackTable.references_addBacktrace config _ _ stack]
      simp only [Op.references, load_cons, load_nil, refersTo]
      split <;> split <;> omega
  | removeBacktrace hashIndex =>
      cases executed
      rw [StackTable.references_removeBacktrace]
      simp only [Op.references, load_nil, refersTo] at held ⊢
      split at held <;> split <;> omega

end

/-! ### All interleavings -/

section

variable {τ ε : Type*} [DecidableEq τ] {config : Config} {env : Environment (Option τ) ε} {index : Nat}
  {t : Option τ} {hook hook' : Hook (Option τ) ε} {answer : Answer} {next : List (Op (Option τ))}

omit [DecidableEq τ] in
/-- The steps of the peak code carry no references. -/
theorem load_execPeak {op : PeakOp} (executed : hook.execPeak config t answer op = some (hook', next)) :
    load (Op.references index) next = 0 := by
  refine load_eq_zero _ fun other member => ?_
  obtain ⟨later, rfl⟩ := execPeak_next executed other member
  rfl

/-- Neither do the steps of the descriptor code: an `Add` they start has captured nothing yet. -/
theorem load_execDma {op : DmaOp} (executed : hook.execDma t answer op = some (hook', next)) :
    load (Op.references index) next = 0 := by
  cases op <;> simp only [Hook.execDma] at executed
  all_goals
    repeat' split at executed
    all_goals cases executed
    all_goals rfl

/-- The address a thread is about to restore a record to. -/
def restoreTarget {θ : Type*} : List (Op θ) → Option Pointer
  | .shard (.restoreEntry pointer _) :: _ => some pointer
  | _ => none

/-- Nobody restores a record over one that was registered in the meantime. -/
def RestoreVacant (pool : HookPool τ ε) : HookEvent τ → Prop
  | .call _ _ => True
  | .exec t _ => ∀ pointer ∈ restoreTarget (pool.todo t), pool.shared.live.find pointer = none

instance (pool : HookPool τ ε) : DecidablePred (RestoreVacant pool)
  | .call _ _ => isTrue trivial
  -- Only the one target is looked up; the pointers are a finite type, and never enumerated.
  | .exec t _ => Option.decidableForallMem (restoreTarget (pool.todo t))

variable [Fintype τ] {pool pool' : HookPool τ ε} {event : HookEvent τ}

/-- The live entries and the operations in flight that refer to a stack. -/
def holders (pool : HookPool τ ε) (index : Nat) : Int :=
  entriesWith index pool.shared.live + pendingTotal (Op.references index) pool.todo

omit [DecidableEq τ] in
/-- An operation in flight is among the holders. -/
theorem references_le_holders {op : Op (Option τ)} {rest : List (Op (Option τ))}
    (pending : pool.todo t = op :: rest) : op.references index ≤ holders pool index := by
  have nonneg : ∀ ops : List (Op (Option τ)), 0 ≤ load (Op.references index) ops := by
    intro ops
    induction ops with
    | nil => exact Int.le_refl _
    | cons op ops ih =>
        rw [load_cons]
        exact Int.add_nonneg (op.references_nonneg index) ih
  have inSum : load (Op.references index) (pool.todo t) ≤
      pendingTotal (Op.references index) pool.todo :=
    Finset.single_le_sum (fun u _ => nonneg (pool.todo u)) (Finset.mem_univ t)
  have entries := entriesWith_nonneg index pool.shared.live
  have others := nonneg rest
  rw [pending, load_cons] at inSum
  unfold holders
  omega

/-- One step keeps the count of a stack equal to the number of its holders. -/
theorem counted_step (stack : kBacktraceEmptyIndex < index)
    (counted : (pool.shared.stackTable.references index : Int) = holders pool index)
    (vacant : RestoreVacant pool event) (stepped : (hooked config env).step pool event = some pool') :
    (pool'.shared.stackTable.references index : Int) = holders pool' index := by
  rcases Code.step_call_or_exec stepped with
    ⟨t, request, ops, -, idle, started, rfl⟩ | ⟨t, answer, op, rest, hook', next, rfl,
      pending, executed, rfl⟩
  · -- A call that starts carries nothing.
    have weightless : load (Op.references index) ops = 0 :=
      startHooked_of_startCall started ▸ load_startHooked config request
    unfold holders Pool.setTodo at *
    rw [pendingTotal_call _ idle, weightless, Int.add_zero]
    exact counted
  · have held : op.references index ≤ pool.shared.stackTable.references index :=
      counted ▸ references_le_holders pending
    unfold holders at counted ⊢
    dsimp only
    rw [pendingTotal_exec _ pending]
    rcases execOp_cases executed with ⟨frameOp, rfl, framed⟩ |
      ⟨shardOp, live', rfl, -, sharded, rfl⟩ | ⟨systemOp, world, rfl, -, rfl, rfl⟩ |
      ⟨peakOp, rfl, peaked⟩ | ⟨dmaOp, rfl, dmaed⟩
    · cases framed
      have moved := frame_balance stack held
        (Prod.mk.eta : (_, _) = frameOp.exec config pool.shared.stackTable answer).symm
      dsimp only
      omega
    · have overVacant : ∀ pointer info, shardOp = .restoreEntry pointer info →
          pool.shared.live.find pointer = none := by
        rintro pointer info rfl
        exact vacant pointer (by rw [pending]; rfl)
      have moved := shard_balance stack overVacant sharded
      dsimp only at moved ⊢
      omega
    · have moved : load (Op.references index) (systemOp.next config answer) = _ :=
        system_balance config answer systemOp
      dsimp only at moved ⊢
      omega
    · obtain ⟨sameLive, sameStacks, -⟩ := execPeak_frame peaked
      rw [load_execPeak peaked, sameLive, sameStacks, counted]
      simp [Op.references]
    · obtain ⟨sameLive, sameStacks, -⟩ := execDma_frame dmaed
      rw [load_execDma dmaed, sameLive, sameStacks, counted]
      simp [Op.references]

/-! ### Captured stacks -/

/-- Every index in use stands for the stacks captured under it, and none is beyond the next one. -/
structure CapturesKnown (hook : Hook (Option τ) ε) : Prop where
  handedOut : ∀ index key, (index, key) ∈ hook.captures → index < hook.stackTable.curHashIndex
  known : ∀ index, 0 < hook.stackTable.references index →
    ∀ key, (index, key) ∈ hook.captures ↔ hook.stackTable.keyAt index = some key

omit [DecidableEq τ] [Fintype τ] in
theorem CapturesKnown.execFrame {hook : Hook (Option τ) ε} (captures : CapturesKnown hook)
    (answer : Answer) (op : FrameOp) : CapturesKnown (hook.execFrame config answer op).1 := by
  cases op with
  | removeBacktrace hashIndex =>
      refine ⟨fun index key member => ?_, fun index held key => ?_⟩
      · simpa [Hook.execFrame, FrameOp.exec] using captures.handedOut index key member
      · have heldBefore : 0 < hook.stackTable.references index := by
          have dropped := hook.stackTable.references_removeBacktrace hashIndex index
          simp only [Hook.execFrame, FrameOp.exec] at held
          omega
        exact (captures.known index heldBefore key).trans
          (by simp only [Hook.execFrame, FrameOp.exec, StackTable.keyAt_removeBacktrace _ held])
  | addBacktrace pointer pointerSize trackedSize type =>
      simp only [Hook.execFrame, FrameOp.exec]
      rcases hook.stackTable.addBacktrace_cases config pointerSize answer.stack with declined | interned
      · -- Nothing was captured; the empty index is never in use.
        rw [declined]
        refine ⟨fun index key member => ?_, fun index held key => ?_⟩
        · rcases mem_cons.1 member with same | old
          · cases same
            exact hook.stackTable.nextInRange
          · exact captures.handedOut index key old
        · have range := (hook.stackTable.inRange_of_references held).1
          rw [← captures.known index held key, mem_cons, Prod.mk.injEq]
          exact or_iff_right fun same => Nat.ne_of_gt range same.1
      · rw [interned]
        refine ⟨fun index key member => ?_, fun index held key => ?_⟩
        · rcases hook.stackTable.intern_fresh_or_found answer.stack with ⟨here, next⟩ | ⟨here, next⟩
          · rw [next]
            rcases mem_cons.1 member with same | old
            · cases same
              exact here ▸ Nat.lt_succ_self _
            · exact Nat.lt_succ_of_lt (captures.handedOut index key old)
          · rw [next]
            rcases mem_cons.1 member with same | old
            · cases same
              exact (hook.stackTable.inRange_of_references
                (hook.stackTable.keyAt_isSome.1 (by rw [here]; rfl))).2
            · exact captures.handedOut index key old
        · rw [StackTable.keyAt_intern, mem_cons, Prod.mk.injEq]
          have counted := hook.stackTable.references_intern answer.stack index
          split
          · next same =>
              rw [← same, Option.some.injEq]
              simp only [true_and]
              rcases hook.stackTable.intern_fresh_or_found answer.stack with
                ⟨fresh, -⟩ | ⟨found, -⟩
              · -- The index is new, so nothing was captured under it before.
                refine ⟨fun either => either.elim Eq.symm fun old => ?_, fun same => .inl same.symm⟩
                exact absurd (captures.handedOut index key old) (by rw [same, fresh]; exact Nat.lt_irrefl _)
              · rw [← same] at found
                rw [captures.known index (hook.stackTable.keyAt_isSome.1 (by rw [found]; rfl)) key, found,
                  Option.some.injEq, eq_comm, or_self]
          · next other =>
              rw [if_neg other, Nat.add_zero] at counted
              rw [captures.known index (counted ▸ held) key]
              exact or_iff_right fun same => other same.1

omit [Fintype τ] in
theorem capturesKnown_step (captures : CapturesKnown pool.shared)
    (stepped : (hooked config env).step pool event = some pool') : CapturesKnown pool'.shared := by
  rcases Code.step_call_or_exec stepped with
    ⟨t, request, ops, -, idle, started, rfl⟩ | ⟨t, answer, op, rest, hook', next, rfl,
      pending, executed, rfl⟩
  · exact captures
  · rcases execOp_cases executed with ⟨frameOp, rfl, framed⟩ |
      ⟨shardOp, live', rfl, -, sharded, rfl⟩ | ⟨systemOp, world, rfl, -, rfl, rfl⟩ |
      ⟨peakOp, rfl, peaked⟩ | ⟨dmaOp, rfl, dmaed⟩
    · have known : CapturesKnown (pool.shared.execFrame config answer frameOp).1 :=
        captures.execFrame answer frameOp
      rw [framed] at known
      exact known
    · exact ⟨captures.handedOut, captures.known⟩
    · exact ⟨captures.handedOut, captures.known⟩
    · obtain ⟨-, sameStacks, sameCaptures, -⟩ := execPeak_frame peaked
      exact ⟨by rw [sameStacks, sameCaptures]; exact captures.handedOut,
        by rw [sameStacks, sameCaptures]; exact captures.known⟩
    · obtain ⟨-, sameStacks, -, -, -, -, sameCaptures, -⟩ := execDma_frame dmaed
      exact ⟨by rw [sameStacks, sameCaptures]; exact captures.handedOut,
        by rw [sameStacks, sameCaptures]; exact captures.known⟩

/-! ### The invariant of every interleaving -/

theorem counted_of_reachable (reached : (hooked config env).ReachableBy RestoreVacant pool)
    (stack : kBacktraceEmptyIndex < index) :
    (pool.shared.stackTable.references index : Int) = holders pool index := by
  refine reached.invariant (P := fun pool =>
    (pool.shared.stackTable.references index : Int) = holders pool index) ?_ (counted_step stack)
  change (0 : Int) = entriesWith index .empty + pendingTotal _ (fun _ => [])
  rw [pendingTotal_idle, entriesWith, total_empty', Int.add_zero]

omit [Fintype τ] in
theorem capturesKnown_of_reachable (reached : (hooked config env).Reachable pool) :
    CapturesKnown pool.shared := by
  refine reached.invariant (P := fun pool => CapturesKnown pool.shared) ?_
    fun known _ stepped => capturesKnown_step known stepped
  exact ⟨fun _ _ member => absurd member not_mem_nil, fun _ held => absurd held (Nat.lt_irrefl 0)⟩

omit [DecidableEq τ] in
/-- A live entry with a stack is one of its holders. -/
theorem holders_pos_of_entry {entry : Pointer × PointerInfo}
    (member : entry ∈ pool.shared.live.entries) : 0 < holders pool entry.2.hashIndex := by
  have inTable : refersTo entry.2.hashIndex entry.2.hashIndex ≤
      entriesWith entry.2.hashIndex pool.shared.live :=
    weight_le_total (fun info => refersTo_nonneg _ info.hashIndex) member
  have inFlight : 0 ≤ pendingTotal (Op.references entry.2.hashIndex) pool.todo :=
    Finset.sum_nonneg fun t _ => sum_nonneg fun value weight => by
      obtain ⟨op, -, rfl⟩ := mem_map.1 weight
      exact op.references_nonneg _
  rw [refersTo_self] at inTable
  unfold holders
  omega

/-- In every state that hooked calls reach while no record is restored over another one: an index is in
`frames_` exactly while somebody holds it, with as many references as holders; `key_to_index_` and
`frames_` are inverse; and two live records share an index exactly if their stacks are equal. -/
theorem stack_references_exact (reached : (hooked config env).ReachableBy RestoreVacant pool) :
    (∀ index, kBacktraceEmptyIndex < index →
      ((∃ info, pool.shared.stackTable.frames.lookup index = some info) ↔ 0 < holders pool index) ∧
      ∀ info, pool.shared.stackTable.frames.lookup index = some info →
        (info.references : Int) = holders pool index) ∧
    (∀ key index, pool.shared.stackTable.keyToIndex.lookup key = some index ↔
      ∃ info, pool.shared.stackTable.frames.lookup index = some info ∧ info.key = key) ∧
    (∀ entry ∈ pool.shared.live.entries, ∀ other ∈ pool.shared.live.entries,
      kBacktraceEmptyIndex < entry.2.hashIndex → kBacktraceEmptyIndex < other.2.hashIndex →
      ∃ key key', (∀ k, (entry.2.hashIndex, k) ∈ pool.shared.captures ↔ k = key) ∧
        (∀ k, (other.2.hashIndex, k) ∈ pool.shared.captures ↔ k = key') ∧
        (entry.2.hashIndex = other.2.hashIndex ↔ key = key')) ∧
    (∀ entry ∈ pool.shared.live.entries, kBacktraceEmptyIndex < entry.2.hashIndex →
      ∃ info, pool.shared.stackTable.frames.lookup entry.2.hashIndex = some info) := by
  have counted : ∀ index, kBacktraceEmptyIndex < index →
      (pool.shared.stackTable.references index : Int) = holders pool index :=
    fun index stack => counted_of_reachable reached stack
  have captures := capturesKnown_of_reachable reached.reachable
  have held : ∀ entry ∈ pool.shared.live.entries, kBacktraceEmptyIndex < entry.2.hashIndex →
      0 < pool.shared.stackTable.references entry.2.hashIndex := fun entry member stack => by
    have positive := holders_pos_of_entry member
    rw [← counted _ stack] at positive
    omega
  refine ⟨fun index stack => ⟨?_, fun info found => ?_⟩, pool.shared.stackTable.inverse, ?_,
    fun entry member stack => (StackTable.references_pos _).1 (held entry member stack)⟩
  · rw [← counted index stack, ← StackTable.references_pos, Int.natCast_pos]
  · rw [← counted index stack, StackTable.references, found, Option.elim_some]
  · intro entry member other otherMember stack otherStack
    have heldEntry := held entry member stack
    have heldOther := held other otherMember otherStack
    obtain ⟨key, keyed⟩ := Option.isSome_iff_exists.1 ((StackTable.keyAt_isSome _).2 heldEntry)
    obtain ⟨key', keyed'⟩ := Option.isSome_iff_exists.1 ((StackTable.keyAt_isSome _).2 heldOther)
    refine ⟨key, key', fun k => ?_, fun k => ?_, fun same => ?_, fun same => ?_⟩
    · rw [captures.known _ heldEntry, keyed, Option.some.injEq, eq_comm]
    · rw [captures.known _ heldOther, keyed', Option.some.injEq, eq_comm]
    · rw [same, keyed'] at keyed
      exact (Option.some.inj keyed).symm
    · exact StackTable.keyAt_inj _ keyed (same ▸ keyed')

end

/-! ### Two runs -/

/-- A thread maps a private page at an address and gets it; the stack is `pc`. -/
def mapPage (t : Option Worker) (addr : Pointer) (flags : UInt32) (pc : Pointer) :
    List (HookEvent Worker) :=
  [.call t (.mmap addr 4096 (0x2 ||| flags) (-1)), .exec t {}, .exec t { pointer := addr },
    .exec t { stack := oneFrame pc }, .exec t {}]

/-- The first thread's `munmap` fails after the second thread has mapped the address anew with
`MAP_FIXED`. -/
def remappedDuringMunmapRun : List (HookEvent Worker) :=
  mapPage (some .one) 0x10000 mapAnonymous 7 ++ [.exec (some .one) {}] ++
    [.call (some .one) (.munmap 0x10000 0), .exec (some .one) {}] ++
    mapPage (some .two) 0x10000 (mapFixed ||| mapAnonymous) 8 ++
    [.exec (some .one) { status := -1 }, .exec (some .one) {}]

/-- Afterwards no call is in flight and nobody holds the second stack, but it is still referenced. -/
theorem restore_leaks_stack :
    ∃ pool, (hooked trackingConfig (Environment.any _)).run
        (hooked trackingConfig (Environment.any _)).init remappedDuringMunmapRun = some pool ∧
      pool.Quiescent ∧ pool.shared.stackTable.references 3 = 1 ∧ holders pool 3 = 0 := by
  obtain ⟨pool, ran, idle, references, entries⟩ : ∃ pool ∈ (hooked trackingConfig (Environment.any _)).run
      (hooked trackingConfig (Environment.any _)).init remappedDuringMunmapRun, (∀ t, pool.todo t = []) ∧
        pool.shared.stackTable.references 3 = 1 ∧ entriesWith 3 pool.shared.live = 0 := by decide +kernel
  have inFlight : pendingTotal (Op.references 3) pool.todo = 0 := by
    simp [pendingTotal, idle]
  exact ⟨pool, ran, idle, references, by rw [holders, entries, inFlight]; rfl⟩

/-- A `munmap` that fails with nobody else at its address. -/
def failedMunmapRun : List (HookEvent Worker) :=
  mapPage (some .one) 0x10000 mapAnonymous 7 ++ [.exec (some .one) {}] ++
    [.call (some .one) (.munmap 0x10000 0), .exec (some .one) {}] ++
    mapPage (some .two) 0x20000 mapAnonymous 7 ++
    [.exec (some .one) { status := -1 }, .exec (some .one) {}]

theorem stack_references_exact_failedMunmapRun :
    ∃ pool, (hooked trackingConfig (Environment.any _)).run
        (hooked trackingConfig (Environment.any _)).init failedMunmapRun = some pool ∧
      pool.shared.stackTable.references 2 = 2 ∧
      ∀ info, pool.shared.stackTable.frames.lookup 2 = some info →
        (info.references : Int) = holders pool 2 := by
  obtain ⟨pool, ran, references⟩ : ∃ pool ∈ (hooked trackingConfig (Environment.any _)).run
      (hooked trackingConfig (Environment.any _)).init failedMunmapRun,
      pool.shared.stackTable.references 2 = 2 := by decide +kernel
  have vacant : (hooked trackingConfig (Environment.any _)).Respects RestoreVacant
      (hooked trackingConfig (Environment.any _)).init failedMunmapRun := by decide +kernel
  have exactly := stack_references_exact (.of_run .init vacant ran)
  exact ⟨pool, ran, references, (exactly.1 2 (by decide)).2⟩

end MallocHook
