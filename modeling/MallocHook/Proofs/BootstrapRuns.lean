/-
Module: MallocHook.Proofs.BootstrapRuns
Purpose: The bootstrap list over whole runs. It holds exactly the live blocks as long as
  `BootstrapRealloc` never replaces a block that was requested with no bytes.
Trusted boundary: none
Main exports: ReallocRight, bootstrap_list_exact_iff
-/
import MallocHook.Proofs.BootstrapList

namespace MallocHook

open List

namespace BootstrapRun

/-- The blocks on the list are the live ones, in the order of the list. -/
structure Holds (run : BootstrapRun) (blocks : List Block) : Prop where
  heap : HeapHolds run.heap blocks
  live : run.live = blocks.map fun block => (block.pointer, block.size)

/-- The list holds exactly the live blocks, each once, `IsBootstrapPointer` tells them from other
addresses, and every call returns. -/
structure Exact (pageSize : Int64) (run : BootstrapRun) : Prop where
  list : ∃ headers, Linked (linkOf run.heap) (toLink run.heap.list) headers ∧ headers.Nodup ∧
    ∀ pointer, pointer ∈ run.live.map Prod.fst ↔ pointer - kHeaderBytes ∈ headers
  answers : ∀ pointer, isBootstrapPointer run.heap pointer = some (decide (pointer ∈ run.live.map Prod.fst))
  returns : ∀ call : BootstrapCall, call.allowed pageSize run → (call.perform pageSize run.heap).isSome

/-- The block at `old` was moved: the bytes both sizes have are at the new place, and it is neither listed
nor mapped. -/
structure Moved (run run' : BootstrapRun) (old oldSize size : UInt64) : Prop where
  bytes : ∀ offset : UInt64, offset.toNat < min oldSize.toNat size.toNat →
    run'.heap.memory (run'.result + offset) = run.heap.memory (old + offset)
  unlisted : isBootstrapPointer run'.heap old = some false
  unmapped : ∀ mapping ∈ run'.heap.mappings, (old - kHeaderBytes).toNat < mapping.1.toNat ∨
    mapping.1.toNat + mapping.2.toNat ≤ (old - kHeaderBytes).toNat

end BootstrapRun

/-- A `BootstrapRealloc` to some bytes leaves everything as it was, or moves the block. -/
def ReallocRight (pageSize : Int64) (memory : ByteMemory) (run : BootstrapRun) (call : BootstrapCall) :
    Prop :=
  ∀ old size answer, call = .realloc old size answer → old ≠ 0 → size ≠ 0 →
    ∀ run', (bootstrapMachine pageSize memory).step run call = some run' →
      (run'.result = 0 → run'.heap = run.heap ∧ run'.live = run.live) ∧
      (run'.result ≠ 0 → ∀ oldSize, (old, oldSize) ∈ run.live → run.Moved run' old oldSize size)

/-- The call moves a block that was requested with no bytes. -/
def ReplacesEmpty (pageSize : Int64) (run : BootstrapRun) : BootstrapCall → Prop
  | .realloc old size answer =>
      size ≠ 0 ∧ (old, 0) ∈ run.live ∧ (bootstrapMalloc pageSize size answer run.heap).pointer ≠ 0
  | _ => False

namespace BootstrapRun.Holds

variable {run : BootstrapRun} {blocks : List Block} {pageSize : Int64} {memory : ByteMemory}

/-- The live pointers are the pointers of the blocks. -/
theorem pointers (holds : run.Holds blocks) : run.live.map Prod.fst = blocks.map Block.pointer := by
  rw [holds.live, map_map]
  rfl

theorem mem_live (holds : run.Holds blocks) {pointer size : UInt64} :
    (pointer, size) ∈ run.live ↔ ∃ block ∈ blocks, block.pointer = pointer ∧ block.size = size := by
  simp [holds.live]

/-- Without the pointer of a block, the others are left. -/
theorem filter_block {front back : List Block} {block : Block} (holds : run.Holds (front ++ block :: back)) :
    (run.live.filter fun other => other.1 != block.pointer) =
      (front ++ back).map fun other => (other.pointer, other.size) := by
  have others : ∀ other ∈ front ++ back, other.pointer ≠ block.pointer := fun other member =>
    (HeapHolds.apart_others holds.heap.apart other member).pointer_ne
  have keeps : ∀ part : List Block, (∀ other ∈ part, other.pointer ≠ block.pointer) →
      ((part.map fun other => (other.pointer, other.size)).filter fun other => other.1 != block.pointer) =
        part.map fun other => (other.pointer, other.size) := fun part apart =>
    filter_eq_self.2 (by simpa using apart)
  rw [holds.live, map_append, map_cons, filter_append, filter_cons_of_neg (by simp),
    keeps front fun other member => others other (mem_append_left _ member),
    keeps back fun other member => others other (mem_append_right _ member), map_append]

/-- Without a pointer that is not of a block, all are left. -/
theorem filter_other (holds : run.Holds blocks) {pointer : UInt64}
    (unknown : pointer ∉ blocks.map Block.pointer) :
    (run.live.filter fun other => other.1 != pointer) = run.live := by
  refine filter_eq_self.2 fun other member => ?_
  rw [bne_iff_ne]
  rintro rfl
  exact unknown (holds.pointers ▸ mem_map_of_mem member)

variable {heap : BootstrapHeap}

/-- A block in front of the list is the newest live one. -/
theorem cons {result : UInt64} (holds : run.Holds blocks) {block : Block}
    (listed : HeapHolds heap (block :: blocks)) :
    Holds { heap := heap, live := (block.pointer, block.size) :: run.live, result := result }
    (block :: blocks) :=
  ⟨listed, by simp [holds.live]⟩

/-! ### One call -/

/-- After an allocation that failed, or that put a block in front of the list. -/
theorem allocated {pointer size : UInt64} (holds : run.Holds blocks) (done : pointer = 0 ∧ heap = run.heap ∨
      ∃ block : Block, block.size = size ∧ pointer = block.pointer ∧ HeapHolds heap (block :: blocks)) :
    ∃ blocks', Holds
      { heap, live := if pointer = 0 then run.live else (pointer, size) :: run.live, result := pointer }
      blocks' := by
  rcases done with ⟨rfl, rfl⟩ | ⟨block, rfl, rfl, listed⟩
  · exact ⟨blocks, holds.heap, by rw [if_pos rfl]; exact holds.live⟩
  · rw [if_neg block.pointer_ne_zero]
    exact ⟨_, holds.cons listed⟩

variable {answer : Option UInt64}

section

variable (holds : run.Holds blocks)
include holds

theorem alignedMalloc {alignment size : UInt64}
    (may : mayAnswer pageSize run.heap.mappings alignment size answer) :
    let returned := bootstrapAlignedMalloc pageSize alignment size answer run.heap
    ∃ blocks', Holds
      { heap := returned.heap
        live := if returned.pointer = 0 then run.live else (returned.pointer, size) :: run.live
        result := returned.pointer }
      blocks' := by
  refine holds.allocated ?_
  obtain failed | ⟨block, isSize, apart, pointer, pushed⟩ := holds.heap.alignedMalloc_cases may
  · exact .inl failed
  · refine .inr ⟨block, isSize, pointer, ?_⟩
    rw [pushed]
    exact holds.heap.push apart

theorem free (old result : UInt64) :
    ∃ heap', bootstrapFree old run.heap = some heap' ∧
      ∃ blocks', Holds { heap := heap', live := run.live.filter fun other => other.1 != old, result }
        blocks' := by
  by_cases listed : old ∈ blocks.map Block.pointer
  · obtain ⟨block, member, rfl⟩ := mem_map.1 listed
    obtain ⟨front, back, rfl⟩ := append_of_mem member
    obtain ⟨heap', freed, holds', _⟩ := holds.heap.free
    exact ⟨heap', freed, front ++ back, holds', holds.filter_block⟩
  · exact ⟨run.heap, holds.heap.free_other listed, blocks,
      holds.heap, by rw [← holds.live]; exact holds.filter_other listed⟩

/-- A store outside the headers. -/
theorem store {address : UInt64} {value : UInt8}
    (outside : (BootstrapCall.store address value).allowed pageSize run) :
    Holds { run with heap := { run.heap with memory := run.heap.memory.fill address 1 value }, result := 0 }
      blocks := by
  refine ⟨holds.heap.congr fun block member => fun other above below => ?_, holds.live⟩
  refine ByteMemory.fill_writesOnly run.heap.memory address 1 value other fun here => ?_
  have same : other = address := sub_eq_zero.1 (UInt64.toNat_inj.1 (Nat.lt_one_iff.1 here))
  have live := holds.mem_live.2 ⟨block, member, rfl, rfl⟩
  have apart := all_eq_true.1 outside _ live
  have inside : (address - block.header).toNat < 48 := by
    have below := block.toNat_header
    rw [ByteMemory.offset_lt_iff (by have := block.pointer.toNat_lt; omega), ← same]
    omega
  simp only [Bool.not_eq_true', decide_eq_false_iff_not] at apart
  exact apart inside

/-- `BootstrapRealloc` of a pointer to some bytes. -/
theorem realloc {old size : UInt64} (may : mayAnswer pageSize run.heap.mappings kMaxAlign size answer)
    (nonnull : old ≠ 0) (nonempty : size ≠ 0) :
    ∃ returned, bootstrapRealloc pageSize old size answer run.heap = some returned ∧
      returned.pointer = (bootstrapMalloc pageSize size answer run.heap).pointer ∧
      (returned.pointer = 0 → returned.heap = run.heap) ∧
      (ReplacesEmpty pageSize run (.realloc old size answer) →
        isBootstrapPointer returned.heap old = some true ∧ old ≠ returned.pointer) ∧
      (¬ReplacesEmpty pageSize run (.realloc old size answer) →
        let run' : BootstrapRun :=
          { heap := returned.heap
            live := (BootstrapCall.realloc old size answer).liveAfter run.live returned.pointer
            result := returned.pointer }
        (∃ blocks', run'.Holds blocks') ∧
          (returned.pointer ≠ 0 → ∀ oldSize, (old, oldSize) ∈ run.live →
            run.Moved run' old oldSize size)) := by
  obtain ⟨returned, performed, samePointer, done⟩ := holds.heap.realloc_cases may nonnull nonempty
  refine ⟨returned, performed, samePointer, ?_⟩
  simp only [BootstrapCall.liveAfter, nonempty, and_false, if_false]
  rcases done with ⟨failed, unchanged⟩ |
    ⟨new, rfl, pointer, apart, stays | ⟨front, block, back, rfl, rfl, hasBytes, listed, bytes⟩⟩
  · -- the allocation failed
    refine ⟨fun _ => unchanged, fun ⟨_, _, succeeded⟩ => absurd (samePointer ▸ failed) succeeded,
      fun _ => ⟨⟨blocks, ?_⟩, absurd failed⟩⟩
    rw [if_pos failed, unchanged]
    exact ⟨holds.heap, holds.live⟩
  · -- nothing was freed
    obtain ⟨empty, listed⟩ := stays
    have succeeded : returned.pointer ≠ 0 := pointer ▸ new.pointer_ne_zero
    refine ⟨fun failed => absurd failed succeeded, fun ⟨_, live, _⟩ => ?_, fun harmless => ?_⟩
    · obtain ⟨block, member, rfl, _⟩ := holds.mem_live.1 live
      refine ⟨?_, pointer ▸ (apart block member).pointer_ne.symm⟩
      rw [listed.isBootstrapPointer_eq, decide_eq_true (mem_map_of_mem (mem_cons_of_mem _ member))]
    · have unknown : old ∉ blocks.map Block.pointer := by
        intro known
        obtain ⟨block, member, rfl⟩ := mem_map.1 known
        exact harmless ⟨nonempty, holds.mem_live.2 ⟨block, member, rfl, empty block member rfl⟩,
          samePointer ▸ succeeded⟩
      refine ⟨⟨new :: blocks, ?_⟩, fun _ oldSize live => ?_⟩
      · rw [if_neg succeeded, holds.filter_other unknown, pointer]
        exact holds.cons listed
      · obtain ⟨block, member, same, _⟩ := holds.mem_live.1 live
        exact absurd (mem_map.2 ⟨block, member, same⟩) unknown
  · -- the block was moved
    have succeeded : returned.pointer ≠ 0 := pointer ▸ new.pointer_ne_zero
    have others := HeapHolds.apart_others holds.heap.apart
    have isOnly : ∀ oldSize, (block.pointer, oldSize) ∈ run.live → oldSize = block.size := by
      intro oldSize live
      obtain ⟨other, member, same, rfl⟩ := holds.mem_live.1 live
      rcases HeapHolds.eq_or_apart holds.heap.apart member
        (mem_append_right _ mem_cons_self) with rfl | apart
      · rfl
      · exact absurd same apart.pointer_ne
    refine ⟨fun failed => absurd failed succeeded, fun ⟨_, live, _⟩ => absurd (isOnly 0 live).symm hasBytes,
      fun _ => ⟨⟨_, listed, ?_⟩, fun _ oldSize live => ?_⟩⟩
    · rw [if_neg succeeded, holds.filter_block, pointer]
      rfl
    · obtain rfl := isOnly oldSize live
      have apartNew := apart block (mem_append_right _ mem_cons_self)
      have apartAll : ∀ other ∈ new :: (front ++ back), other.Apart block := by
        intro other member
        rcases mem_cons.1 member with rfl | member
        · exact apartNew
        · exact others other member
      refine ⟨fun offset small => pointer ▸ bytes offset small, ?_, fun mapping mapped => ?_⟩
      · rw [listed.isBootstrapPointer_eq, decide_eq_false]
        intro known
        obtain ⟨other, member, same⟩ := mem_map.1 known
        exact (apartAll other member).pointer_ne same
      · rw [listed.mappings] at mapped
        obtain ⟨other, member, rfl⟩ := mem_map.1 mapped
        exact (apartAll other member).outside_mapping

end

theorem perform_realloc {old size : UInt64} {returned : Returned}
    (performed : bootstrapRealloc pageSize old size answer heap = some returned) :
    (BootstrapCall.realloc old size answer).perform pageSize heap =
    some (returned.pointer, returned.heap) := by
  rw [BootstrapCall.perform, performed, Option.map_some]

/-- Every call returns, and one that moves no empty block leaves a list of exactly the live blocks. -/
theorem perform (holds : run.Holds blocks) {call : BootstrapCall} (allowed : call.allowed pageSize run) :
    ∃ done, call.perform pageSize run.heap = some done ∧
      (¬ReplacesEmpty pageSize run call →
        ∃ blocks', Holds { heap := done.2, live := call.liveAfter run.live done.1, result := done.1 }
          blocks') := by
  cases call with
  | malloc size answer => exact ⟨_, rfl, fun _ => holds.alignedMalloc allowed⟩
  | alignedMalloc alignment size answer => exact ⟨_, rfl, fun _ => holds.alignedMalloc allowed⟩
  | calloc nmemb size answer => exact ⟨_, rfl, fun _ => holds.allocated (holds.heap.calloc_cases allowed)⟩
  | free old =>
      obtain ⟨heap', freed, after⟩ := holds.free old 0
      exact ⟨(0, heap'), congrArg (Option.map _) freed, fun _ => after⟩
  | store address value => exact ⟨_, rfl, fun _ => ⟨blocks, holds.store allowed⟩⟩
  | realloc old size answer =>
      rcases eq_or_ne old 0 with rfl | nonnull
      · -- a null pointer: the function is BootstrapMalloc, and no live block has this pointer
        have unknown : 0 ∉ blocks.map Block.pointer := by
          intro known
          obtain ⟨block, _, same⟩ := mem_map.1 known
          exact block.pointer_ne_zero same
        have performed : bootstrapRealloc pageSize 0 size answer run.heap =
            some (bootstrapMalloc pageSize size answer run.heap) := by rw [bootstrapRealloc, if_pos rfl]
        refine ⟨_, perform_realloc performed, fun _ => ?_⟩
        simp only [BootstrapCall.liveAfter, ne_eq, not_true_eq_false, false_and, if_false]
        rw [holds.filter_other unknown]
        exact holds.alignedMalloc allowed
      by_cases isEmpty : size = 0
      · -- no bytes: the function is BootstrapFree
        obtain ⟨heap', freed, after⟩ := holds.free old 0
        have performed : bootstrapRealloc pageSize old size answer run.heap = some ⟨0, none, heap'⟩ := by
          rw [bootstrapRealloc, if_neg nonnull, if_pos isEmpty, freed]
          rfl
        refine ⟨_, perform_realloc performed, fun _ => ?_⟩
        simp only [BootstrapCall.liveAfter, ne_eq, nonnull, not_false_eq_true, isEmpty, and_self, if_true]
        exact after
      · obtain ⟨returned, performed, _, _, _, kept⟩ := holds.realloc allowed nonnull isEmpty
        exact ⟨_, perform_realloc performed, fun harmless => (kept harmless).1⟩

/-- The list and the lookups of a run in which the list holds the live blocks. -/
theorem exact (holds : run.Holds blocks) : run.Exact pageSize where
  list := by
    refine ⟨blocks.map Block.header, holds.heap.linked, holds.heap.linked.nodup, fun pointer => ?_⟩
    rw [holds.pointers, mem_map, mem_map]
    exact exists_congr fun block => and_congr_right fun _ => (sub_left_inj).symm
  answers pointer := by rw [holds.pointers, holds.heap.isBootstrapPointer_eq]
  returns call allowed := by
    obtain ⟨done, performed, _⟩ := holds.perform allowed
    rw [performed]
    rfl

end BootstrapRun.Holds

/-! ### Runs -/

section

variable {pageSize : Int64} {memory : ByteMemory} {run run' : BootstrapRun} {call : BootstrapCall}

/-- What a step of the machine is. -/
theorem bootstrapMachine_step (stepped : (bootstrapMachine pageSize memory).step run call = some run') :
    call.allowed pageSize run ∧ ∃ done, call.perform pageSize run.heap = some done ∧
      run' = { heap := done.2, live := call.liveAfter run.live done.1, result := done.1 } := by
  obtain ⟨allowed, stepped⟩ := Option.ite_none_right_eq_some.1 stepped
  obtain ⟨done, performed, same⟩ := Option.map_eq_some_iff.1 stepped
  exact ⟨allowed, done, performed, same.symm⟩

section

variable (holds : ∃ blocks, run.Holds blocks)
include holds

/-- Steps that move no block with no bytes keep the list. -/
theorem bootstrapMachine_holds (harmless : ¬ReplacesEmpty pageSize run call)
    (stepped : (bootstrapMachine pageSize memory).step run call = some run') :
    ∃ blocks, run'.Holds blocks := by
  obtain ⟨blocks, holds⟩ := holds
  obtain ⟨allowed, done, performed, rfl⟩ := bootstrapMachine_step stepped
  obtain ⟨done', performed', kept⟩ := holds.perform allowed
  obtain rfl : done = done' := Option.some.inj (performed.symm.trans performed')
  exact kept harmless

/-- A step that moves one leaves it on the list. -/
theorem bootstrapMachine_harmless (stepped : (bootstrapMachine pageSize memory).step run call = some run')
    (exact : run'.Exact pageSize) : ¬ReplacesEmpty pageSize run call := by
  obtain ⟨blocks, holds⟩ := holds
  obtain ⟨allowed, done, performed, rfl⟩ := bootstrapMachine_step stepped
  intro replaces
  cases call with
  | realloc old size answer =>
      obtain ⟨nonempty, live, succeeded⟩ := id replaces
      have nonnull : old ≠ 0 := by
        obtain ⟨block, _, rfl, _⟩ := holds.mem_live.1 live
        exact block.pointer_ne_zero
      obtain ⟨returned, performed', samePointer, _, listed, _⟩ := holds.realloc allowed nonnull nonempty
      obtain ⟨known, differs⟩ := listed replaces
      obtain rfl := Option.some.inj ((BootstrapRun.Holds.perform_realloc performed').symm.trans performed)
      have answers := exact.answers old
      rw [show isBootstrapPointer _ old = some true from known] at answers
      have stillLive := of_decide_eq_true (Option.some.inj answers).symm
      simp only [BootstrapCall.liveAfter, nonempty, and_false, if_false, samePointer, succeeded] at stillLive
      simp [← samePointer, differs] at stillLive
  | _ => exact replaces

/-- A `realloc` that moves no block with no bytes does what it should. -/
theorem reallocRight_of_harmless (harmless : ¬ReplacesEmpty pageSize run call) :
    ReallocRight pageSize memory run call := by
  rintro old size answer rfl nonnull nonempty run' stepped
  obtain ⟨blocks, holds⟩ := holds
  obtain ⟨allowed, done, performed, rfl⟩ := bootstrapMachine_step stepped
  obtain ⟨returned, performed', _, unchanged, _, kept⟩ := holds.realloc allowed nonnull nonempty
  obtain rfl := Option.some.inj ((BootstrapRun.Holds.perform_realloc performed').symm.trans performed)
  refine ⟨fun failed => ⟨unchanged failed, ?_⟩, (kept harmless).2⟩
  simp only [BootstrapCall.liveAfter, nonempty, and_false, if_false,
    show returned.pointer = 0 from failed, if_true]

end

/-- Over any run, the list holds exactly the live blocks, `IsBootstrapPointer` answers accordingly, and
every `BootstrapRealloc` does what it should, if and only if none moves a block that was requested with no
bytes. -/
theorem bootstrap_list_exact_iff (pageSize : Int64) (memory : ByteMemory) (schedule : List BootstrapCall) :
    let bootstrap := bootstrapMachine pageSize memory
    (bootstrap.Along (BootstrapRun.Exact pageSize) bootstrap.init schedule ∧
        bootstrap.Respects (ReallocRight pageSize memory) bootstrap.init schedule) ↔
      bootstrap.Respects (fun run call => ¬ReplacesEmpty pageSize run call) bootstrap.init schedule := by
  intro bootstrap
  have initial : ∃ blocks, bootstrap.init.Holds blocks := ⟨[], ⟨.stop, by simp, .nil, rfl⟩, rfl⟩
  have exactly : bootstrap.Along (BootstrapRun.Exact pageSize) bootstrap.init schedule ↔
      bootstrap.Respects (fun run call => ¬ReplacesEmpty pageSize run call) bootstrap.init schedule :=
    Machine.along_iff_respects_of (fun ⟨_, holds⟩ => holds.exact) bootstrapMachine_holds
      bootstrapMachine_harmless
      schedule initial
  refine ⟨fun ⟨along, _⟩ => exactly.1 along, fun harmless => ⟨exactly.2 harmless, ?_⟩⟩
  exact harmless.imp bootstrapMachine_holds (fun holds harmless _ =>
    reallocRight_of_harmless holds harmless) initial

/-- A block of no bytes, moved to a block of sixteen. -/
def growEmptyBlock : List BootstrapCall :=
  [.malloc 0 (some 0x10000), .realloc 0x10030 16 (some 0x20000)]

/-- The old block is no longer live, but still on the list. -/
theorem bootstrap_list_growEmptyBlock :
    ∃ run, (bootstrapMachine 4096 fun _ => 0).run (bootstrapMachine 4096 fun _ => 0).init
    growEmptyBlock = some run ∧
      run.result = 0x20030 ∧ run.live = [(0x20030, 16)] ∧ isBootstrapPointer run.heap 0x10030 = some true ∧
      ¬run.Exact 4096 := by
  obtain ⟨run, ran, result, live, listed⟩ : ∃ run ∈ (bootstrapMachine 4096 fun _ => 0).run
      (bootstrapMachine 4096 fun _ => 0).init growEmptyBlock, run.result = 0x20030 ∧
        run.live = [(0x20030, 16)] ∧
        isBootstrapPointer run.heap 0x10030 = some true := by decide +kernel
  refine ⟨run, ran, result, live, listed, fun exact => ?_⟩
  have answers := exact.answers 0x10030
  rw [listed, live] at answers
  exact absurd answers (by decide)

end

end MallocHook
