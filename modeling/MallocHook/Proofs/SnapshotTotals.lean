/-
Module: MallocHook.Proofs.SnapshotTotals
Purpose: What a retained peak snapshot adds up to, while the counters are exact and sizes stay below the
  bit that `RealSize` drops.
Trusted boundary: none
Main exports: sum_getUniqueList, snapshot_conserved
-/
import MallocHook.Proofs.ReportTotals
import MallocHook.Proofs.StackReferences

namespace MallocHook

open List

/-! ### Merging loses nothing -/

/-- Whatever is counted once per allocation of a size, merging neighbours does not change it. -/
theorem sum_mergeRows (weight : Nat → Nat) (rows : List ListInfo) :
    ((mergeRows rows).map fun row => weight row.size * row.numAllocations).sum =
      (rows.map fun row => weight row.size * row.numAllocations).sum := by
  induction rows with
  | nil => rfl
  | cons row rest ih =>
      rw [map_cons, sum_cons, ← ih, mergeRows]
      cases mergeRows rest with
      | nil => rfl
      | cons next others =>
          dsimp only
          split
          · next same =>
              have sizes : row.size = next.size := by simp_all
              simp only [map_cons, sum_cons, sizes, Nat.mul_add, Nat.add_assoc]
          · rfl

/-- The entries a snapshot leaves out. -/
def LiveTable.stackless (live : LiveTable) : List (Pointer × PointerInfo) :=
  live.entries.filter fun entry => decide (entry.2.hashIndex ≤ kBacktraceEmptyIndex)

/-- The rows and the omitted entries together count every entry. -/
theorem sum_getUniqueList (weight : Nat → Nat) (live : LiveTable) (stackTable : StackTable) :
    ((getUniqueList live stackTable true).map fun row => weight row.size * row.numAllocations).sum +
        (live.stackless.map fun entry => weight entry.2.realSize).sum =
      (live.entries.map fun entry => weight entry.2.realSize).sum := by
  have omitted : ∀ info : PointerInfo, omits true info = decide (info.hashIndex ≤ kBacktraceEmptyIndex) :=
    fun info => Bool.and_true _
  rw [getUniqueList, sum_mergeRows, LiveTable.stackless,
    ← sum_filter_add_sum_omitted (fun info => weight info.realSize) (omits true) live.entries]
  simp only [getList, omitted]
  rw [((perm_insertionSort _ _).map _).sum_eq, map_map]
  simp only [Function.comp_def, listRow, Nat.mul_one]

/-- What a retained snapshot holds. -/
theorem takePeakSnapshotLocked_retained {config : Config} {live : LiveTable} {stackTable : StackTable}
    {source : PeakSnapshotSource} {observed : Option ObservedMemSample} {proc : Option PeakProcContext}
    {nowUs : Nat} {peak peak' : PeakState}
    (taken : takePeakSnapshotLocked config live stackTable source observed proc nowUs peak = (true, peak')) :
    peak'.peakList = getUniqueList live stackTable true ∧ peak'.peakListHost = live.currentHost ∧
      peak'.peakListDma = live.currentDma ∧ peak'.peakListTot = live.currentUsed ∧
      peak'.peakLivePointers = live.entries.length := by
  unfold takePeakSnapshotLocked at taken
  dsimp only at taken
  split at taken <;> cases taken
  obtain ⟨-, members, -⟩ := PeakState.retain_members peak config live stackTable
    (getUniqueList live stackTable true) source observed proc nowUs
  simp only [PeakState.retained, Prod.mk.injEq] at members
  exact ⟨members.1, members.2.1, members.2.2.1, members.2.2.2.1, rfl⟩

/-! ### Interleaved calls -/

section

variable {P : LiveTable → Prop}
  {τ ε : Type*} [DecidableEq τ] {config : Config} {env : Environment (Option τ) ε}
  {pool pool' : HookPool τ ε} {event : HookEvent τ}

theorem kept_step (kept : KeptBySections P) (holds : P pool.shared.live) (vacant : RestoreVacant pool event)
    (stepped : (hooked config env).step pool event = some pool') : P pool'.shared.live := by
  rcases Code.step_call_or_exec stepped with
    ⟨t, request, ops, -, idle, started, rfl⟩ | ⟨t, answer, op, rest, hook', next, rfl,
      pending, executed, rfl⟩
  · exact holds
  · refine kept_execOp kept holds ?_ executed
    rintro pointer info rfl
    exact vacant pointer (by rw [pending]; rfl)

/-- While no record is restored over another one, the table has in every interleaving what its sections
keep. -/
theorem kept_of_hooked (kept : KeptBySections P)
    (reached : (hooked config env).ReachableBy RestoreVacant pool) : P pool.shared.live :=
  reached.invariant (P := fun pool => P pool.shared.live) kept.empty fun holds vacant stepped =>
    kept_step kept holds vacant stepped

/-- In every state that hooked calls reach while no record is restored over another one, with sizes below
2^31: the rows of a snapshot and the entries without a stack add up to its total, which is the sum of its
host and DMA parts. -/
theorem snapshot_conserved (reached : (hooked config env).ReachableBy RestoreVacant pool)
    (small : ∀ entry ∈ pool.shared.live.entries, entry.2.size < 2 ^ 31) (source : PeakSnapshotSource)
    (observed : Option ObservedMemSample) (proc : Option PeakProcContext) (nowUs : Nat)
    (peak peak' : PeakState)
    (taken : takePeakSnapshotLocked config pool.shared.live pool.shared.stackTable source observed proc
      nowUs peak = (true, peak')) :
    (((peak'.peakList.map fun row => row.size * row.numAllocations).sum +
        (pool.shared.live.stackless.map fun entry => entry.2.size).sum : Nat) : Int) = peak'.peakListTot ∧
      peak'.peakListTot = peak'.peakListHost + peak'.peakListDma ∧
      (peak'.peakList.map ListInfo.numAllocations).sum + pool.shared.live.stackless.length =
        peak'.peakLivePointers := by
  have accounted := kept_of_hooked keptBySections_accounted reached
  obtain ⟨list, host, dma, tot, pointers⟩ := takePeakSnapshotLocked_retained taken
  rw [list, host, dma, tot, pointers]
  have sizes : ∀ entry ∈ pool.shared.live.entries, entry.2.realSize = entry.2.size := fun entry member =>
    PointerInfo.realSize_eq_size.2 (Nat.le_pred_of_lt (small entry member))
  refine ⟨?_, accounted.used_eq_host_add_dma, ?_⟩
  · have sum := sum_getUniqueList id pool.shared.live pool.shared.stackTable
    simp only [id] at sum
    have omitted : pool.shared.live.stackless.map (fun entry => entry.2.realSize) =
        pool.shared.live.stackless.map fun entry => entry.2.size :=
      map_congr_left fun entry member => sizes entry (mem_of_mem_filter member)
    rw [omitted, map_congr_left sizes] at sum
    rw [sum, accounted.used_eq_sum, Nat.cast_list_sum, map_map]
    rfl
  · have count := sum_getUniqueList (fun _ => 1) pool.shared.live pool.shared.stackTable
    simpa using count

end

/-! ### Two runs -/

/-- What a snapshot after a run lists and omits, its total, and how many allocations it counts. -/
def snapshotAfter (run : List (HookEvent Worker)) : Option (Nat × Nat × Int × Nat × Nat) :=
  ((hooked trackingConfig (Environment.any _)).run (hooked trackingConfig (Environment.any _)).init run).map
    fun pool =>
      let peak := (takePeakSnapshotLocked trackingConfig pool.shared.live
        pool.shared.stackTable .tracked none
        none 0 pool.shared.peak).2
      ((peak.peakList.map fun row => row.size * row.numAllocations).sum,
        (pool.shared.live.stackless.map fun entry => entry.2.size).sum, peak.peakListTot,
        (peak.peakList.map ListInfo.numAllocations).sum, peak.peakLivePointers)

/-- After a record was restored over a newer one, a snapshot lists one page of 4096 bytes and gives the
total as 8192. -/
theorem snapshot_counts_twice : snapshotAfter remappedDuringMunmapRun = some (4096, 0, 8192, 1, 1) := by
  decide +kernel

/-- After a failed `munmap` with nobody else at its address, the two pages add up. -/
theorem snapshot_conserved_failedMunmapRun :
    ∃ pool peak', (hooked trackingConfig (Environment.any _)).run
        (hooked trackingConfig (Environment.any _)).init failedMunmapRun = some pool ∧
      takePeakSnapshotLocked trackingConfig pool.shared.live pool.shared.stackTable .tracked none none 0
        pool.shared.peak = (true, peak') ∧
      (((peak'.peakList.map fun row => row.size * row.numAllocations).sum +
        (pool.shared.live.stackless.map fun entry => entry.2.size).sum : Nat) : Int) =
          peak'.peakListTot := by
  obtain ⟨pool, ran, small, retained⟩ : ∃ pool ∈ (hooked trackingConfig (Environment.any _)).run
      (hooked trackingConfig (Environment.any _)).init failedMunmapRun,
      (∀ entry ∈ pool.shared.live.entries, entry.2.size < 2 ^ 31) ∧ (takePeakSnapshotLocked trackingConfig
        pool.shared.live pool.shared.stackTable .tracked none none 0 pool.shared.peak).1 =
          true := by decide +kernel
  have vacant : (hooked trackingConfig (Environment.any _)).Respects RestoreVacant
      (hooked trackingConfig (Environment.any _)).init failedMunmapRun := by decide +kernel
  refine ⟨pool, _, ran, Prod.ext retained rfl, ?_⟩
  exact (snapshot_conserved (.of_run .init vacant ran) small .tracked none none 0 pool.shared.peak _
    (Prod.ext retained rfl)).1

end MallocHook
