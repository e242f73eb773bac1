/-
Module: MallocHook.Proofs.ReportTotals
Purpose: Whether the rows of a report add up to the counters: exactly while no live entry is larger than
  `MaxSize`.
Trusted boundary: none
Main exports: LengthsFit, SizesFit, report_adds_up
-/
import MallocHook.Core.SerialHook
import MallocHook.Proofs.Accounting

namespace MallocHook

open Option LiveTable

/-! ### Rows and counters -/

/-- What a report with stacks only says about the live bytes: the listed ones and the omitted ones. -/
def reportedBytes (live : LiveTable) (stackTable : StackTable) (pred : ListInfo → ListInfo → Bool) : Int :=
  let report := getList live stackTable true pred
  (report.1.map fun row => (row.size : Int)).sum + report.2.bytes

theorem sum_realSize_eq_iff (entries : List (Pointer × PointerInfo)) :
    (entries.map fun entry => (entry.2.realSize : Int)).sum =
        (entries.map fun entry => (entry.2.size : Int)).sum ↔
      ∀ entry ∈ entries, entry.2.size ≤ PointerInfo.maxSize := by
  have below : ∀ entries : List (Pointer × PointerInfo),
      (entries.map fun entry => (entry.2.realSize : Int)).sum ≤
        (entries.map fun entry => (entry.2.size : Int)).sum := fun entries =>
    List.sum_le_sum fun entry _ => Int.ofNat_le.2 entry.2.realSize_le
  induction entries with
  | nil => simp
  | cons entry rest ih =>
      have here := entry.2.realSize_le
      have later := below rest
      simp only [List.map_cons, List.sum_cons, List.forall_mem_cons]
      constructor
      · intro same
        exact ⟨PointerInfo.realSize_eq_size.1 (by omega), ih.1 (by omega)⟩
      · rintro ⟨hereFits, laterFits⟩
        rw [PointerInfo.realSize_eq_size.2 hereFits, ih.2 laterFits]

/-- With exact counters, a report adds up to them exactly when no live entry is above `MaxSize`. -/
theorem reported_eq_counters_iff {live : LiveTable} (accounted : Accounted live)
    (stackTable : StackTable) (pred : ListInfo → ListInfo → Bool) :
    reportedBytes live stackTable pred = live.currentHost + live.currentDma ↔
      ∀ entry ∈ live.entries, entry.2.size ≤ PointerInfo.maxSize := by
  have reported : reportedBytes live stackTable pred =
      (live.entries.map fun entry => (entry.2.realSize : Int)).sum := by
    have sizes := congrArg (Nat.cast : Nat → Int) (getList_sizes_add_omitted live stackTable true pred)
    simpa [reportedBytes, Nat.cast_list_sum, Function.comp_def] using sizes
  rw [reported, ← accounted.used_eq_host_add_dma, accounted.used_eq_sum, sum_realSize_eq_iff]

variable {τ ε : Type*} [DecidableEq τ] {config : Config} {env : Environment (Option τ) ε}

/-- Every section keeps the counters exact. -/
theorem keptBySections_accounted : KeptBySections Accounted where
  empty := Accounted.empty
  takeEntry pointer accounted := accounted.takeEntry pointer
  addSection pointer trackedSize hashIndex type now accounted :=
    accounted.addSection pointer trackedSize hashIndex type now
  rekey newPointer newSize found accounted := accounted.rekey found newPointer newSize
  restoreEntry info vacant accounted := accounted.restoreEntry info vacant

/-- Calls that run one after the other keep the counters exact. -/
theorem accounted_of_serial {ok : Hook (Option τ) ε → HookCall τ → Prop} {hook : Hook (Option τ) ε}
    (reached : (serialHook config env).ReachableBy ok hook) : Accounted hook.live :=
  kept_of_reachable keptBySections_accounted reached

/-! ### Runs without oversized lengths -/

/-- `MaxSize`, as a condition on a size. -/
def Fits (size : Nat) : Prop := size ≤ PointerInfo.maxSize

instance (size : Nat) : Decidable (Fits size) := inferInstanceAs (Decidable (_ ≤ _))

/-- The lengths a driver and the kernel report are at most `MaxSize`. -/
def Answer.LengthsFit (answer : Answer) : Prop :=
  (∀ arg ∈ answer.arg, Fits arg.len.toNat) ∧ ∀ size ∈ answer.fdinfo, Fits size

instance (answer : Answer) : Decidable answer.LengthsFit :=
  @instDecidableAnd _ _ (Option.decidableForallMem _) (Option.decidableForallMem _)

/-- A `calloc` is for at most `MaxSize` bytes, and so is every buffer a call is told about. -/
def LengthsFit {τ : Type*} (call : HookCall τ) : Prop :=
  (match call.request with
    | .calloc nmemb bytes => Fits (nmemb * bytes)
    | _ => True) ∧
    ∀ answer ∈ call.answers, answer.LengthsFit

instance {τ : Type*} (call : HookCall τ) : Decidable (LengthsFit call) := by
  obtain ⟨t, request, answers⟩ := call
  induction request using Request.casesOn <;> unfold LengthsFit <;> infer_instance

open Ledger (AllValues)

/-- No descriptor is registered, and no legacy allocation kept, with more than `MaxSize` bytes. -/
structure DmaRegistry.SizesFit (registry : DmaRegistry) : Prop where
  fds : AllValues (fun info => Fits info.size) registry.dmaFds
  ions : AllValues Fits registry.pendingIonAllocations

namespace DmaRegistry.SizesFit

variable {registry : DmaRegistry} (fit : registry.SizesFit)
include fit

theorem registerDmaFd (fd : Fd) {size : Nat} (fits : Fits size) :
    (registry.registerDmaFd fd size).2.SizesFit := by
  unfold DmaRegistry.registerDmaFd
  split
  · exact fit
  · split <;> exact ⟨fit.fds.insert fd fits, fit.ions⟩

theorem markDmaFdTracked (fd : Fd) : (registry.markDmaFdTracked fd).SizesFit := by
  unfold DmaRegistry.markDmaFdTracked
  split
  · exact fit
  · next info held => exact ⟨fit.fds.insert fd (fit.fds fd info held), fit.ions⟩

theorem takeDmaFd (fd : Fd) : (registry.takeDmaFd fd).2.SizesFit := by
  unfold DmaRegistry.takeDmaFd
  split
  · exact fit
  · exact ⟨fit.fds.erase fd, fit.ions⟩

theorem dropIonAllocationsForFd (fd : Fd) : (registry.dropIonAllocationsForFd fd).SizesFit :=
  ⟨fit.fds, fit.ions.foldl_erase _⟩

theorem lookupIonAllocation (ionFd : Fd) (handle : Int32) :
    Fits (registry.lookupIonAllocation ionFd handle) := by
  unfold DmaRegistry.lookupIonAllocation
  cases held : registry.pendingIonAllocations.lookup (ionHandleKey ionFd handle) with
  | none => exact Nat.zero_le _
  | some size => exact fit.ions _ size held

theorem isDmaBuf {fd : Fd} {fdinfo : Option Nat} {size : Nat} (reported : ∀ size ∈ fdinfo, Fits size)
    (found : registry.isDmaBuf fd fdinfo = some size) : Fits size := by
  unfold DmaRegistry.isDmaBuf at found
  split at found
  · next info held =>
      cases found
      exact fit.fds fd info held
  · exact reported size (eq_some_of_filter_eq_some found)

theorem handleIonIoctl (ionFd : Fd) (request : UInt32) {arg : Option IoctlArg}
    (lengths : ∀ given ∈ arg, Fits given.len.toNat) :
    (registry.handleIonIoctl ionFd request arg).2.SizesFit ∧
      ∀ node ∈ (registry.handleIonIoctl ionFd request arg).1, Fits node.2 := by
  unfold DmaRegistry.handleIonIoctl
  cases arg with
  | none => exact ⟨fit, by simp⟩
  | some arg =>
      have length : Fits arg.len.toNat := lengths arg rfl
      have pending := fit.lookupIonAllocation ionFd arg.handle
      simp only
      split_ifs
      all_goals simp only [mem_def, Option.some.injEq, forall_eq', reduceCtorEq, false_imp_iff,
        implies_true, and_true, length, pending, fit]
      -- A legacy allocation is recorded with its length, or dropped.
      · unfold recordIonAllocation
        split
        · exact fit
        · exact ⟨fit.fds, fit.ions.insert _ length⟩
      · exact ⟨fit.fds, fit.ions.erase _⟩

theorem handleDmaNode (request : UInt32) {arg : Option IoctlArg} {fdinfo : Option Nat}
    (lengths : ∀ given ∈ arg, Fits given.len.toNat) (reported : ∀ size ∈ fdinfo, Fits size) :
    ∀ node ∈ registry.handleDmaNode request arg fdinfo, Fits node.2 := by
  intro node found
  rw [DmaRegistry.handleDmaNode, mem_def] at found
  split_ifs at found
  · obtain ⟨given, isGiven, found⟩ := bind_eq_some_iff.1 found
    split_ifs at found
    cases found
    exact lengths given isGiven
  · obtain ⟨given, -, found⟩ := bind_eq_some_iff.1 found
    obtain ⟨size, isBuf, rfl⟩ := map_eq_some_iff.1 found
    exact fit.isDmaBuf reported isBuf

theorem shouldTrackDmaMapping (fd : Fd) (mapShared : Bool) {fdinfo : Option Nat}
    (reported : ∀ size ∈ fdinfo, Fits size) :
    (registry.shouldTrackDmaMapping fd mapShared fdinfo).2.SizesFit ∧
      ∀ size ∈ (registry.shouldTrackDmaMapping fd mapShared fdinfo).1, Fits size := by
  unfold DmaRegistry.shouldTrackDmaMapping
  split
  · exact ⟨fit, by simp⟩
  split
  · next info held =>
      refine ⟨fit, ?_⟩
      split
      · simp
      · simpa using fit.fds fd info held
  · split
    · exact ⟨fit, by simp⟩
    · next size found =>
        have fits := fit.isDmaBuf reported found
        refine ⟨fit.registerDmaFd fd fits, ?_⟩
        simp only
        split
        · simpa using fits
        · simp

end DmaRegistry.SizesFit

/-- Every size the operation carries is at most `MaxSize`. -/
def Op.Fits {θ : Type*} : Op θ → Prop
  | .frame (.addBacktrace _ _ trackedSize _) => MallocHook.Fits trackedSize
  | .shard (.addEntry _ trackedSize _ _) => MallocHook.Fits trackedSize
  | .shard (.reallocTake _ bytes) => MallocHook.Fits bytes
  | .shard (.restoreEntry _ info) => MallocHook.Fits info.size
  | .system (.alloc _ size) => MallocHook.Fits size
  | .system (.realloc _ bytes previous) =>
      MallocHook.Fits bytes ∧ ∀ info ∈ previous, MallocHook.Fits info.size
  | .system (.mmap _ size _ _ _) => MallocHook.Fits size
  | .system (.munmap _ _ previous) => ∀ info ∈ previous, MallocHook.Fits info.size
  | .system (.mremap _ _ newSize _ _) => MallocHook.Fits newSize
  | .dma (.recognize _ _ arg _) => ∀ given ∈ arg, MallocHook.Fits given.len.toNat
  | .dma (.register _ size) => MallocHook.Fits size
  | _ => True

/-- No record and no descriptor has more than `MaxSize` bytes. -/
structure SizesFit {θ ε : Type*} (hook : Hook θ ε) : Prop where
  records : ∀ pointer info, hook.live.find pointer = some info → Fits info.size
  registry : hook.dma.SizesFit

section

variable {hook hook' : Hook (Option τ) ε} {t : Option τ} {answer : Answer}
  {next : List (Op (Option τ))}

omit [DecidableEq τ] in
theorem fits_afterSection (result : LiveTable.SectionResult) :
    ∀ op ∈ (afterSection result : List (Op τ)), op.Fits := by
  unfold afterSection
  split <;> split <;> simp [Op.Fits]

omit [DecidableEq τ] in
/-- A call starts with sizes up to `MaxSize`, if `calloc` does. -/
theorem startHooked_fits (config : Config) {call : HookCall τ} (fits : LengthsFit call) :
    ∀ op ∈ startHooked config call.request, op.Fits := by
  obtain ⟨t, request, answers⟩ := call
  obtain ⟨ofCalloc, -⟩ := fits
  cases request
  all_goals
    simp only [startHooked, startRealloc, startAlloc, startFree, inFdTransaction]
    repeat' split
    all_goals simp_all [Op.Fits, Fits]

example : ¬LengthsFit (⟨some .one, .calloc 2 (2 ^ 30), []⟩ : HookCall Worker) := by decide +kernel

omit [DecidableEq τ] in
/-- A shard section stores only records that fit. -/
theorem shard_fits {op : ShardOp} {live live' : LiveTable} (fits : (.shard op : Op (Option τ)).Fits)
    (records : ∀ pointer info, live.find pointer = some info → Fits info.size)
    (sectioned : op.exec live answer = (live', next)) :
    (∀ pointer info, live'.find pointer = some info → Fits info.size) ∧ ∀ later ∈ next, later.Fits := by
  have taken : ∀ pointer other info, (live.takeEntry pointer).2.find other = some info →
      Fits info.size := by
    intro pointer other info found
    rw [find_takeEntry] at found
    split_ifs at found
    exact records other info found
  cases op
  case remap oldPointer newPointer newSize =>
    simp only [ShardOp.exec] at sectioned
    split at sectioned <;> cases sectioned
    · exact ⟨records, by simp⟩
    · next remapped =>
        obtain ⟨info, found, newFits, rfl⟩ := live.remap_eq_some remapped
        refine ⟨fun other info' found => ?_, fits_afterSection _⟩
        rw [find_rekey] at found
        split_ifs at found
        · cases found
          exact newFits
        · exact records other info' found
  all_goals cases sectioned
  case addEntry pointer trackedSize hashIndex type =>
    refine ⟨fun other info found => ?_, fits_afterSection _⟩
    rw [find_addSection] at found
    split_ifs at found
    · cases found
      exact fits
    · exact records other info found
  case internalFree pointer | remove pointer =>
    refine ⟨taken pointer, ?_⟩
    cases (live.takeEntry pointer).1 <;> simp [Op.Fits]
  case reallocTake pointer bytes =>
    refine ⟨taken pointer, ?_⟩
    simpa [Op.Fits] using ⟨fits, records pointer⟩
  case munmapTake addr size =>
    refine ⟨taken addr, ?_⟩
    simpa [Op.Fits] using records addr
  case restoreEntry pointer info =>
    refine ⟨fun other info' found => ?_, by simp⟩
    rw [find_restoreEntry] at found
    split_ifs at found
    · cases found
      exact fits
    · exact records other info' found

omit [DecidableEq τ] in
theorem system_fits (config : Config) (answer : Answer) {op : SystemOp (Option τ)}
    (fits : (.system op : Op (Option τ)).Fits) (lengths : answer.LengthsFit) :
    ∀ later ∈ op.next config answer, later.Fits := by
  cases op
  all_goals simp only [SystemOp.next]
  case alloc routine size =>
    split
    · simpa [Op.Fits, Op.add] using fits
    · simp
  case realloc pointer bytes previous => cases previous <;> split_ifs <;> simp_all [Op.Fits, Op.add]
  case mmap addr size flags fd pendingIoctl | mremap oldAddr oldSize newSize flags newAddr =>
    repeat' split
    all_goals simp_all [Op.Fits, Op.add]
  case munmap addr size previous =>
    cases previous with
    | none => simp
    | some info =>
        simp only [elim_some]
        split
        · simp [Op.Fits]
        · simpa [Op.Fits] using fits
  case ioctl fd request =>
    split
    · simpa [Op.Fits] using lengths.1
    · simp
  case close fd => split <;> simp [Op.Fits]
  case free | handOver => simp

/-- A section of the registry keeps sizes up to `MaxSize` and asks to account no others. -/
theorem dma_fits {op : DmaOp} (fits : (.dma op : Op (Option τ)).Fits) (fit : hook.dma.SizesFit)
    (lengths : answer.LengthsFit) (executed : hook.execDma t answer op = some (hook', next)) :
    hook'.dma.SizesFit ∧ ∀ later ∈ next, later.Fits := by
  cases op <;> simp only [Hook.execDma] at executed
  case lockFds =>
    split at executed <;> cases executed
    exact ⟨fit, by simp⟩
  all_goals cases executed
  case unlockFds => exact ⟨fit, by simp⟩
  case takePending addr size flags fd =>
    refine ⟨fit, ?_⟩
    split
    · simp
    · simp_all [Op.Fits, Fits]
  case recognize fd request arg registersFd =>
    obtain ⟨after, ofIon⟩ := fit.handleIonIoctl fd request fits
    have ofNode := after.handleDmaNode request fits lengths.2
    refine ⟨after, ?_⟩
    split
    · next nodeFd nodeSize recognized =>
        have nodeFits : Fits nodeSize := by
          rcases or_eq_some_iff.1 recognized with found | ⟨-, found⟩
          · exact ofIon _ found
          · exact ofNode _ found
        repeat' split
        all_goals simp [Op.Fits, nodeFits]
    · simp
  case takeOldGeneration fd | takeClosed fd =>
    refine ⟨fit.takeDmaFd fd, ?_⟩
    split <;> simp [Op.Fits]
  case register fd size =>
    refine ⟨fit.registerDmaFd fd fits, ?_⟩
    split
    · simpa [Op.Fits, Op.add] using fits
    · simp
  case markTracked fd => exact ⟨fit.markDmaFdTracked fd, by simp⟩
  case consultMapping fd flags =>
    obtain ⟨after, consulted⟩ := fit.shouldTrackDmaMapping fd (hasFlag flags mapShared) lengths.2
    refine ⟨after, ?_⟩
    split
    · next size found => simpa [Op.Fits, Op.add] using consulted size found
    · simp
  case dropIonAllocations fd => exact ⟨fit.dropIonAllocationsForFd fd, by simp⟩

/-- Every operation keeps the sizes within `MaxSize` as long as the lengths it is told are. -/
theorem execOp_fits {op : Op (Option τ)} (fits : op.Fits) (lengths : answer.LengthsFit)
    (fit : SizesFit hook) (executed : execOp config env t hook op answer = some (hook', next)) :
    SizesFit hook' ∧ ∀ later ∈ next, later.Fits := by
  rcases execOp_cases executed with
    ⟨frameOp, rfl, framed⟩ | ⟨shardOp, live', rfl, -, sectioned, rfl⟩ |
      ⟨systemOp, world, rfl, -, rfl, rfl⟩ | ⟨peakOp, rfl, peaked⟩ | ⟨dmaOp, rfl, transacted⟩
  · cases framed
    refine ⟨⟨fit.records, fit.registry⟩, ?_⟩
    cases frameOp with
    | addBacktrace pointer pointerSize trackedSize type =>
        simp only [FrameOp.exec]
        split
        · simp
        · simpa [Op.Fits] using fits
    | removeBacktrace => simp [FrameOp.exec]
  · obtain ⟨records, later⟩ := shard_fits fits fit.records sectioned
    exact ⟨⟨records, fit.registry⟩, later⟩
  · exact ⟨⟨fit.records, fit.registry⟩, system_fits config answer fits lengths⟩
  · obtain ⟨sameLive, -, -, sameOutside⟩ := execPeak_frame peaked
    refine ⟨⟨sameLive ▸ fit.records, sameOutside.dma ▸ fit.registry⟩, fun later member => ?_⟩
    obtain ⟨peakOp, rfl⟩ := execPeak_next peaked later member
    trivial
  · obtain ⟨sameLive, -⟩ := execDma_frame transacted
    obtain ⟨registry, later⟩ := dma_fits fits fit.registry lengths transacted
    exact ⟨⟨sameLive ▸ fit.records, registry⟩, later⟩

end

/-- In every state that calls with lengths up to `MaxSize` reach, a report of the entries with stacks,
together with what it omits, adds up to the host and DMA counters. -/
theorem report_adds_up {hook : Hook (Option τ) ε}
    (reached : (serialHook config env).ReachableBy (fun _ call => LengthsFit call) hook)
    (pred : ListInfo → ListInfo → Bool) :
    reportedBytes hook.live hook.stackTable pred = hook.live.currentHost + hook.live.currentDma ∧
      ∀ entry ∈ hook.live.entries, entry.2.realSize = entry.2.size := by
  have fit : SizesFit hook := by
    refine reached.invariant (P := SizesFit) ?_ ?_
    · exact ⟨fun _ _ found => (nomatch found), AllValues.empty, AllValues.empty⟩
    · intro before after call fit lengths stepped
      obtain ⟨ops, started, finished⟩ := bind_eq_some_iff.1 stepped
      obtain rfl := startHooked_of_startCall started
      exact Code.finish_invariant Op.Fits Answer.LengthsFit execOp_fits
        (startHooked_fits config lengths) lengths.2 fit finished
  have fits : ∀ entry ∈ hook.live.entries, entry.2.size ≤ PointerInfo.maxSize := by
    rintro ⟨key, info⟩ listed
    rw [← mangle_demangle key, mem_entries_iff_find] at listed
    exact fit.records _ info listed
  exact ⟨(reported_eq_counters_iff (accounted_of_serial reached) hook.stackTable pred).2 fits,
    fun entry listed => PointerInfo.realSize_eq_size.2 (fits entry listed)⟩

/-- The largest `calloc` that fits, and a buffer from a DMA heap. -/
def largestCallocAndBuffer : List (HookCall Worker) :=
  [⟨some .one, .calloc 1 2147483647, [{ pointer := 0x10000 }, { stack := oneFrame 0x400 }, {}, {}]⟩,
    ⟨some .two, .ioctl 3 dmaHeapIoctlAlloc,
      [{}, { arg := some ⟨4096, 7, 0⟩ }, {}, {}, {}, {}, {}, {}, {}, {}]⟩]

theorem report_adds_up_largestCallocAndBuffer :
    ∃ hook, (serialHook trackingConfig (.any _)).run (serialHook trackingConfig (.any _)).init
        largestCallocAndBuffer = some hook ∧ hook.live.currentDma = 4096 ∧
      reportedBytes hook.live hook.stackTable uniqueListPred =
        hook.live.currentHost + hook.live.currentDma := by
  obtain ⟨hook, ran, buffer⟩ : ∃ hook ∈ (serialHook trackingConfig (.any _)).run
      (serialHook trackingConfig (.any _)).init
      largestCallocAndBuffer, hook.live.currentDma = 4096 := by decide +kernel
  have respects : (serialHook trackingConfig (.any _)).Respects (fun _ call => LengthsFit call)
      (serialHook trackingConfig (.any _)).init largestCallocAndBuffer := by decide +kernel
  exact ⟨hook, ran, buffer, (report_adds_up (.of_run .init respects ran) uniqueListPred).1⟩

/-- One `calloc` of a byte more than `MaxSize`. -/
def oversizedCalloc : List (HookCall Worker) :=
  [⟨some .one, .calloc 1 2147483648, [{ pointer := 0x10000 }, { stack := oneFrame 0x400 }, {}, {}]⟩]

/-- It is counted with all its bytes, and the report shows none of them. -/
theorem oversized_calloc_reported_empty :
    ∃ hook, (serialHook trackingConfig (.any _)).run (serialHook trackingConfig (.any _)).init
        oversizedCalloc = some hook ∧
      hook.live.currentHost + hook.live.currentDma = 2147483648 ∧
      reportedBytes hook.live hook.stackTable uniqueListPred = 0 := by
  change ∃ hook ∈ (serialHook trackingConfig (.any _)).run
      (serialHook trackingConfig (.any _)).init oversizedCalloc, _
  decide +kernel

end MallocHook
