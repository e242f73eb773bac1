/-
Module: MallocHook.Core.PeakSnapshot
Purpose: The peak snapshot of `PointerData` and the sampler that competes for it, cut at the places
  where the source can be interrupted.
Trusted boundary: translation of the peak code of backtrace/src/PointerData.cpp and of
  ObservedPeakSampler::Run; what /proc and the clock answer are inputs
Main exports: PeakState, takePeakSnapshotLocked, trackedSection
-/
import MallocHook.Core.Report

namespace MallocHook

/-! ### Inputs -/

structure RssBreakdown where
  vmRssKb : Nat
  anonKb : Nat
  fileKb : Nat
  shmemKb : Nat
  valid : Bool
deriving DecidableEq, Repr, Inhabited

structure MappingRss where
  name : String
  rssKb : Nat
  sizeKb : Nat
deriving DecidableEq, Repr, Inhabited

structure MappingTotals where
  fileRssKb : Nat
  anonRssKb : Nat
  fileSizeKb : Nat
  anonSizeKb : Nat
deriving DecidableEq, Repr, Inhabited

/-- What one read of /proc found, and when. -/
structure PeakProcContext where
  rss : RssBreakdown
  mappings : List MappingRss
  totals : MappingTotals
  readStartUs : Nat
  readEndUs : Nat
deriving DecidableEq, Repr, Inhabited

/-- `ObservedMemSample`, with the fields the peak code reads. -/
structure ObservedMemSample where
  rssBytes : UInt64
  dmaBytes : UInt64
  gpuBytes : UInt64
  valid : Bool
deriving DecidableEq, Repr, Inhabited

/-- `total()`, a sum of `size_t`. -/
def ObservedMemSample.total (sample : ObservedMemSample) : UInt64 :=
  sample.rssBytes + sample.dmaBytes + sample.gpuBytes

/-- `SIZE_MAX`. -/
def sizeMax : Nat := 2 ^ 64 - 1

/-! ### State -/

inductive PeakSnapshotSource where
  | none
  | tracked
  | observed
deriving DecidableEq, Repr, Inhabited

structure StepSnapshot where
  list : List ListInfo
  host : Int
  dma : Int
  tot : Int
deriving DecidableEq, Repr, Inhabited

/-- The peak members of `PointerData`, without `peak_pointer_buckets`: it describes the standard library.
-/
structure PeakState where
  nextPeakRecordThreshold : Nat
  peakRecordStepBytes : Nat
  peakSnapshotFinal : Bool
  trackedPeakOnce : Bool
  peakList : List ListInfo
  peakListHost : Int
  peakListDma : Int
  peakListTot : Int
  stepSnaps : List StepSnapshot
  stepSnapsBytes : Nat
  peakSnapshotSource : PeakSnapshotSource
  peakObservedRss : UInt64
  peakObservedDma : UInt64
  peakObservedGpu : UInt64
  peakSnapshotGeneration : Nat
  peakProcReadInflight : Bool
  peakSnapshotTimeUs : Nat
  peakProcReadStartUs : Nat
  peakProcReadEndUs : Nat
  observedPeakActive : Bool
  peakRssKb : Nat
  peakRssAnonKb : Nat
  peakRssFileKb : Nat
  peakRssShmemKb : Nat
  peakMappings : List MappingRss
  peakMapTotals : MappingTotals
  peakLivePointers : Nat
  peakUniqueStacks : Nat
  peakStackPcBytes : Nat
deriving DecidableEq, Repr, Inhabited

namespace PeakState

/-- The peak members as `Initialize` leaves them in a new `PointerData`. -/
def initial (config : Config) : PeakState :=
  { (default : PeakState) with
    nextPeakRecordThreshold := config.backtraceDumpPeakVal
    peakRecordStepBytes := config.peakRecordStepBytes
    trackedPeakOnce := decide (config.peakRetention = .firstCrossing)
    peakSnapshotFinal := false
    peakList := []
    peakSnapshotSource := .none
    peakProcReadInflight := false
    observedPeakActive := false }

end PeakState

def kMinPeakStepBytes : Nat := 64 * 1024

/-- `NextPeakThreshold`, with sums that stay below 2^64. -/
def nextPeakThreshold (peakBytes stepBytes : Nat) : Nat :=
  if stepBytes = 0 then peakBytes
  else
    let increment := peakBytes / 4
    let increment := if increment > stepBytes then stepBytes else increment
    let increment := if increment < kMinPeakStepBytes then kMinPeakStepBytes else increment
    peakBytes + increment

theorem le_nextPeakThreshold (peakBytes stepBytes : Nat) :
    peakBytes ≤ nextPeakThreshold peakBytes stepBytes := by
  unfold nextPeakThreshold
  split
  · exact Nat.le_refl _
  · exact Nat.le_add_right _ _

/-! ### Retaining a snapshot -/

def kMaxStepSnapshotBytes : Nat := 8 * 1024 * 1024

/-- `sizeof(ListInfoType)` on a 64-bit platform. -/
def sizeofListInfo : Nat := 104

namespace PeakState

variable (peak : PeakState)

/-- Climb mode keeps the snapshot of every rung that fits the byte budget. -/
def pushStepSnapshot (config : Config) : PeakState :=
  let snapshotBytes := peak.peakList.length * sizeofListInfo
  if config.peakRetention = .chaseMax ∧ peak.stepSnapsBytes ≤ kMaxStepSnapshotBytes ∧
      snapshotBytes ≤ kMaxStepSnapshotBytes - peak.stepSnapsBytes then
    { peak with
      stepSnaps := peak.stepSnaps ++
        [⟨peak.peakList, peak.peakListHost, peak.peakListDma, peak.peakListTot⟩]
      stepSnapsBytes := peak.stepSnapsBytes + snapshotBytes }
  else peak

/-- What the sample said, for an observed snapshot, and zeros otherwise. -/
def storeObserved (observed : Option ObservedMemSample) : PeakState :=
  { peak with
    peakObservedRss := observed.elim 0 ObservedMemSample.rssBytes
    peakObservedDma := observed.elim 0 ObservedMemSample.dmaBytes
    peakObservedGpu := observed.elim 0 ObservedMemSample.gpuBytes }

/-- The resident sizes a valid read of /proc found. -/
def storeRss (proc : PeakProcContext) : PeakState :=
  if proc.rss.valid then
    { peak with
      peakRssKb := proc.rss.vmRssKb
      peakRssAnonKb := proc.rss.anonKb
      peakRssFileKb := proc.rss.fileKb
      peakRssShmemKb := proc.rss.shmemKb
      peakMappings := proc.mappings
      peakMapTotals := proc.totals }
  else peak

def storeReadInterval (proc : PeakProcContext) : PeakState :=
  { peak with
    peakProcReadStartUs := proc.readStartUs
    peakProcReadEndUs := proc.readEndUs }

/-- The hook's own bookkeeping at the snapshot. -/
def storeBookkeeping (live : LiveTable) (stackTable : StackTable) : PeakState :=
  { peak with
    peakLivePointers := live.entries.length
    peakUniqueStacks := stackTable.frames.entries.length
    peakStackPcBytes := (stackTable.frames.entries.map fun entry => entry.2.frames.length * 8).sum }

/-- Everything `TakePeakSnapshotLocked` writes once it has a list to retain. -/
def retain (config : Config) (live : LiveTable) (stackTable : StackTable) (list : List ListInfo)
    (source : PeakSnapshotSource) (observed : Option ObservedMemSample)
    (proc : Option PeakProcContext) (nowUs : Nat) : PeakState :=
  let peak := { peak with
    peakSnapshotGeneration := peak.peakSnapshotGeneration + 1
    peakSnapshotTimeUs := nowUs
    peakList := list
    peakListHost := live.currentHost
    peakListDma := live.currentDma
    peakListTot := live.currentUsed }
  let peak := peak.pushStepSnapshot config
  let peak := { peak with peakSnapshotSource := source }
  let peak := peak.storeObserved observed
  let peak := proc.elim peak fun proc => (peak.storeRss proc).storeReadInterval proc
  peak.storeBookkeeping live stackTable

end PeakState

/-- `TakePeakSnapshotLocked`: whether a snapshot was retained, and the state after it, whose generation it
reports to the sampler. -/
def takePeakSnapshotLocked (config : Config) (live : LiveTable) (stackTable : StackTable)
    (source : PeakSnapshotSource) (observed : Option ObservedMemSample)
    (proc : Option PeakProcContext) (nowUs : Nat) (peak : PeakState) : Bool × PeakState :=
  let nextPeakList := getUniqueList live stackTable true
  if nextPeakList.isEmpty then (false, peak)
  else (true, peak.retain config live stackTable nextPeakList source observed proc nowUs)

/-- `ApplyPeakProcContextLocked`. -/
def applyPeakProcContextLocked (proc : PeakProcContext) (snapshotGeneration : Nat)
    (peak : PeakState) : PeakState :=
  if snapshotGeneration != peak.peakSnapshotGeneration then peak
  else if !proc.rss.valid then peak
  else (peak.storeRss proc).storeReadInterval proc

/-! ### The allocation path -/

namespace PeakState

variable (peak : PeakState)

/-- The unlocked test at the top of `MaybeRecordPeakSnapshot`. -/
def crossesThreshold (config : Config) (trackedTotal : Int) : Bool :=
  config.has optionRecordMemoryPeak && decide (trackedTotal > peak.nextPeakRecordThreshold)

/-- The observed criterion owns the snapshot, unless its sampler looks dead. -/
def observedOwns (stalled : Bool) : Bool := peak.observedPeakActive && !stalled

/-- `peak_proc_read_inflight_.exchange(true)`: the old value and the state after. -/
def claimProcRead : Bool × PeakState :=
  (peak.peakProcReadInflight, { peak with peakProcReadInflight := true })

/-- The destructor of the claim. -/
def releaseProcRead : PeakState := { peak with peakProcReadInflight := false }

/-- `observed_peak_active_.store(true)`. -/
def activateObserved : PeakState := { peak with observedPeakActive := true }

/-- Climb mode moves the threshold one step above the peak. -/
def climb (live : LiveTable) : PeakState :=
  { peak with
    nextPeakRecordThreshold :=
      if peak.peakRecordStepBytes = 0 then live.peakTot.toNat
      else nextPeakThreshold live.peakTot.toNat peak.peakRecordStepBytes }

/-- First-crossing retention is done. -/
def finalize : PeakState :=
  { peak with peakSnapshotFinal := true, nextPeakRecordThreshold := sizeMax }

end PeakState

/-- The part of `MaybeRecordPeakSnapshot` that runs under all shards. -/
def trackedSection (config : Config) (live : LiveTable) (stackTable : StackTable) (stalled : Bool)
    (proc : PeakProcContext) (nowUs : Nat) (peak : PeakState) : PeakState :=
  if peak.observedOwns stalled || peak.peakSnapshotFinal then peak
  else if live.peakTot ≤ peak.nextPeakRecordThreshold then peak
  else
    let taken := takePeakSnapshotLocked config live stackTable .tracked none (some proc) nowUs peak
    if taken.2.trackedPeakOnce then
      if taken.1 then taken.2.finalize else taken.2
    else
      { taken.2 with
        nextPeakRecordThreshold :=
          if taken.2.peakRecordStepBytes = 0 then live.peakTot.toNat
          else nextPeakThreshold live.peakTot.toNat taken.2.peakRecordStepBytes }

/-! ### The sampler -/

/-- The first section of `RecordObservedPeak` under all shards, and whether it retained a snapshot. -/
def observedSection (config : Config) (live : LiveTable) (stackTable : StackTable)
    (sample : ObservedMemSample) (nowUs : Nat) (peak : PeakState) : Bool × PeakState :=
  let taken := takePeakSnapshotLocked config live stackTable .observed (some sample) none nowUs
    peak.activateObserved
  if taken.1 && decide (config.peakRetention = .firstCrossing) then (taken.1, taken.2.finalize)
  else taken

/-- The locals of `ObservedPeakSampler::Run` and the members it decides by. -/
structure Sampler where
  nextThreshold : Nat
  peakTotalBytes : Nat
  stepBytes : Nat
  oneShot : Bool
deriving DecidableEq, Repr, Inhabited

namespace Sampler

/-- The sampler `StartObservedPeakSampler` starts. -/
def ofConfig (config : Config) : Sampler where
  nextThreshold := config.backtraceDumpPeakVal
  peakTotalBytes := 0
  stepBytes := config.peakRecordStepBytes
  oneShot := decide (config.peakRetention = .firstCrossing)

/-- One sample: whether it calls back, and the state before the callback. -/
def observe (sampler : Sampler) (sample : ObservedMemSample) : Bool × Sampler :=
  if sample.valid && decide (sample.total.toNat > sampler.peakTotalBytes) then
    (decide (sample.total.toNat > sampler.nextThreshold),
      { sampler with peakTotalBytes := sample.total.toNat })
  else (false, sampler)

/-- What the answer of the callback does to the threshold. -/
def settle (sampler : Sampler) (sample : ObservedMemSample) (retained : Bool) : Sampler :=
  if sampler.oneShot then
    if retained then { sampler with nextThreshold := sizeMax } else sampler
  else
    { sampler with nextThreshold := nextPeakThreshold sample.total.toNat sampler.stepBytes }

/-- No sample calls back once the threshold is pinned. -/
theorem observe_pinned {sampler : Sampler} (pinned : sampler.nextThreshold = sizeMax)
    (sample : ObservedMemSample) : (sampler.observe sample).1 = false := by
  have small : sample.total.toNat ≤ sizeMax := Nat.le_pred_of_lt sample.total.toNat_lt
  unfold observe
  split
  · simpa [pinned] using small
  · rfl

end Sampler

/-! ### What a retained snapshot changes -/

namespace PeakState

variable (peak : PeakState) (config : Config) (live : LiveTable) (stackTable : StackTable)
  (list : List ListInfo) (source : PeakSnapshotSource) (observed : Option ObservedMemSample)
  (proc : Option PeakProcContext) (nowUs : Nat)

/-- The members that steer later snapshots. -/
def control : Nat × Nat × Bool × Bool × Bool × Bool :=
  (peak.nextPeakRecordThreshold, peak.peakRecordStepBytes, peak.peakSnapshotFinal,
    peak.trackedPeakOnce, peak.peakProcReadInflight, peak.observedPeakActive)

/-- The members that make up the snapshot a report prints. -/
def retained : List ListInfo × Int × Int × Int × PeakSnapshotSource :=
  (peak.peakList, peak.peakListHost, peak.peakListDma, peak.peakListTot, peak.peakSnapshotSource)

/-- Retaining a snapshot stores the list with the totals read beside it, under a new generation, and
leaves the steering members. -/
theorem retain_members : let peak' := peak.retain config live stackTable list source observed proc nowUs
    peak'.control = peak.control ∧
      peak'.retained = (list, live.currentHost, live.currentDma, live.currentUsed, source) ∧
      peak'.peakSnapshotGeneration = peak.peakSnapshotGeneration + 1 := by
  unfold retain pushStepSnapshot storeRss
  cases proc with
  | none => dsimp only [Option.elim]; split <;> exact ⟨rfl, rfl, rfl⟩
  | some proc => dsimp only [Option.elim]; split <;> split <;> exact ⟨rfl, rfl, rfl⟩

/-- The state after a snapshot of this source was retained. -/
structure Retained (peak' : PeakState) : Prop where
  control : peak'.control = peak.control
  generation : peak'.peakSnapshotGeneration = peak.peakSnapshotGeneration + 1
  source : peak'.peakSnapshotSource = source

end PeakState

section

variable (config : Config) (live : LiveTable) (stackTable : StackTable) (peak : PeakState)

/-- A snapshot is retained exactly when some live entry carries a stack. -/
theorem takePeakSnapshotLocked_cases (source : PeakSnapshotSource) (observed : Option ObservedMemSample)
    (proc : Option PeakProcContext) (nowUs : Nat) :
    (takePeakSnapshotLocked config live stackTable source observed proc nowUs peak = (false, peak) ∧
        ∀ entry ∈ live.entries, entry.2.hashIndex ≤ kBacktraceEmptyIndex) ∨
      ∃ peak', takePeakSnapshotLocked config live stackTable source observed proc nowUs peak =
        (true, peak') ∧ peak.Retained source peak' := by
  unfold takePeakSnapshotLocked
  simp only [List.isEmpty_iff]
  split
  · next nothing => exact .inl ⟨rfl, getUniqueList_eq_nil.1 nothing⟩
  · obtain ⟨control, retained, generation⟩ := PeakState.retain_members peak config live stackTable
      (getUniqueList live stackTable true) source observed proc nowUs
    exact .inr ⟨_, rfl, control, generation, congrArg (fun retained => retained.2.2.2.2) retained⟩

variable {peak} (stalled : Bool) (proc : PeakProcContext) (nowUs : Nat)

/-- What the locked section does when there is no observed criterion. -/
theorem trackedSection_unobserved (unobserved : peak.observedPeakActive = false) :
    trackedSection config live stackTable stalled proc nowUs peak =
      if peak.peakSnapshotFinal = true ∨ live.peakTot ≤ peak.nextPeakRecordThreshold then peak
      else if live.CarriesStack then
        let kept := peak.retain config live stackTable (getUniqueList live stackTable true) .tracked none
          (some proc) nowUs
        if peak.trackedPeakOnce then kept.finalize else kept.climb live
      else if peak.trackedPeakOnce then peak
      else peak.climb live := by
  unfold trackedSection
  by_cases done : peak.peakSnapshotFinal = true ∨ live.peakTot ≤ peak.nextPeakRecordThreshold
  · rw [if_pos done]
    rcases done with final | within
    · rw [if_pos (by simp [final])]
    · rw [if_pos within, ite_self]
  · rw [if_neg done]
    obtain ⟨notFinal, beyond⟩ := not_or.1 done
    rw [if_neg (by simp [PeakState.observedOwns, unobserved, notFinal]), if_neg beyond]
    by_cases carries : live.CarriesStack
    · have nonempty : (getUniqueList live stackTable true).isEmpty = false :=
        List.isEmpty_eq_false_iff.2 (getUniqueList_ne_nil.2 carries)
      obtain ⟨control, -⟩ := PeakState.retain_members peak config live stackTable
        (getUniqueList live stackTable true) .tracked none (some proc) nowUs
      simp only [PeakState.control, Prod.mk.injEq] at control
      simp only [if_pos carries, takePeakSnapshotLocked, nonempty, Bool.false_eq_true, if_false,
        control.2.2.2.1, if_true, PeakState.climb]
    · have empty : (getUniqueList live stackTable true).isEmpty = true :=
        List.isEmpty_iff.2 (not_not.1 (mt getUniqueList_ne_nil.1 carries))
      simp only [if_neg carries, takePeakSnapshotLocked, empty, if_true, Bool.false_eq_true, if_false,
        PeakState.climb]

/-- Climbing puts the threshold at or above `peak_tot` and changes no other steering member. -/
theorem PeakState.climb_control (peak' : PeakState) :
    ∃ threshold : Nat, live.peakTot ≤ threshold ∧
    (peak'.climb live).control = (threshold, peak'.control.2) := by
  refine ⟨_, ?_, rfl⟩
  have next := le_nextPeakThreshold live.peakTot.toNat peak'.peakRecordStepBytes
  unfold PeakState.climb
  dsimp only
  split <;> omega

/-- In climb mode without an observed criterion, the locked section leaves the threshold at or above
`peak_tot`, and moves it only with a snapshot or if nothing carries a stack. -/
theorem trackedSection_climbs (unobserved : peak.observedPeakActive = false)
    (notFinal : peak.peakSnapshotFinal = false) (climbing : peak.trackedPeakOnce = false) :
    ∃ threshold : Nat, live.peakTot ≤ threshold ∧
      (trackedSection config live stackTable stalled proc nowUs peak).control =
        (threshold, peak.peakRecordStepBytes, false, false, peak.peakProcReadInflight, false) ∧
      (threshold = peak.nextPeakRecordThreshold ∨
        (∀ entry ∈ live.entries, entry.2.hashIndex ≤ kBacktraceEmptyIndex) ∨
        (trackedSection config live stackTable stalled proc nowUs peak).peakSnapshotGeneration =
            peak.peakSnapshotGeneration + 1 ∧
          (trackedSection config live stackTable stalled proc nowUs peak).peakSnapshotSource =
          .tracked) := by
  have steering : peak.control.2 = (peak.peakRecordStepBytes, false, false,
    peak.peakProcReadInflight, false) := by
    simp only [PeakState.control, notFinal, climbing, unobserved]
  rw [trackedSection_unobserved config live stackTable stalled proc nowUs unobserved]
  simp only [notFinal, climbing, Bool.false_eq_true, false_or, if_false]
  by_cases within : live.peakTot ≤ peak.nextPeakRecordThreshold
  · rw [if_pos within]
    exact ⟨_, within, by rw [← steering]; rfl, .inl rfl⟩
  · rw [if_neg within]
    by_cases carries : live.CarriesStack
    · rw [if_pos carries]
      obtain ⟨control, members, generation⟩ := PeakState.retain_members peak config live stackTable
        (getUniqueList live stackTable true) .tracked none (some proc) nowUs
      obtain ⟨threshold, covers, climbed⟩ := PeakState.climb_control live
        (peak.retain config live stackTable (getUniqueList live stackTable true) .tracked none
          (some proc) nowUs)
      rw [control, steering] at climbed
      exact ⟨threshold, covers, climbed, .inr (.inr
        ⟨generation, congrArg (fun kept => kept.2.2.2.2) members⟩)⟩
    · rw [if_neg carries]
      obtain ⟨threshold, covers, climbed⟩ := PeakState.climb_control live peak
      rw [steering] at climbed
      have noStack : ∀ entry ∈ live.entries, entry.2.hashIndex ≤ kBacktraceEmptyIndex :=
        fun entry listed => Nat.le_of_not_lt fun above => carries ⟨entry, listed, above⟩
      exact ⟨threshold, covers, climbed, .inr (.inl noStack)⟩

/-- In first-crossing mode, the locked section leaves everything, or retains a snapshot where none was
final and makes it final. -/
theorem trackedSection_once (once : peak.trackedPeakOnce = true) :
    trackedSection config live stackTable stalled proc nowUs peak = peak ∨
      peak.peakSnapshotFinal = false ∧
        ∃ peak', trackedSection config live stackTable stalled proc nowUs peak = peak'.finalize ∧
          peak.Retained .tracked peak' := by
  unfold trackedSection
  split
  · exact .inl rfl
  · next open_ =>
      have notFinal : peak.peakSnapshotFinal = false := by
        cases final : peak.peakSnapshotFinal with
        | false => rfl
        | true => simp [final] at open_
      split
      · exact .inl rfl
      · rcases takePeakSnapshotLocked_cases config live stackTable peak .tracked none (some proc) nowUs
          with ⟨nothing, -⟩ | ⟨peak', taken, retained⟩
        · refine .inl ?_
          simp [nothing, once]
        · have stillOnce : peak'.trackedPeakOnce = true := by
            have control := retained.control
            simp only [PeakState.control, Prod.mk.injEq] at control
            rw [control.2.2.2.1, once]
          rw [taken]
          simp only [stillOnce, if_true]
          exact .inr ⟨notFinal, peak', rfl, retained⟩

/-- In first-crossing mode, the sampler's section turns the observed criterion on, and its snapshot is
final. -/
theorem observedSection_once (first : config.peakRetention = .firstCrossing) (sample : ObservedMemSample) :
    observedSection config live stackTable sample nowUs peak =
        (false, peak.activateObserved) ∨
      ∃ peak', observedSection config live stackTable sample nowUs peak = (true, peak'.finalize) ∧
        peak.activateObserved.Retained .observed peak' := by
  unfold observedSection
  rcases takePeakSnapshotLocked_cases config live stackTable peak.activateObserved .observed
    (some sample) none nowUs with ⟨nothing, -⟩ | ⟨peak', taken, retained⟩
  · exact .inl (by simp [nothing])
  · exact .inr ⟨peak', by simp [taken, first], retained⟩

/-- The /proc context that is filled in later describes the snapshot, and replaces none of it. -/
theorem applyPeakProcContextLocked_members (generation : Nat) :
    let peak' := applyPeakProcContextLocked proc generation peak
    peak'.control = peak.control ∧ peak'.retained = peak.retained ∧
      peak'.peakSnapshotGeneration = peak.peakSnapshotGeneration := by
  unfold applyPeakProcContextLocked PeakState.storeRss
  split
  · exact ⟨rfl, rfl, rfl⟩
  · split
    · exact ⟨rfl, rfl, rfl⟩
    · split <;> exact ⟨rfl, rfl, rfl⟩

end

end MallocHook
