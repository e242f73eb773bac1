/-
Module: MallocHook.Proofs.SerialSnapshots
Purpose: When a run of hooked calls without a sampler gets its snapshots: at a new maximum above the
  floor while a live entry carries a stack.
Trusted boundary: none
Main exports: first_crossing_retains_iff, first_crossing_reports_iff, snapshot_lag_bounded
-/
import MallocHook.Core.SerialPeak

namespace MallocHook

variable {τ ε : Type*} [DecidableEq τ] {config : Config} {env : Environment (Option τ) ε}

/-! ### First-crossing mode -/

section

/-- The total is above the floor while a live entry carries a stack. -/
def Attributable (config : Config) (hook : Hook (Option τ) ε) : Prop :=
  config.backtraceDumpPeakVal < hook.live.currentUsed ∧ hook.live.CarriesStack

/-- A call makes the total a new maximum, above the floor and while a live entry carries a stack. -/
def PeaksAttributably (config : Config) (before after : Hook (Option τ) ε) : Prop :=
  before.live.peakTot < after.live.peakTot ∧ Attributable config after

/-- First-crossing retention between two calls: the search is open at the floor, or a snapshot is final.
-/
structure SearchState (config : Config) (peak : PeakState) : Prop where
  unsampled : peak.Unsampled
  once : peak.trackedPeakOnce = true
  searching : peak.peakList = [] → peak.peakSnapshotFinal = false ∧
    peak.nextPeakRecordThreshold = config.backtraceDumpPeakVal
  found : peak.peakList ≠ [] → peak.peakSnapshotFinal = true

instance (config : Config) (hook : Hook (Option τ) ε) : Decidable (Attributable config hook) :=
  inferInstanceAs (Decidable (_ ∧ _))

instance (config : Config) (before after : Hook (Option τ) ε) :
    Decidable (PeaksAttributably config before after) :=
  inferInstanceAs (Decidable (_ ∧ _))

theorem SearchState.initial (first : config.peakRetention = .firstCrossing) :
    SearchState config (.initial config) where
  unsampled := .initial config
  once := by simp [PeakState.initial, first]
  searching := fun _ => ⟨rfl, rfl⟩
  found := fun found => absurd rfl found

/-- The snapshot code retains exactly when the search is open, the peak is above the floor and a live
entry carries a stack. -/
theorem SearchState.recorded {peak : PeakState} (search : SearchState config peak)
    (recording : config.has optionRecordMemoryPeak = true) (live : LiveTable) (stackTable : StackTable)
    (stalled : Bool) (proc : PeakProcContext) (nowUs : Nat) :
    SearchState config (peak.recorded config live stackTable stalled proc nowUs) ∧
      ((peak.recorded config live stackTable stalled proc nowUs).peakList ≠ [] ↔
        peak.peakList ≠ [] ∨ config.backtraceDumpPeakVal < live.peakTot ∧ live.CarriesStack) := by
  rw [peak.recorded_eq stackTable stalled proc nowUs search.unsampled recording]
  by_cases listed : peak.peakList = []
  · obtain ⟨notFinal, threshold⟩ := search.searching listed
    by_cases within : live.peakTot ≤ config.backtraceDumpPeakVal
    · rw [if_pos (.inr (threshold ▸ within))]
      exact ⟨search, by simp [listed, Int.not_lt.2 within]⟩
    · rw [if_neg (by simp [notFinal, threshold, within])]
      by_cases carries : live.CarriesStack
      · obtain ⟨list, -, -, -, once, unobserved⟩ :=
          peak.withSnapshot_members config live stackTable proc nowUs
        have nonempty := list ▸ getUniqueList_ne_nil.2 carries
        rw [if_pos carries, if_pos search.once]
        refine ⟨⟨⟨unobserved.trans search.unsampled.unobserved, rfl⟩, once.trans search.once,
          fun empty => absurd empty nonempty, fun _ => rfl⟩, ?_⟩
        exact iff_of_true nonempty (.inr ⟨Int.not_le.1 within, carries⟩)
      · rw [if_neg carries, if_pos search.once]
        exact ⟨search, by simp [listed, carries]⟩
  · rw [if_pos (.inl (search.found listed))]
    exact ⟨search, by simp [listed]⟩

/-- What one call does to the search. -/
theorem SearchState.step {hook hook' : Hook (Option τ) ε} {call : HookCall τ}
    (search : SearchState config hook.peak)
    (recording : config.has optionRecordMemoryPeak = true) (byProgram : call.thread.isSome = true)
    (stepped : (serialHook config env).step hook call = some hook') :
    SearchState config hook'.peak ∧ (hook'.peak.peakList ≠ [] ↔
      hook.peak.peakList ≠ [] ∨ PeaksAttributably config hook hook') := by
  rcases outcome_of_step search.unsampled byProgram stepped with
    ⟨samePeakTot, samePeak⟩ | ⟨raised, total, stackTable, stalled, proc, nowUs, recorded⟩
  · rw [samePeak]
    refine ⟨search, by simp [PeaksAttributably, samePeakTot]⟩
  · obtain ⟨search', retained⟩ :=
      search.recorded recording hook'.live stackTable stalled proc nowUs
    rw [recorded]
    refine ⟨search', retained.trans (or_congr_right ?_)⟩
    simp [PeaksAttributably, Attributable, raised, ← total]

/-- Over a run, a snapshot is retained exactly when some call peaks attributably. -/
theorem first_crossing_retains_iff {hook hook' : Hook (Option τ) ε} {calls : List (HookCall τ)}
    (search : SearchState config hook.peak) (recording : config.has optionRecordMemoryPeak = true)
    (byProgram : ∀ call ∈ calls, call.thread.isSome = true)
    (ran : (serialHook config env).run hook calls = some hook') :
    hook'.peak.peakList ≠ [] ↔
      hook.peak.peakList ≠ [] ∨ (serialHook config env).Takes (PeaksAttributably config) hook calls := by
  induction calls generalizing hook with
  | nil =>
      cases ran
      simp [Machine.Takes]
  | cons call calls ih =>
      obtain ⟨middle, stepped, ran⟩ := Option.bind_eq_some_iff.1 ran
      obtain ⟨byThis, byRest⟩ := List.forall_mem_cons.1 byProgram
      obtain ⟨search', retained⟩ := search.step recording byThis stepped
      rw [ih search' byRest ran, retained, or_assoc]
      simp [Machine.Takes, stepped]

/-- In first-crossing mode without a sampler, a run that had attributable memory at some instant ends with
a snapshot if and only if some call of it also made the total a new maximum while it was attributable. -/
theorem first_crossing_reports_iff (first : config.peakRetention = .firstCrossing)
    (recording : config.has optionRecordMemoryPeak = true) {calls : List (HookCall τ)}
    {hook : Hook (Option τ) ε} (byProgram : ∀ call ∈ calls, call.thread.isSome = true)
    (ran : (serialHook config env).run (.initial config env) calls = some hook) :
    ((hookCode config env).SerialSees (Attributable config) (.initial config env) calls →
        hook.peak.peakList ≠ []) ↔
      ((hookCode config env).SerialSees (Attributable config) (.initial config env) calls →
        (serialHook config env).Takes (PeaksAttributably config) (.initial config env) calls) := by
  have retains := first_crossing_retains_iff (.initial first) recording byProgram ran
  rw [retains]
  exact imp_congr_right fun _ => or_iff_right fun found => found rfl

end

/-- A thread allocates a block, with the stack captured and the steps the call takes after that. -/
def mallocCall (pointer : Pointer) (size : Nat) (stack : RawStackRecord) (further : Nat) :
    HookCall Worker :=
  ⟨some .one, .malloc size, { pointer := pointer } :: { stack := stack } :: List.replicate further {}⟩

def freeCall (pointer : Pointer) : HookCall Worker := ⟨some .one, .free pointer, List.replicate 3 {}⟩

def mebibyte : Nat := 1024 * 1024

/-- `DUMP_PEAK_VALUE_MB=1`, with `BACKTRACE_MIN_SIZE` at 4 MiB and no sampler. -/
def floorConfig : Config where
  options := optionBacktrace ||| optionTrackAllocs ||| optionBacktraceSpecificSizes |||
    optionRecordMemoryPeak
  backtraceMinSizeBytes := 4 * mebibyte
  backtraceMaxSizeBytes := sizeMax
  backtraceDumpPeakVal := mebibyte
  peakRecordStepBytes := 0
  peakRetention := .firstCrossing

/-- Two blocks below the size filter cross the floor and go; then a block with a stack crosses it again,
but is no new maximum. -/
def lowerSecondCrossing : List (HookCall Worker) :=
  [mallocCall 0x10000000 (3 * mebibyte) (oneFrame 0x400) 8,
    mallocCall 0x20000000 (3 * mebibyte) (oneFrame 0x400) 8, freeCall 0x10000000, freeCall 0x20000000,
    mallocCall 0x30000000 (4 * mebibyte) (oneFrame 0x400) 1]

/-- At the end the total is above the floor and a live block carries a stack, and nothing was retained. -/
theorem lower_second_crossing_unreported :
    ∃ hook, (serialHook floorConfig (.any (Option Worker))).run (.initial floorConfig (.any _))
        lowerSecondCrossing = some hook ∧
      (hookCode floorConfig (.any (Option Worker))).SerialSees (Attributable floorConfig)
        (.initial floorConfig (.any _)) lowerSecondCrossing ∧
      hook.peak.peakList = [] := by
  obtain ⟨hook, ran, attributable, empty⟩ : ∃ hook ∈ (serialHook floorConfig (.any (Option Worker))).run
      (.initial floorConfig (.any _)) lowerSecondCrossing,
      Attributable floorConfig hook ∧ hook.peak.peakList = [] := by decide +kernel
  exact ⟨hook, ran, Code.serialSees_of_run ran attributable, empty⟩

/-- A block with a stack takes the total above the floor at once. -/
def firstCrossingAtOnce : List (HookCall Worker) :=
  [mallocCall 0x10000000 (4 * mebibyte) (oneFrame 0x400) 8]

theorem first_crossing_reports_iff_atOnce :
    ∃ hook, (serialHook floorConfig (.any (Option Worker))).run (.initial floorConfig (.any _))
        firstCrossingAtOnce = some hook ∧ hook.peak.peakList ≠ [] := by
  obtain ⟨hook, ran, peaks⟩ : ∃ hook ∈ (serialHook floorConfig (.any (Option Worker))).run
      (.initial floorConfig (.any _)) firstCrossingAtOnce,
      PeaksAttributably floorConfig (.initial floorConfig (.any _)) hook := by decide +kernel
  obtain ⟨middle, stepped, ⟨⟩⟩ := Option.bind_eq_some_iff.1 ran
  exact ⟨hook, ran, (first_crossing_reports_iff rfl (by decide +kernel) (by decide) ran).2
    (fun _ => ⟨hook, stepped, .inl peaks⟩) (Code.serialSees_of_run ran peaks.2)⟩

/-! ### Climb mode -/

section

/-- Climb mode between two calls: the threshold is at most a step above the retained total. -/
structure ClimbState (config : Config) (peak : PeakState) : Prop where
  unsampled : peak.Unsampled
  climbing : peak.trackedPeakOnce = false
  open_ : peak.peakSnapshotFinal = false
  step : peak.peakRecordStepBytes = config.peakRecordStepBytes
  covered : peak.nextPeakRecordThreshold ≤
    nextPeakThreshold peak.peakListTot.toNat config.peakRecordStepBytes

theorem ClimbState.initial (chase : config.peakRetention = .chaseMax)
    (noFloor : config.backtraceDumpPeakVal = 0) : ClimbState config (.initial config) where
  unsampled := .initial config
  climbing := by simp [PeakState.initial, chase]
  open_ := rfl
  step := rfl
  covered := by simp [PeakState.initial, noFloor]

/-- A crossing with a live stack brings the retained total up to the peak, and the threshold with it. -/
theorem ClimbState.crossed {peak : PeakState} (climb : ClimbState config peak) {live : LiveTable}
    (total : live.peakTot = live.currentUsed) (stackTable : StackTable) (proc : PeakProcContext)
    (nowUs : Nat) :
    let kept := ((peak.withSnapshot config live stackTable proc nowUs).climb live).releaseProcRead
    ClimbState config kept ∧ kept.peakListTot = live.peakTot := by
  obtain ⟨-, listTot, step, final, once, unobserved⟩ :=
    peak.withSnapshot_members config live stackTable proc nowUs
  refine ⟨⟨⟨unobserved.trans climb.unsampled.unobserved, rfl⟩, once.trans climb.climbing,
    final.trans climb.open_, step.trans climb.step, ?_⟩, listTot.trans total.symm⟩
  change (if _ then _ else nextPeakThreshold live.peakTot.toNat _) ≤
    nextPeakThreshold (peak.withSnapshot config live stackTable proc nowUs).peakListTot.toNat _
  rw [step, climb.step, listTot, ← total]
  split
  · exact le_nextPeakThreshold _ _
  · exact Nat.le_refl _

/-- If the call takes the peak beyond the threshold, it leaves a live entry with a stack for the snapshot
code. -/
def CrossesWithStack (config : Config) (env : Environment (Option τ) ε) (hook : Hook (Option τ) ε)
    (call : HookCall τ) : Prop :=
  ∀ hook' ∈ (serialHook config env).step hook call,
    hook.peak.nextPeakRecordThreshold < hook'.live.peakTot → hook'.live.CarriesStack

instance (hook : Hook (Option τ) ε) (call : HookCall τ) :
    Decidable (CrossesWithStack config env hook call) :=
  Option.decidableForallMem _

/-- One call in climb mode: with a live stack the peak stays covered, and a call that crosses with one
keeps the threshold covered. -/
theorem ClimbState.call {hook hook' : Hook (Option τ) ε} {call : HookCall τ}
    (climb : ClimbState config hook.peak)
    (recording : config.has optionRecordMemoryPeak = true) (byProgram : call.thread.isSome = true)
    (stepped : (serialHook config env).step hook call = some hook') :
    (CrossesWithStack config env hook call → ClimbState config hook'.peak) ∧
      (hook.live.peakTot < hook'.live.peakTot → hook'.live.CarriesStack →
        hook'.live.peakTot ≤ nextPeakThreshold hook'.peak.peakListTot.toNat config.peakRecordStepBytes) := by
  rcases outcome_of_step climb.unsampled byProgram stepped with
    ⟨samePeakTot, samePeak⟩ | ⟨raised, total, stackTable, stalled, proc, nowUs, recorded⟩
  · rw [samePeak]
    exact ⟨fun _ => climb, fun raised => absurd raised (by omega)⟩
  · rw [hook.peak.recorded_eq stackTable stalled proc nowUs climb.unsampled recording] at recorded
    by_cases within : hook'.live.peakTot ≤ hook.peak.nextPeakRecordThreshold
    · rw [if_pos (.inr within)] at recorded
      rw [recorded]
      have covered := climb.covered
      exact ⟨fun _ => climb, fun _ _ => by omega⟩
    · rw [if_neg (by simp [climb.open_, within])] at recorded
      by_cases carries : hook'.live.CarriesStack
      · rw [if_pos carries, if_neg (by simp [climb.climbing])] at recorded
        obtain ⟨climb', listTot⟩ := climb.crossed total stackTable proc nowUs
        rw [recorded, listTot]
        have covered := le_nextPeakThreshold hook'.live.peakTot.toNat config.peakRecordStepBytes
        exact ⟨fun _ => climb', fun _ _ => by omega⟩
      · exact ⟨fun crosses => absurd (crosses hook' stepped (by omega)) carries,
          fun _ carries' => absurd carries' carries⟩

/-- In climb mode without a sampler, when every call so far that took the peak beyond the threshold left a
live stack: a call that raises the peak while a stack is live leaves a snapshot within a step of it.
(`Config::Init` sets no floor in climb mode.) -/
theorem snapshot_lag_bounded (chase : config.peakRetention = .chaseMax)
    (recording : config.has optionRecordMemoryPeak = true) (noFloor : config.backtraceDumpPeakVal = 0)
    {hook hook' : Hook (Option τ) ε} {call : HookCall τ} (reached : (serialHook config env).ReachableBy
      (fun hook call => call.thread.isSome = true ∧ CrossesWithStack config env hook call) hook)
    (byProgram : call.thread.isSome = true) (stepped : (serialHook config env).step hook call = some hook')
    (raised : hook.live.peakTot < hook'.live.peakTot) (carries : hook'.live.CarriesStack) :
    hook'.live.peakTot ≤ nextPeakThreshold hook'.peak.peakListTot.toNat config.peakRecordStepBytes := by
  have climb : ClimbState config hook.peak :=
    reached.invariant (P := fun hook => ClimbState config hook.peak) (.initial chase noFloor)
      fun climb allowed stepped => (climb.call recording allowed.1 stepped).1 allowed.2
  exact (climb.call recording byProgram stepped).2 raised carries

end

/-- A climbing peak with a step of 1 MiB. -/
def chaseConfig : Config where
  options := optionBacktrace ||| optionTrackAllocs ||| optionRecordMemoryPeak
  backtraceMinSizeBytes := 0
  backtraceMaxSizeBytes := sizeMax
  backtraceDumpPeakVal := 0
  peakRecordStepBytes := mebibyte
  peakRetention := .chaseMax

/-- A block of 4 MiB, with the stack given. -/
def firstBlock (stack : RawStackRecord) : HookCall Worker :=
  mallocCall 0x10000000 (4 * mebibyte) stack 8

/-- A block of half a MiB that raises the peak, but not beyond the threshold the first block left. -/
def secondBlock : HookCall Worker := mallocCall 0x20000000 (mebibyte / 2) (oneFrame 0x400) 2

/-- The capture of the first block returned no frame: the threshold moved to 5 MiB with nothing retained,
and the second block's peak of 4.5 MiB leaves no snapshot. -/
theorem stackless_crossing_outruns_snapshot :
    ∃ hook hook', (serialHook chaseConfig (.any (Option Worker))).run (.initial chaseConfig (.any _))
        [firstBlock default] = some hook ∧
      (serialHook chaseConfig (.any (Option Worker))).step hook secondBlock = some hook' ∧
      hook.live.peakTot < hook'.live.peakTot ∧ hook'.live.CarriesStack ∧
      ¬hook'.live.peakTot ≤
        nextPeakThreshold hook'.peak.peakListTot.toNat chaseConfig.peakRecordStepBytes := by
  obtain ⟨hook, ran, hook', stepped, outruns⟩ : ∃ hook ∈ (serialHook chaseConfig (.any (Option Worker))).run
      (.initial chaseConfig (.any _)) [firstBlock default],
      ∃ hook' ∈ (serialHook chaseConfig (.any (Option Worker))).step hook secondBlock,
        hook.live.peakTot < hook'.live.peakTot ∧ hook'.live.CarriesStack ∧ ¬hook'.live.peakTot ≤
          nextPeakThreshold hook'.peak.peakListTot.toNat chaseConfig.peakRecordStepBytes := by decide +kernel
  exact ⟨hook, hook', ran, stepped, outruns⟩

/-- With a stack on both blocks the snapshot of the first is within a step of the peak of the second. -/
theorem snapshot_lag_bounded_secondBlock :
    ∃ hook hook', (serialHook chaseConfig (.any (Option Worker))).run (.initial chaseConfig (.any _))
        [firstBlock (oneFrame 0x400)] = some hook ∧
      (serialHook chaseConfig (.any (Option Worker))).step hook secondBlock = some hook' ∧
      hook.live.peakTot < hook'.live.peakTot ∧ hook'.live.peakTot ≤
        nextPeakThreshold hook'.peak.peakListTot.toNat chaseConfig.peakRecordStepBytes := by
  obtain ⟨hook, ran, hook', stepped, raised, carries⟩ :
    ∃ hook ∈ (serialHook chaseConfig (.any (Option Worker))).run
      (.initial chaseConfig (.any _)) [firstBlock (oneFrame 0x400)],
      ∃ hook' ∈ (serialHook chaseConfig (.any (Option Worker))).step hook secondBlock,
        hook.live.peakTot < hook'.live.peakTot ∧ hook'.live.CarriesStack := by decide +kernel
  have respects : (serialHook chaseConfig (.any (Option Worker))).Respects
      (fun hook call => call.thread.isSome = true ∧ CrossesWithStack chaseConfig (.any _) hook call)
      (.initial chaseConfig (.any _)) [firstBlock (oneFrame 0x400)] := by decide +kernel
  exact ⟨hook, hook', ran, stepped, raised, snapshot_lag_bounded rfl (by decide +kernel) rfl
    (.of_run .init respects ran) rfl stepped raised carries⟩

end MallocHook
