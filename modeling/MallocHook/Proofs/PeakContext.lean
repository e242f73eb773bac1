/-
Module: MallocHook.Proofs.PeakContext
Purpose: To which snapshot the stored /proc context belongs. A failed read leaves the context of an
  earlier snapshot in place.
Trusted boundary: none
Main exports: ContextStep, ContextKept, peak_context_belongs
-/
import MallocHook.Proofs.NoDeadlock

namespace MallocHook

open List Function

/-- The members that the report labels `at_peak`. -/
structure PeakContext where
  rssKb : Nat := 0
  rssAnonKb : Nat := 0
  rssFileKb : Nat := 0
  rssShmemKb : Nat := 0
  mappings : List MappingRss := []
  totals : MappingTotals := ⟨0, 0, 0, 0⟩
  readStartUs : Nat := 0
  readEndUs : Nat := 0
deriving DecidableEq

/-- The context stored beside the peak. -/
def PeakState.context (peak : PeakState) : PeakContext where
  rssKb := peak.peakRssKb
  rssAnonKb := peak.peakRssAnonKb
  rssFileKb := peak.peakRssFileKb
  rssShmemKb := peak.peakRssShmemKb
  mappings := peak.peakMappings
  totals := peak.peakMapTotals
  readStartUs := peak.peakProcReadStartUs
  readEndUs := peak.peakProcReadEndUs

/-- The context one read of /proc makes. -/
def PeakProcContext.context (proc : PeakProcContext) : PeakContext where
  rssKb := proc.rss.vmRssKb
  rssAnonKb := proc.rss.anonKb
  rssFileKb := proc.rss.fileKb
  rssShmemKb := proc.rss.shmemKb
  mappings := proc.mappings
  totals := proc.totals
  readStartUs := proc.readStartUs
  readEndUs := proc.readEndUs

/-- The stored context is what the call that retained the current snapshot collected, or all of it is
empty. -/
def Tracker.ContextBelongs {θ : Type*} (tracker : Tracker θ) : Prop :=
  (∃ proc, (tracker.peak.peakSnapshotGeneration, proc) ∈ tracker.collected ∧
      tracker.peak.context = proc.context) ∨
    tracker.peak.context = {}

/-- The steps of a `RecordObservedPeak` up to the one that stores its context. -/
def TrackerOp.ofObservedPeak : TrackerOp → Bool
  | .recordObservedPeak _ | .activateObserved _ | .takeObserved _ | .settleObserved _ | .joinReader _
  | .testGeneration _ _ | .storeContext _ => true
  | _ => false

/-- The context with the times of another read. -/
def PeakContext.readAt (context : PeakContext) (proc : PeakProcContext) : PeakContext :=
  { context with readStartUs := proc.readStartUs, readEndUs := proc.readEndUs }

/-- Where a snapshot is retained with a read that failed, no older context is stored. A tracked snapshot
stores the times of its read all the same, so that there must be no figures besides; an observed one
stores nothing. -/
def TrackerOp.ReplacesNone {θ : Type*} (tracker : Tracker θ) : TrackerOp → Prop
  | .takeTracked proc _ => proc.rss.valid = true ∨ tracker.peak.context.readAt proc = proc.context ∨
      (getUniqueList tracker.live tracker.stackTable true).isEmpty = true
  | .storeContext proc => proc.rss.valid = true ∨ tracker.peak.context = {}
  | _ => True

instance {θ : Type*} (tracker : Tracker θ) (op : TrackerOp) : Decidable (op.ReplacesNone tracker) := by
  induction op using TrackerOp.casesOn <;> unfold TrackerOp.ReplacesNone <;> infer_instance

/-- No failed read is retained beside an older context. -/
def FailsClean {θ : Type*} (pool : TrackerPool θ) : Event θ TrackerCall TrackerInput → Prop
  | .call _ _ => True
  | .exec t _ => ∀ op ∈ (pool.todo t).head?, op.ReplacesNone pool.shared

instance {θ : Type*} (pool : TrackerPool θ) (event : Event θ TrackerCall TrackerInput) :
    Decidable (FailsClean pool event) := by
  induction event using Event.casesOn <;> unfold FailsClean <;> infer_instance

/-! ### What the functions of the peak do to the context -/

namespace PeakState

variable (peak : PeakState)

/-- The snapshot of a rung concerns neither the context nor the generation. -/
theorem context_pushStepSnapshot (config : Config) :
    (peak.pushStepSnapshot config).context = peak.context ∧
      (peak.pushStepSnapshot config).peakSnapshotGeneration = peak.peakSnapshotGeneration := by
  unfold pushStepSnapshot
  dsimp only
  split
  · exact ⟨rfl, rfl⟩
  · exact ⟨rfl, rfl⟩

theorem storeRss_generation (proc : PeakProcContext) :
    (peak.storeRss proc).peakSnapshotGeneration = peak.peakSnapshotGeneration := by
  unfold storeRss
  split
  · rfl
  · rfl

/-- A valid read replaces the whole context, and one that failed the times. -/
theorem context_store {proc : PeakProcContext}
    (clean : proc.rss.valid = true ∨ peak.context.readAt proc = proc.context) :
    ((peak.storeRss proc).storeReadInterval proc).context = proc.context := by
  unfold storeRss
  split
  · rfl
  · next failed => exact clean.resolve_left failed

variable {config : Config} {live : LiveTable} {stackTable : StackTable} {list : List ListInfo}
  {source : PeakSnapshotSource} {observed : Option ObservedMemSample} {nowUs : Nat}

/-- Every retained snapshot has a generation of its own. -/
theorem generation_retain (proc : Option PeakProcContext) :
    (peak.retain config live stackTable list source observed proc nowUs).peakSnapshotGeneration =
      peak.peakSnapshotGeneration + 1 := by
  cases proc with
  | none => exact (context_pushStepSnapshot _ config).2
  | some proc => exact (storeRss_generation _ proc).trans (context_pushStepSnapshot _ config).2

theorem context_retain_some {proc : PeakProcContext}
    (clean : proc.rss.valid = true ∨ peak.context.readAt proc = proc.context) :
    (peak.retain config live stackTable list source observed (some proc) nowUs).context = proc.context := by
  refine context_store _ (clean.imp_right fun same => (congrArg (PeakContext.readAt · proc) ?_).trans same)
  exact (context_pushStepSnapshot _ config).1

end PeakState

section

variable {θ : Type*} {config : Config} {t : θ} {tracker tracker' : Tracker θ} {input : TrackerInput}
  {op : TrackerOp} {next rest : List TrackerOp}

theorem Tracker.settle_context (tracker : Tracker θ) (retained : Bool) (peakNow : Int) :
    (tracker.settle retained peakNow).context = tracker.peak.context ∧
      (tracker.settle retained peakNow).peakSnapshotGeneration = tracker.peak.peakSnapshotGeneration := by
  unfold Tracker.settle
  split
  · split
    · exact ⟨rfl, rfl⟩
    · exact ⟨rfl, rfl⟩
  · exact ⟨rfl, rfl⟩

/-! ### What a step does to the context -/

/-- Context, generation and what was collected are as before. -/
structure SameContext (before after : Tracker θ) : Prop where
  context : after.peak.context = before.peak.context
  generation : after.peak.peakSnapshotGeneration = before.peak.peakSnapshotGeneration
  collected : after.collected = before.collected

theorem SameContext.refl : SameContext tracker tracker := ⟨rfl, rfl, rfl⟩

/-- The steps that carry a context or the generation it is for. -/
def TrackerOp.carries : TrackerOp → Bool
  | .retest _ | .takeTracked _ _ | .settleObserved (some _) | .joinReader _ | .testGeneration _ _
  | .storeContext _ => true
  | _ => false

/-- A step that is going to store the context of the current snapshot. -/
def TrackerOp.Owes (generation : Nat) : TrackerOp → Prop
  | .settleObserved snapshot => snapshot = some generation
  | .joinReader snapshotGeneration | .testGeneration _ snapshotGeneration => snapshotGeneration = generation
  | .storeContext _ => True
  | _ => False

/-- All that one step can do to context, generation and the steps that carry them. -/
inductive ContextStep (input : TrackerInput) (tracker : Tracker θ) :
    TrackerOp → Tracker θ → List TrackerOp → Prop where
  | quiet {op : TrackerOp} {tracker' : Tracker θ} {next : List TrackerOp}
    (same : SameContext tracker tracker')
      (done : ¬ op.Owes tracker.peak.peakSnapshotGeneration)
        (plain : ∀ later ∈ next, later.carries = false) :
      ContextStep input tracker op tracker' next
  | collected : ContextStep input tracker .collectContext tracker (lockAllShards ++ [.retest input.proc])
  | retested (proc : PeakProcContext) (peakNow : Int) :
      ContextStep input tracker (.retest proc) tracker [.acquire frameMutex, .takeTracked proc peakNow]
  | tookTracked {proc : PeakProcContext} {peakNow : Int} {tracker' : Tracker θ}
      (generation : tracker'.peak.peakSnapshotGeneration = tracker.peak.peakSnapshotGeneration + 1)
      (context : (TrackerOp.takeTracked proc peakNow).ReplacesNone tracker →
        tracker'.peak.context = proc.context)
      (recorded : tracker'.collected = (tracker'.peak.peakSnapshotGeneration, proc) :: tracker.collected) :
      ContextStep input tracker (.takeTracked proc peakNow) tracker'
        [.release frameMutex, .settleTracked true peakNow]
  | tookObserved {sample : ObservedMemSample} {tracker' : Tracker θ}
      (generation : tracker'.peak.peakSnapshotGeneration = tracker.peak.peakSnapshotGeneration + 1)
      (recorded : tracker'.collected = tracker.collected) :
      ContextStep input tracker (.takeObserved sample) tracker'
        [.release frameMutex, .settleObserved (some tracker'.peak.peakSnapshotGeneration)]
  | settled {snapshotGeneration : Nat} {tracker' : Tracker θ} (same : SameContext tracker tracker') :
      ContextStep input tracker (.settleObserved (some snapshotGeneration)) tracker'
        (unlockAllShards ++ [.joinReader snapshotGeneration])
  | joined {snapshotGeneration : Nat} {tracker' : Tracker θ} (peak : tracker'.peak = tracker.peak)
      (recorded : tracker'.collected = (snapshotGeneration, input.proc) :: tracker.collected) :
      ContextStep input tracker (.joinReader snapshotGeneration) tracker'
        (lockAllShards ++ [.testGeneration input.proc snapshotGeneration])
  | matched (proc : PeakProcContext) :
      ContextStep input tracker (.testGeneration proc tracker.peak.peakSnapshotGeneration) tracker
        [.acquire frameMutex, .storeContext proc]
  | stored {proc : PeakProcContext} {tracker' : Tracker θ}
      (generation : tracker'.peak.peakSnapshotGeneration = tracker.peak.peakSnapshotGeneration)
      (context : (TrackerOp.storeContext proc).ReplacesNone tracker →
        tracker'.peak.context = proc.context ∨ tracker'.peak.context = {})
      (recorded : tracker'.collected = tracker.collected) :
      ContextStep input tracker (.storeContext proc) tracker' (.release frameMutex :: unlockAllShards)

theorem plain_acquires (mutexes : List TrackerMutex) :
    ∀ later ∈ mutexes.map TrackerOp.acquire, later.carries = false := by
  simp [TrackerOp.carries]

theorem plain_releases (mutexes : List TrackerMutex) :
    ∀ later ∈ mutexes.map TrackerOp.release, later.carries = false := by
  simp [TrackerOp.carries]

theorem plain_append {first second : List TrackerOp} (one : ∀ later ∈ first, later.carries = false)
    (two : ∀ later ∈ second, later.carries = false) : ∀ later ∈ first ++ second, later.carries = false :=
  fun later member => (mem_append.1 member).elim (one later) (two later)

theorem plain_afterBacktrace (entry : Option NewEntry) (hashIndex : Nat) :
    ∀ later ∈ afterBacktrace entry hashIndex, later.carries = false := by
  unfold afterBacktrace
  cases entry with
  | none => simp
  | some entry =>
      simp only [Option.elim_some]
      split
      · simp
      · simp [TrackerOp.carries]

theorem plain_afterEntry (result : LiveTable.SectionResult) :
    ∀ later ∈ afterEntry result, later.carries = false := by
  unfold afterEntry
  apply plain_append
  · split
    · simp [TrackerOp.carries]
    · simp
  · split
    · simp [TrackerOp.carries]
    · simp

/-- A step that leaves the peak and what was collected alone and carries nothing. -/
theorem ContextStep.plain (peak : tracker'.peak = tracker.peak)
    (recorded : tracker'.collected = tracker.collected)
    (done : ¬ op.Owes tracker.peak.peakSnapshotGeneration) (plain : ∀ later ∈ next, later.carries = false) :
    ContextStep input tracker op tracker' next :=
  .quiet ⟨by rw [peak], by rw [peak], recorded⟩ done plain

theorem exec_context (executed : tracker.exec config t input op = some (tracker', next)) :
    ContextStep input tracker op tracker' next := by
  cases op
  case acquire =>
    simp only [Tracker.exec] at executed
    split at executed <;> cases executed
    exact .plain rfl rfl id (by simp)
  case rekey oldPointer newPointer newSize =>
    cases moved : tracker.live.remapSection oldPointer newPointer newSize with
    | none =>
        simp only [Tracker.exec, moved, Option.elim_none] at executed
        cases executed
        exact .plain rfl rfl id (plain_releases _)
    | some result =>
        simp only [Tracker.exec, moved, Option.elim_some] at executed
        cases executed
        exact .plain rfl rfl id (plain_append (plain_releases _) (plain_afterEntry result))
  all_goals cases executed
  case release => exact .plain rfl rfl id (by simp)
  case addBacktrace =>
    refine .plain rfl rfl id ?_
    split
    · simp [TrackerOp.carries]
    · exact plain_afterBacktrace _ _
  case intern => exact .plain rfl rfl id (forall_mem_cons.2 ⟨rfl, plain_afterBacktrace _ _⟩)
  case addEntry | takeEntry | restoreEntry | restore | dropReference =>
    exact .plain rfl rfl id (by simp [TrackerOp.carries])
  case store => exact .plain rfl rfl id (forall_mem_cons.2 ⟨rfl, plain_afterEntry _⟩)
  case take pointer dropsStack =>
    refine .plain rfl rfl id (forall_mem_cons.2 ⟨rfl, ?_⟩)
    cases (tracker.live.takeEntry pointer).1 with
    | none => simp
    | some info =>
        cases dropsStack with
        | true => simp [TrackerOp.carries]
        | false => simp
  case remap =>
    refine .plain rfl rfl id ?_
    split
    · simp
    · exact plain_append (plain_acquires _) (by simp [TrackerOp.carries])
  case removeBacktrace | checkObserved | testThreshold | recheckObserved =>
    refine .plain rfl rfl id ?_
    split <;> simp [TrackerOp.carries]
  case claim =>
    refine .quiet ⟨rfl, rfl, rfl⟩ id ?_
    split <;> simp [TrackerOp.carries]
  case collectContext => exact .collected
  case retest =>
    split
    · exact .plain rfl rfl id (plain_append (plain_releases _) (by simp [TrackerOp.carries]))
    · exact .retested _ _
  case takeTracked =>
    unfold takePeakSnapshotLocked
    dsimp only
    split
    · exact .plain rfl rfl id (by simp [TrackerOp.carries])
    · next listed =>
        refine .tookTracked (PeakState.generation_retain _ _) (fun clean => ?_) rfl
        exact PeakState.context_retain_some _ (clean.imp_right fun same => same.resolve_right listed)
  case settleTracked retained peakNow =>
    have kept := tracker.settle_context retained peakNow
    exact .quiet ⟨kept.1, kept.2, rfl⟩ id (plain_append (plain_releases _) (by simp [TrackerOp.carries]))
  case releaseClaim => exact .quiet ⟨rfl, rfl, rfl⟩ id (by simp)
  case recordObservedPeak =>
    refine .plain rfl rfl id ?_
    split
    · exact plain_append (plain_acquires _) (by simp [TrackerOp.carries])
    · simp
  case activateObserved => exact .quiet ⟨rfl, rfl, rfl⟩ id (by simp [TrackerOp.carries])
  case takeObserved =>
    unfold takePeakSnapshotLocked
    dsimp only
    split
    · exact .plain rfl rfl id (by simp [TrackerOp.carries])
    · exact .tookObserved (PeakState.generation_retain _ _) rfl
  case settleObserved snapshot =>
    have same (finishes : Bool) : SameContext tracker
        { tracker with peak := if finishes then tracker.peak.finalize else tracker.peak } := by
      cases finishes with
      | true => exact ⟨rfl, rfl, rfl⟩
      | false => exact .refl
    cases snapshot with
    | none => exact .quiet (same _) (by simp [TrackerOp.Owes]) (plain_append (plain_releases _) (by simp))
    | some snapshotGeneration => exact .settled (same _)
  case joinReader => exact .joined rfl rfl
  case testGeneration proc _ =>
    split
    · next current =>
        subst current
        exact .matched proc
    · next stale => exact .plain rfl rfl stale (plain_releases _)
  case storeContext proc =>
    cases valid : proc.rss.valid with
    | true =>
        exact .stored (PeakState.storeRss_generation _ proc)
          (fun _ => .inl (PeakState.context_store _ (.inl valid)))
          rfl
    | false => exact .stored rfl (fun clean => .inr (clean.resolve_left (by simp [valid]))) rfl
  case lockAll => exact .plain rfl rfl id (plain_append (plain_acquires _) (by simp [TrackerOp.carries]))
  case withAll => exact .plain rfl rfl id (forall_mem_cons.2 ⟨rfl, plain_releases _⟩)

/-! ### The invariant -/

def NoStore (ops : List TrackerOp) : Prop := ∀ proc, .storeContext proc ∉ ops

/-- A thread that is going to store a context does so next, but for `frame_mutex_`. -/
def StoresNext (ops : List TrackerOp) : Prop :=
  NoStore ops ∨ ∃ proc rest, NoStore rest ∧
    (ops = .storeContext proc :: rest ∨ ops = .acquire frameMutex :: .storeContext proc :: rest)

/-- What a step carries: contexts were collected for the generation they are stored under. -/
def TrackerOp.Fits (tracker : Tracker θ) : TrackerOp → Prop
  | .testGeneration proc snapshotGeneration => (snapshotGeneration, proc) ∈ tracker.collected
  | .storeContext proc => (tracker.peak.peakSnapshotGeneration, proc) ∈ tracker.collected
  | _ => True

/-- The stored context belongs to the current snapshot, or a call is on its way to store the one that
does. -/
structure ContextKept (tracker : Tracker θ) (todo : θ → List TrackerOp) : Prop where
  fits : ∀ t, ∀ op ∈ todo t, op.Fits tracker
  stores : ∀ t, StoresNext (todo t)
  belongs : tracker.ContextBelongs ∨ ∃ t, ∃ op ∈ todo t, op.Owes tracker.peak.peakSnapshotGeneration

theorem noStore_of_plain (plain : ∀ later ∈ next, later.carries = false) : NoStore next :=
  fun _ member => Bool.noConfusion (plain _ member)

theorem fits_of_plain (plain : op.carries = false) : op.Fits tracker := by
  cases op <;> trivial

theorem TrackerOp.Fits.mono (fits : op.Fits tracker)
    (collected : ∀ {entry}, entry ∈ tracker.collected → entry ∈ tracker'.collected)
    (current : tracker'.peak.peakSnapshotGeneration = tracker.peak.peakSnapshotGeneration ∨
      ∀ proc, op ≠ .storeContext proc) : op.Fits tracker' := by
  cases op with
  | testGeneration proc snapshotGeneration => exact collected fits
  | storeContext proc =>
      rcases current with same | other
      · change _ ∈ _
        rw [same]
        exact collected fits
      · exact absurd rfl (other proc)
  | _ => exact fits

theorem Tracker.ContextBelongs.mono (belongs : tracker.ContextBelongs)
    (context : tracker'.peak.context = tracker.peak.context)
    (generation : tracker'.peak.peakSnapshotGeneration = tracker.peak.peakSnapshotGeneration)
    (collected : ∀ {entry}, entry ∈ tracker.collected → entry ∈ tracker'.collected) :
    tracker'.ContextBelongs := by
  unfold Tracker.ContextBelongs
  rw [context, generation]
  exact belongs.imp_left fun ⟨proc, member, read⟩ => ⟨proc, collected member, read⟩

/-! ### One step of a thread -/

/-- The only step that puts a store in front of a thread. -/
theorem ContextStep.noStore (step : ContextStep input tracker op tracker' next) :
    NoStore next ∨
      ∃ proc generation, op = .testGeneration proc generation ∧
        next = [.acquire frameMutex, .storeContext proc] := by
  cases step with
  | quiet _ _ plain => exact .inl (noStore_of_plain plain)
  | matched proc => exact .inr ⟨proc, _, rfl, rfl⟩
  | collected | retested | tookTracked | tookObserved | settled | joined | stored =>
      left
      intro proc member
      simp [lockAllShards, unlockAllShards] at member

theorem StoresNext.step (stores : StoresNext (op :: rest))
    (step : ContextStep input tracker op tracker' next)
    (acquires : ∀ mutex, op = .acquire mutex → next = []) : StoresNext (next ++ rest) := by
  rcases stores with absent | ⟨proc, later, absent, pending | pending⟩
  · have absent : NoStore rest := fun proc member => absent proc (mem_cons_of_mem _ member)
    rcases step.noStore with noStore | ⟨proc, _, _, rfl⟩
    · exact .inl fun proc member => (mem_append.1 member).elim (noStore proc) (absent proc)
    · exact .inr ⟨proc, rest, absent, .inr rfl⟩
  · cases pending
    rcases step.noStore with noStore | ⟨_, _, other, _⟩
    · exact .inl fun proc member => (mem_append.1 member).elim (noStore proc) (absent proc)
    · cases other
  · cases pending
    cases acquires _ rfl
    exact .inr ⟨proc, later, absent, .inl rfl⟩

section

variable (step : ContextStep input tracker op tracker' next)
include step

section

variable (carried : op.Fits tracker)
include carried

/-- The steps that a step leaves to do carry what they should. -/
theorem ContextStep.fits : ∀ later ∈ next, later.Fits tracker' := by
  have append (first : List TrackerOp) {last : TrackerOp} (plain : ∀ later ∈ first, later.carries = false)
      (fits : last.Fits tracker') : ∀ later ∈ first ++ [last], later.Fits tracker' := by
    intro later member
    rcases mem_append.1 member with member | member
    · exact fits_of_plain (plain later member)
    · rw [mem_singleton.1 member]
      exact fits
  cases step with
  | quiet _ _ plain => exact fun later member => fits_of_plain (plain later member)
  | collected => exact append _ (plain_acquires _) trivial
  | retested | matched => exact append [.acquire frameMutex] (by simp [TrackerOp.carries]) carried
  | tookTracked | tookObserved => simp [TrackerOp.Fits]
  | settled => exact append _ (plain_releases _) trivial
  | joined peak recorded =>
      refine append _ (plain_acquires _) ?_
      change _ ∈ _
      rw [recorded]
      exact mem_cons_self
  | stored =>
      exact forall_mem_cons.2 ⟨trivial, fun later member => fits_of_plain (plain_releases _ later member)⟩

variable (clean : op.ReplacesNone tracker)
include clean

/-- A context that belongs keeps belonging or is owed by what the step leaves to do. -/
theorem ContextStep.belongs (belongs : tracker.ContextBelongs) :
    tracker'.ContextBelongs ∨ ∃ later ∈ next, later.Owes tracker'.peak.peakSnapshotGeneration := by
  cases step with
  | quiet same _ _ =>
      exact .inl (belongs.mono same.context same.generation (by rw [same.collected]; exact id))
  | collected | retested | matched => exact .inl belongs
  | tookTracked generation context recorded =>
      exact .inl (.inl ⟨_, by rw [recorded]; exact mem_cons_self, context clean⟩)
  | tookObserved => exact .inr ⟨_, mem_cons_of_mem _ mem_cons_self, rfl⟩
  | settled same => exact .inl (belongs.mono same.context same.generation (by rw [same.collected]; exact id))
  | joined peak recorded =>
      exact .inl (belongs.mono (by rw [peak]) (by rw [peak]) (by rw [recorded]; exact mem_cons_of_mem _))
  | stored generation context recorded =>
      exact .inl ((context clean).imp_left fun read =>
        ⟨_, by rw [generation, recorded]; exact carried, read⟩)

/-- A step that owes the context stores it or hands the debt on. -/
theorem ContextStep.pays (owes : op.Owes tracker.peak.peakSnapshotGeneration) :
    tracker'.ContextBelongs ∨ ∃ later ∈ next, later.Owes tracker'.peak.peakSnapshotGeneration := by
  cases step with
  | quiet _ done _ => exact absurd owes done
  | collected | retested | tookTracked | tookObserved => cases owes
  | settled same =>
      refine .inr ⟨_, mem_append_right _ mem_cons_self, ?_⟩
      rw [same.generation]
      exact Option.some.inj owes
  | joined peak recorded =>
      refine .inr ⟨_, mem_append_right _ mem_cons_self, ?_⟩
      rw [peak]
      exact owes
  | matched proc => exact .inr ⟨_, mem_cons_of_mem _ mem_cons_self, trivial⟩
  | stored generation context recorded =>
      exact .inl ((context clean).imp_left fun read =>
        ⟨_, by rw [generation, recorded]; exact carried, read⟩)

omit carried in
/-- A new snapshot comes with its context or with a step that owes it. -/
theorem ContextStep.renews :
    tracker'.peak.peakSnapshotGeneration = tracker.peak.peakSnapshotGeneration ∨
      (tracker'.ContextBelongs ∨ ∃ later ∈ next, later.Owes tracker'.peak.peakSnapshotGeneration) := by
  cases step with
  | quiet same _ _ | settled same => exact .inl same.generation
  | collected | retested | matched => exact .inl rfl
  | tookTracked _ context recorded =>
      exact .inr (.inl (.inl ⟨_, by rw [recorded]; exact mem_cons_self, context clean⟩))
  | tookObserved => exact .inr (.inr ⟨_, mem_cons_of_mem _ mem_cons_self, rfl⟩)
  | joined peak _ => exact .inl (by rw [peak])
  | stored generation _ _ => exact .inl generation

end

/-- The generation moves only in a section under all the mutexes. -/
theorem ContextStep.generation_locked :
    tracker'.peak.peakSnapshotGeneration = tracker.peak.peakSnapshotGeneration ∨
      (op.effect = .under (frameMutex :: shardMutexes.reverse) ∧ ∀ proc, op ≠ .storeContext proc) := by
  cases step with
  | quiet same _ _ | settled same => exact .inl same.generation
  | collected | retested | matched => exact .inl rfl
  | tookTracked | tookObserved => exact .inr ⟨rfl, fun _ other => by cases other⟩
  | joined peak _ => exact .inl (by rw [peak])
  | stored generation _ _ => exact .inl generation

theorem ContextStep.collected_subset {entry : Nat × PeakProcContext} (member : entry ∈ tracker.collected) :
    entry ∈ tracker'.collected := by
  cases step with
  | quiet same _ _ | settled same => rwa [same.collected]
  | collected | retested | matched => exact member
  | tookTracked _ _ recorded | joined _ recorded => rw [recorded]; exact mem_cons_of_mem _ member
  | tookObserved _ recorded | stored _ _ recorded => rwa [recorded]

end

/-! ### Runs -/

section

variable {pool pool' : TrackerPool θ} {event : Event θ TrackerCall TrackerInput}

/-- A thread that stores a context holds all shards already. -/
theorem holds_shards_of_storesNext {held : List TrackerMutex} {ops : List TrackerOp}
    (gives : TrackerGives held ops) (stores : StoresNext ops) (notNone : ¬ NoStore ops)
    {mutex : TrackerMutex} (shard : mutex ∈ shardMutexes.reverse) : mutex ∈ held := by
  rcases stores with absent | ⟨proc, rest, _, rfl | rfl⟩
  · exact absurd absent notNone
  · rw [gives.held_eq rfl]
    exact mem_cons_of_mem _ shard
  · cases gives with
    | acquire takes _ later =>
        cases takes
        have inside := later.held_eq rfl
        rw [(List.cons.inj inside).2]
        exact shard
    | release drops => cases drops
    | under runs => cases runs

/-- While a thread is in the section that retains a snapshot, no thread is about to store a context. -/
theorem noStore_of_locked (guarded : Guarded (trackerLocks config) pool)
    (stores : ∀ t, StoresNext (pool.todo t)) (pending : pool.todo t = op :: rest)
    (locked : op.effect = .under (frameMutex :: shardMutexes.reverse))
    (retains : ∀ proc, op ≠ .storeContext proc) (other : θ) : NoStore (pool.todo other) := by
  by_contra notNone
  have shard : shardMutex 0 ∈ shardMutexes.reverse := mem_reverse.2 (mem_map_of_mem (mem_finRange _))
  obtain ⟨held, owns, _, gives⟩ := guarded t
  obtain ⟨otherHeld, otherOwns, _, otherGives⟩ := guarded other
  -- Both threads would own the first shard.
  rw [pending] at gives
  have mine := (owns _).2 (by rw [gives.held_eq locked]; exact mem_cons_of_mem _ shard)
  have theirs := (otherOwns _).2 (holds_shards_of_storesNext otherGives (stores other) notNone shard)
  obtain rfl : t = other := Option.some.inj (mine.symm.trans theirs)
  have here := stores t
  rw [pending] at here notNone
  rcases here with absent | ⟨proc, later, _, same | same⟩
  · exact notNone absent
  · exact retains proc (List.cons.inj same).1
  · rw [(List.cons.inj same).1] at locked
    cases locked

variable [DecidableEq θ]

theorem ContextKept.call (kept : ContextKept pool.shared pool.todo) (idle : pool.todo t = [])
    (call : TrackerCall) : ContextKept pool.shared (Function.update pool.todo t [call.start]) where
  fits := by
    intro other op member
    by_cases same : other = t
    · subst same
      rw [update_self, mem_singleton] at member
      subst member
      cases call <;> trivial
    · rw [update_of_ne same] at member
      exact kept.fits other op member
  stores := by
    intro other
    by_cases same : other = t
    · subst same
      rw [update_self]
      exact .inl fun proc member => by cases call <;> cases mem_singleton.1 member
    · rw [update_of_ne same]
      exact kept.stores other
  belongs := by
    refine kept.belongs.imp_right fun ⟨other, op, member, owes⟩ => ⟨other, op, ?_, owes⟩
    have differs : other ≠ t := by
      rintro rfl
      rw [idle] at member
      cases member
    rwa [update_of_ne differs]

section

variable (guarded : Guarded (trackerLocks config) pool) (kept : ContextKept pool.shared pool.todo)
include guarded kept

theorem ContextKept.exec (pending : pool.todo t = op :: rest) (clean : op.ReplacesNone pool.shared)
    (executed : pool.shared.exec config t input op = some (tracker', next)) :
    ContextKept tracker' (Function.update pool.todo t (next ++ rest)) := by
  have step := exec_context executed
  have carried : op.Fits pool.shared := kept.fits t op (by rw [pending]; exact mem_cons_self)
  -- What other steps carry still fits: only a store would notice a new generation.
  have others {other : θ} {later : TrackerOp} (member : later ∈ pool.todo other) : later.Fits tracker' := by
    refine (kept.fits other later member).mono step.collected_subset ?_
    refine step.generation_locked.imp_right fun ⟨locked, retains⟩ proc same => ?_
    subst same
    exact noStore_of_locked guarded kept.stores pending locked retains other proc member
  have resting {later : TrackerOp} (member : later ∈ rest) : later ∈ pool.todo t := by
    rw [pending]
    exact mem_cons_of_mem _ member
  refine ⟨fun other later member => ?_, fun other => ?_, ?_⟩
  · by_cases same : other = t
    · subst same
      rw [update_self] at member
      rcases mem_append.1 member with new | old
      · exact step.fits carried later new
      · exact others (resting old)
    · rw [update_of_ne same] at member
      exact others member
  · by_cases same : other = t
    · subst same
      rw [update_self]
      have stores := kept.stores other
      rw [pending] at stores
      refine stores.step step fun mutex acquires => ?_
      subst acquires
      exact (exec_acquire rfl executed).1
    · rw [update_of_ne same]
      exact kept.stores other
  · have now (settled : tracker'.ContextBelongs ∨
        ∃ later ∈ next, later.Owes tracker'.peak.peakSnapshotGeneration) :
        tracker'.ContextBelongs ∨ ∃ other, ∃ later ∈ Function.update pool.todo t (next ++ rest) other,
          later.Owes tracker'.peak.peakSnapshotGeneration :=
      settled.imp_right fun ⟨later, member, owes⟩ =>
        ⟨t, later, by rw [update_self]; exact mem_append_left _ member, owes⟩
    rcases kept.belongs with belongs | ⟨other, later, member, owes⟩
    · exact now (step.belongs carried clean belongs)
    rcases step.renews clean with same | renewed
    · by_cases mine : other = t
      · subst mine
        rw [pending] at member
        rcases mem_cons.1 member with rfl | member
        · exact now (step.pays carried clean owes)
        · exact .inr ⟨other, later, by rw [update_self]; exact mem_append_right _ member,
            by rw [same]; exact owes⟩
      · exact .inr ⟨other, later, by rw [update_of_ne mine]; exact member, by rw [same]; exact owes⟩
    · exact now renewed

theorem ContextKept.step (clean : FailsClean pool event)
    (stepped : (MallocHook.tracker config).step pool event = some pool') :
    ContextKept pool'.shared pool'.todo := by
  rcases Code.step_call_or_exec stepped with
    ⟨t, call, ops, rfl, idle, started, rfl⟩ | ⟨t, input, op, rest, tracker', next, rfl,
      pending, executed, rfl⟩
  · cases started
    exact kept.call idle call
  · exact kept.exec guarded pending (clean op (by rw [pending]; rfl)) executed

end

/-- In every state that a run reaches in which no failed read is retained beside an older context. -/
theorem contextKept_of_reachable (reached : (MallocHook.tracker config).ReachableBy FailsClean pool) :
    ContextKept pool.shared pool.todo := by
  induction reached with
  | init =>
      refine ⟨fun t op member => ?_, fun t => .inl fun proc member => ?_, .inl (.inr rfl)⟩
      · exact absurd member not_mem_nil
      · exact absurd member not_mem_nil
  | step reached clean stepped ih => exact ih.step (tracker_guarded reached.reachable) clean stepped

/-- As long as no snapshot is retained with a failed read of /proc while an older context is stored:
whenever no `RecordObservedPeak` is in flight, the stored context is the one read by the call that
retained the current snapshot, or all of it is empty. -/
theorem peak_context_belongs (reached : (MallocHook.tracker config).ReachableBy FailsClean pool)
    (settled : ∀ t, ∀ op ∈ pool.todo t, op.ofObservedPeak = false) : pool.shared.ContextBelongs := by
  rcases (contextKept_of_reachable reached).belongs with belongs | ⟨t, op, member, owes⟩
  · exact belongs
  · have inFlight := settled t op member
    cases op with
    | settleObserved | joinReader | testGeneration | storeContext => cases inFlight
    | _ => cases owes

end

end

/-! ### Two snapshots, the second with a read that fails -/

/-- A stack to capture, and a read of /proc. -/
def procInput (rssKb : Nat) (valid : Bool) (readStartUs readEndUs : Nat) : TrackerInput where
  stack := ⟨.complete, 0, 0, [4096], by simp [kMaxAsyncRawFrames]⟩
  proc := ⟨⟨rssKb, 0, 0, 0, valid⟩, [], ⟨0, 0, 0, 0⟩, readStartUs, readEndUs⟩

def observedPeakConfig : Config where
  options := optionBacktrace ||| optionTrackAllocs ||| optionRecordMemoryPeak
  backtraceMinSizeBytes := 0
  backtraceMaxSizeBytes := 0
  backtraceDumpPeakVal := 1000000
  peakRecordStepBytes := 0
  peakRetention := .chaseMax

/-- An allocation, and a `RecordObservedPeak` from its beginning to its end for each input. -/
def recordTwice (first second : TrackerInput) : List (Event Unit TrackerCall TrackerInput) :=
  .call () (.add 4096 100 100 .host) :: List.replicate 9 (.exec () first) ++
    (.call () (.recordObservedPeak ⟨100, 0, 0, true⟩) :: List.replicate 267 (.exec () first)) ++
    (.call () (.recordObservedPeak ⟨200, 0, 0, true⟩) :: List.replicate 267 (.exec () second))

theorem peak_context_belongs_twice :
    ∃ pool : TrackerPool Unit, pool.shared.peak.peakSnapshotGeneration = 2 ∧
    pool.shared.peak.context.rssKb = 9 ∧ pool.shared.ContextBelongs := by
  let schedule := recordTwice (procInput 0 false 10 11) (procInput 9 true 20 21)
  obtain ⟨pool, ran, idle, generation, rss⟩ : ∃ pool ∈ (tracker observedPeakConfig).run
      (tracker observedPeakConfig).init
      schedule, pool.todo () = [] ∧ pool.shared.peak.peakSnapshotGeneration = 2 ∧
        pool.shared.peak.context.rssKb = 9 := by decide +kernel
  have respects : (tracker observedPeakConfig).Respects FailsClean
    (tracker observedPeakConfig).init schedule := by
    decide +kernel
  refine ⟨pool, generation, rss, peak_context_belongs (.of_run .init respects ran) fun t op member => ?_⟩
  rw [idle] at member
  cases member

/-- After a read that fails, the context of the first snapshot stands beside the second. -/
theorem peak_context_stale :
    ∃ pool : TrackerPool Unit, (tracker observedPeakConfig).Reachable pool ∧ (∀ t, pool.todo t = []) ∧
      pool.shared.peak.peakSnapshotSource = .observed ∧ ¬ pool.shared.ContextBelongs := by
  obtain ⟨pool, ran, idle, source, generation, context, collected⟩ :
    ∃ pool ∈ (tracker observedPeakConfig).run
      (tracker observedPeakConfig).init (recordTwice (procInput 7 true 10 11) (procInput 0 false 20 21)),
      pool.todo () = [] ∧ pool.shared.peak.peakSnapshotSource = .observed ∧
        pool.shared.peak.peakSnapshotGeneration = 2 ∧
        pool.shared.peak.context = (procInput 7 true 10 11).proc.context ∧
        pool.shared.collected = [(2, (procInput 0 false 20 21).proc),
          (1, (procInput 7 true 10 11).proc)] := by
    decide +kernel
  refine ⟨pool, .run .init ran, fun _ => idle, source, ?_⟩
  rintro (⟨proc, member, read⟩ | empty)
  · rw [generation, collected] at member
    obtain rfl : proc = (procInput 0 false 20 21).proc := by simpa using member
    rw [context] at read
    exact absurd read (by decide)
  · rw [context] at empty
    exact absurd empty (by decide)

end MallocHook
