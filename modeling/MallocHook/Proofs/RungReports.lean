/-
Module: MallocHook.Proofs.RungReports
Purpose: Whether every retained rung gets a report of its own. The file is named by whole mebibytes
  while rungs can be 64 KiB apart.
Trusted boundary: none
Main exports: rungReport, step_reports_one_per_rung_iff
-/
import MallocHook.Lib.Scanf
import MallocHook.Core.StepReports
import MallocHook.Proofs.SerialSnapshots

namespace MallocHook

open List Function

/-! ### What a snapshot adds to the rungs -/

/-- The rungs are the same, or one more with something listed. -/
def GrowsByRung (peak peak' : PeakState) : Prop :=
  peak'.stepSnaps = peak.stepSnaps ∨
    ∃ snap : StepSnapshot, snap.list ≠ [] ∧ peak'.stepSnaps = peak.stepSnaps ++ [snap]

@[simp] theorem PeakState.storeRss_stepSnaps (peak : PeakState) (proc : PeakProcContext) :
    (peak.storeRss proc).stepSnaps = peak.stepSnaps := by
  unfold PeakState.storeRss
  split <;> rfl

/-- Climb mode adds the snapshot that is being retained. -/
theorem PeakState.pushStepSnapshot_grows (peak : PeakState) (config : Config) (listed : peak.peakList ≠ []) :
    GrowsByRung peak (peak.pushStepSnapshot config) := by
  unfold PeakState.pushStepSnapshot
  dsimp only
  split
  · exact .inr ⟨_, listed, rfl⟩
  · exact .inl rfl

section

variable (config : Config) (live : LiveTable) (stackTable : StackTable) (peak : PeakState)

theorem takePeakSnapshotLocked_grows (source : PeakSnapshotSource) (observed : Option ObservedMemSample)
    (proc : Option PeakProcContext) (nowUs : Nat) :
    GrowsByRung peak (takePeakSnapshotLocked config live stackTable source observed proc nowUs peak).2 := by
  unfold takePeakSnapshotLocked
  dsimp only
  split
  · exact .inl rfl
  · next nonempty =>
      have listed : getUniqueList live stackTable true ≠ [] := by simpa using nonempty
      let shown : PeakState := { peak with
        peakSnapshotGeneration := peak.peakSnapshotGeneration + 1
        peakSnapshotTimeUs := nowUs
        peakList := getUniqueList live stackTable true
        peakListHost := live.currentHost
        peakListDma := live.currentDma
        peakListTot := live.currentUsed }
      have pushed := PeakState.pushStepSnapshot_grows shown config listed
      cases proc with
      | none => exact pushed
      | some proc =>
          have stored : (peak.retain config live stackTable (getUniqueList live stackTable true)
            source observed (some proc) nowUs).stepSnaps = (shown.pushStepSnapshot config).stepSnaps :=
            PeakState.storeRss_stepSnaps _ proc
          unfold GrowsByRung
          rw [stored]
          exact pushed

theorem trackedSection_grows (stalled : Bool) (proc : PeakProcContext) (nowUs : Nat) :
    GrowsByRung peak (trackedSection config live stackTable stalled proc nowUs peak) := by
  have taken := takePeakSnapshotLocked_grows config live stackTable peak .tracked none (some proc) nowUs
  unfold trackedSection
  split
  · exact .inl rfl
  · split
    · exact .inl rfl
    · dsimp only
      split
      · split
        · exact taken
        · exact taken
      · exact taken

theorem observedSection_grows (sample : ObservedMemSample) (nowUs : Nat) :
    GrowsByRung peak (observedSection config live stackTable sample nowUs peak).2 := by
  have taken := takePeakSnapshotLocked_grows config live stackTable peak.activateObserved .observed
    (some sample) none nowUs
  unfold observedSection
  dsimp only
  split
  · exact taken
  · exact taken

end

/-! ### Interleavings -/

/-- Operations that lead to a snapshot or take one. -/
def Op.snapshots {θ : Type*} : Op θ → Bool
  | .peak .checkObserved | .peak .claim | .peak .recheckObserved | .peak (.trackedSection _)
  | .peak (.observedSection _) => true
  | _ => false

theorem NoPeak.not_snapshots {θ : Type*} {ops : List (Op θ)} (noPeak : NoPeak ops) :
    ∀ op ∈ ops, op.snapshots = false := by
  intro op member
  cases op with
  | peak peakOp => exact absurd rfl (noPeak _ member peakOp)
  | frame | shard | system | dma => rfl

section

variable {τ ε : Type*} [DecidableEq τ] {config : Config} {env : Environment (Option τ) ε}
  {t : Option τ} {hook hook' : Hook (Option τ) ε} {op : Op (Option τ)} {answer : Answer}
  {next : List (Op (Option τ))}

/-- What an operation does to the rungs: it leaves them alone, or it is a snapshot and adds one. -/
structure RungStep (config : Config) (hook hook' : Hook (Option τ) ε) (op : Op (Option τ))
    (next : List (Op (Option τ))) : Prop where
  grows : GrowsByRung hook.peak hook'.peak
  taken : hook'.peak.stepSnaps ≠ hook.peak.stepSnaps → op.snapshots = true
  leads : ∀ later ∈ next, later.snapshots = true →
    op.snapshots = true ∨ config.has optionRecordMemoryPeak = true

omit [DecidableEq τ] in
theorem RungStep.unchanged (same : hook'.peak.stepSnaps = hook.peak.stepSnaps)
    (noSnapshot : ∀ later ∈ next, later.snapshots = false) : RungStep config hook hook' op next where
  grows := .inl same
  taken differ := absurd same differ
  leads later member isSnapshot := by
    rw [noSnapshot later member] at isSnapshot
    cases isSnapshot

omit [DecidableEq τ] in
theorem execPeak_rungStep {peakOp : PeakOp}
    (executed : hook.execPeak config t answer peakOp = some (hook', next)) :
    RungStep config hook hook' (.peak peakOp) next := by
  cases peakOp
  all_goals simp only [Hook.execPeak] at executed
  case trackedSection proc =>
    split at executed <;> cases executed
    exact ⟨trackedSection_grows .., fun _ => rfl, fun _ _ _ => .inl rfl⟩
  case observedSection sample =>
    split at executed <;> cases executed
    exact ⟨observedSection_grows .., fun _ => rfl, fun _ _ _ => .inl rfl⟩
  case applyProcContext generation =>
    split at executed <;> cases executed
    apply RungStep.unchanged
    · unfold applyPeakProcContextLocked
      split
      · rfl
      · split
        · rfl
        · exact PeakState.storeRss_stepSnaps _ _
    · simp
  case testThreshold trackedTotal =>
    cases executed
    refine ⟨.inl rfl, fun differ => absurd rfl differ, fun later member _ => .inr ?_⟩
    split at member
    · next crosses =>
        rw [PeakState.crossesThreshold, Bool.and_eq_true] at crosses
        exact crosses.1
    · cases member
  case takeSample sample =>
    cases executed
    refine ⟨.inl rfl, fun differ => absurd rfl differ, fun later member isSnapshot => .inr ?_⟩
    split at member
    · split at member
      · next recording => exact recording
      · rw [mem_singleton.1 member] at isSnapshot
        cases isSnapshot
    · cases member
  case checkObserved | claim | recheckObserved =>
    cases executed
    exact ⟨.inl rfl, fun differ => absurd rfl differ, fun _ _ _ => .inl rfl⟩
  case unlockShards | releaseClaim | settle =>
    cases executed
    exact .unchanged rfl (by simp)

theorem execOp_rungStep (executed : execOp config env t hook op answer = some (hook', next)) :
    RungStep config hook hook' op next := by
  rcases execOp_cases executed with
    ⟨frameOp, rfl, framed⟩ | ⟨shardOp, live', rfl, -, sectioned, rfl⟩ |
      ⟨systemOp, world, rfl, -, rfl, rfl⟩ | ⟨peakOp, rfl, peaked⟩ | ⟨dmaOp, rfl, transacted⟩
  · cases framed
    exact .unchanged rfl (noPeak_frame _ _ _ _).not_snapshots
  · rcases shard_raises sectioned with ⟨-, noPeak⟩ | ⟨-, rest, rfl, noPeak⟩
    · exact .unchanged rfl noPeak.not_snapshots
    · exact .unchanged rfl (forall_mem_cons.2 ⟨rfl, noPeak.not_snapshots⟩)
  · exact .unchanged rfl (noPeak_system _ _ _).not_snapshots
  · exact execPeak_rungStep peaked
  · apply RungStep.unchanged _ (noPeak_dma transacted).not_snapshots
    rw [(execDma_frame transacted).2.2.1]

omit [DecidableEq τ] in
/-- No call starts with a snapshot. -/
theorem not_snapshots_startCall {request : Request (Option τ)}
    (started : startCall config t request = some next) : ∀ op ∈ next, op.snapshots = false := by
  cases t with
  | some worker => exact (noPeak_startCall rfl started).not_snapshots
  | none =>
      cases request with
      | sample sample =>
          cases started
          simp [startHooked, Op.snapshots]
      | _ => cases started

/-- Rungs list something, and there are rungs, or operations that lead to one, only while peaks are
recorded. -/
structure RungsRecorded (config : Config) (pool : HookPool τ ε) : Prop where
  listed : ∀ snap ∈ pool.shared.peak.stepSnaps, snap.list ≠ []
  recorded : pool.shared.peak.stepSnaps ≠ [] → config.has optionRecordMemoryPeak = true
  pending : ∀ t, ∀ op ∈ pool.todo t, op.snapshots = true → config.has optionRecordMemoryPeak = true

variable {pool pool' : HookPool τ ε} {event : HookEvent τ}

theorem RungsRecorded.step (sound : RungsRecorded config pool)
    (stepped : (hooked config env).step pool event = some pool') : RungsRecorded config pool' := by
  rcases Code.step_call_or_exec stepped with
    ⟨t, request, ops, -, idle, started, rfl⟩ | ⟨t, answer, op, rest, hook', next, rfl,
      pending, executed, rfl⟩
  · refine ⟨sound.listed, sound.recorded, fun other op member isSnapshot => ?_⟩
    by_cases here : other = t
    · subst here
      rw [Pool.setTodo_self] at member
      rw [not_snapshots_startCall started op member] at isSnapshot
      cases isSnapshot
    · rw [Pool.setTodo_other _ _ here] at member
      exact sound.pending other op member isSnapshot
  · have rung := execOp_rungStep executed
    have heads : ∀ later ∈ op :: rest, later.snapshots = true → config.has optionRecordMemoryPeak = true :=
      pending ▸ sound.pending t
    have current := heads op mem_cons_self
    refine ⟨fun snap member => ?_, fun some_ => ?_, fun other later member isSnapshot => ?_⟩
    · rcases rung.grows with same | ⟨added, listed, grown⟩
      · exact sound.listed snap (same ▸ member)
      · rcases mem_append.1 (grown ▸ member) with old | new
        · exact sound.listed snap old
        · rw [mem_singleton.1 new]
          exact listed
    · by_cases same : hook'.peak.stepSnaps = pool.shared.peak.stepSnaps
      · exact sound.recorded (same ▸ some_)
      · exact current (rung.taken same)
    · by_cases here : other = t
      · subst here
        simp only [update_self] at member
        rcases mem_append.1 member with fresh | old
        · exact (rung.leads later fresh isSnapshot).elim current id
        · exact heads later (mem_cons_of_mem _ old) isSnapshot
      · simp only [update_of_ne here] at member
        exact sound.pending other later member isSnapshot

theorem rungsRecorded_of_reachable (reached : (hooked config env).Reachable pool) :
    RungsRecorded config pool := by
  refine reached.invariant (P := RungsRecorded config) ?_ fun sound _ stepped => sound.step stepped
  exact ⟨fun _ member => absurd member not_mem_nil, fun some_ => absurd rfl some_,
    fun _ _ member => absurd member not_mem_nil⟩

end

/-! ### One report per rung -/

/-- The report of a rung: its list, and its totals. -/
def rungReport (snap : StepSnapshot) : DumpedReport where
  list := snap.list
  omitted := ⟨0, 0⟩
  hostUse := snap.host
  dmaUse := snap.dma
  snapshotTotal := some snap.tot

/-- There is a file for each rung, a different one for each, with its report, and no other file has
changed. -/
def OneReportPerRung (snaps : List StepSnapshot) (before after : Files) : Prop :=
  ∃ paths : List String, paths.Nodup ∧
    List.Forall₂ (fun path snap => after path = some (rungReport snap)) paths snaps ∧
    ∀ path, path ∉ paths → after path = before path

section

variable {name : StepSnapshot → String} {report : StepSnapshot → DumpedReport}

/-- The files after one report was written for each rung. -/
def written (name : StepSnapshot → String) (report : StepSnapshot → DumpedReport) (files : Files)
    (snaps : List StepSnapshot) : Files :=
  snaps.foldl (fun files snap => update files (name snap) (some (report snap))) files

theorem written_of_not_mem {snaps : List StepSnapshot} {path : String} (unnamed : path ∉ snaps.map name)
    (files : Files) : written name report files snaps path = files path := by
  induction snaps generalizing files with
  | nil => rfl
  | cons snap rest ih =>
      rw [map_cons, mem_cons, not_or] at unnamed
      exact (ih unnamed.2 _).trans (update_of_ne unnamed.1 _ _)

theorem written_of_nodup {snaps : List StepSnapshot} (distinct : (snaps.map name).Nodup) (files : Files)
    {snap : StepSnapshot} (member : snap ∈ snaps) :
    written name report files snaps (name snap) = some (report snap) := by
  induction snaps generalizing files with
  | nil => cases member
  | cons first rest ih =>
      obtain ⟨fresh, distinct⟩ := nodup_cons.1 distinct
      rcases mem_cons.1 member with rfl | later
      · exact (written_of_not_mem fresh _).trans (update_self ..)
      · exact ih distinct _ later

/-- There is a report for each rung exactly if no two have one name. -/
theorem written_one_per_rung_iff (snaps : List StepSnapshot) :
    (∀ files, OneReportPerRung snaps files (written name rungReport files snaps)) ↔
    (snaps.map name).Nodup := by
  constructor
  · intro onePer
    obtain ⟨paths, distinct, reports, -⟩ := onePer fun _ => none
    -- every report stands under a name of a rung, so there are enough names
    have named : paths ⊆ snaps.map name := by
      intro path member
      by_contra unnamed
      obtain ⟨i, inPaths, rfl⟩ := getElem_of_mem member
      have found := reports.get inPaths (reports.length_eq ▸ inPaths)
      rw [get_eq_getElem, written_of_not_mem unnamed] at found
      cases found
    have lengths : (snaps.map name).length ≤ paths.length := by
      rw [length_map, reports.length_eq]
    exact ((subperm_of_subset distinct named).perm_of_length_le lengths).nodup_iff.1 distinct
  · intro distinct files
    refine ⟨snaps.map name, distinct, ?_, fun path unnamed => written_of_not_mem unnamed files⟩
    rw [forall₂_map_left_iff, forall₂_same]
    exact fun snap member => written_of_nodup distinct files member

end

/-- The size in mebibytes is all of the name that differs. -/
theorem stepPath_inj {dumpPrefix : String} {a b : StepSnapshot} :
    stepPath dumpPrefix a = stepPath dumpPrefix b ↔ a.mebibytes = b.mebibytes := by
  rw [stepPath, stepPath, String.append_left_inj, String.append_right_inj,
    Nat.repr_eq_ofList_toDigits, Nat.repr_eq_ofList_toDigits, String.ofList_inj]
  exact (Scanf.toDigits_injective (by decide) (by decide)).eq_iff

section

variable {config : Config} {live : LiveTable} {stackTable : StackTable} {dumpPrefix : String}

/-- With peaks recorded and something listed, the report of a rung shows the rung. -/
theorem dumpLiveToFile_rung (recording : config.has optionRecordMemoryPeak = true) (peak : PeakState)
    {snap : StepSnapshot} (listed : snap.list ≠ []) :
    dumpLiveToFile config live stackTable (peak.pointAt snap) true = rungReport snap := by
  have shown : (peak.pointAt snap).peakList.isEmpty = false := isEmpty_eq_false_iff.2 listed
  simp only [dumpLiveToFile, recording, shown, Bool.and_self, Bool.not_false, if_true]
  rfl

theorem foldl_dumpStep_snd (snaps : List StepSnapshot) (peak : PeakState) (files : Files)
    (recording : snaps ≠ [] → config.has optionRecordMemoryPeak = true)
    (listed : ∀ snap ∈ snaps, snap.list ≠ [])
    (fits : ∀ snap ∈ snaps, (stepPath dumpPrefix snap).utf8ByteSize < kStepPathBytes) :
    (snaps.foldl (dumpStep config live stackTable (fun _ => true) dumpPrefix) (peak, files)).2 =
      written (stepPath dumpPrefix) rungReport files snaps := by
  induction snaps generalizing peak files with
  | nil => rfl
  | cons snap rest ih =>
      have recorded := recording (cons_ne_nil _ _)
      have opened : dumpStep config live stackTable (fun _ => true) dumpPrefix (peak, files) snap =
          (peak, update files (stepPath dumpPrefix snap) (some (rungReport snap))) := by
        rw [← dumpLiveToFile_rung recorded peak (listed snap mem_cons_self), dumpStep,
          if_neg (Nat.not_le.2 (fits snap mem_cons_self)), Bool.not_true, if_neg Bool.false_ne_true]
        rfl
      rw [foldl_cons, opened]
      exact ih peak _ (fun _ => recorded) (fun other member => listed other (mem_cons_of_mem _ member))
        fun other member => fits other (mem_cons_of_mem _ member)

end

/-- With paths that fit the buffer and opens that succeed, `DumpStepReports` leaves one report per rung
exactly if no two rungs have the same size in whole mebibytes; and it leaves the peak members as they were.
-/
theorem step_reports_one_per_rung_iff {τ ε : Type*} [DecidableEq τ] {config : Config}
    {env : Environment (Option τ) ε} {pool : HookPool τ ε} (reached : (hooked config env).Reachable pool)
    (dumpPrefix : String) (fits : ∀ snap ∈ pool.shared.peak.stepSnaps,
      (stepPath dumpPrefix snap).utf8ByteSize < kStepPathBytes) :
    ((∀ files, OneReportPerRung pool.shared.peak.stepSnaps files
        (dumpStepReports config pool.shared.live pool.shared.stackTable (fun _ => true) (some dumpPrefix)
          pool.shared.peak files).2) ↔
      (pool.shared.peak.stepSnaps.map StepSnapshot.mebibytes).Nodup) ∧
    ∀ files, (dumpStepReports config pool.shared.live pool.shared.stackTable (fun _ => true)
        (some dumpPrefix) pool.shared.peak files).1.retained = pool.shared.peak.retained := by
  have sound := rungsRecorded_of_reachable reached
  constructor
  · have names : (pool.shared.peak.stepSnaps.map (stepPath dumpPrefix)).Nodup ↔
        (pool.shared.peak.stepSnaps.map StepSnapshot.mebibytes).Nodup := by
      simp only [List.Nodup, pairwise_map, ne_eq, stepPath_inj]
    rw [← names, ← written_one_per_rung_iff]
    simp only [dumpStepReports, foldl_dumpStep_snd _ _ _ sound.recorded sound.listed fits]
  · intro files
    rw [dumpStepReports_fst]
    rfl

/-! ### Two climbs -/

/-- One thread allocates blocks of the given sizes, and each raises the peak beyond the threshold. -/
def climbRun (sizes : List Nat) : List (HookEvent Worker) :=
  sizes.zipIdx.flatMap fun block =>
    allocBlock (some .one) (0x10000000 * (block.2.toUInt64 + 1)) block.1 ++ proceed (some .one) 7

/-- Two rungs of 100 KiB each: both are called `0MB`, and the file shows the second one only. -/
theorem step_reports_share_a_file :
    ((hooked chaseConfig (.any (Option Worker))).run (hooked chaseConfig (.any (Option Worker))).init
        (climbRun [102400, 102400])).map (fun pool =>
      (pool.shared.peak.stepSnaps.map fun snap => (snap.tot, stepPath "report" snap),
        ((dumpStepReports chaseConfig pool.shared.live pool.shared.stackTable (fun _ => true)
          (some "report") pool.shared.peak fun _ => none).2 "report.step.0MB.txt").map
            DumpedReport.snapshotTotal)) =
      some ([(102400, "report.step.0MB.txt"), (204800, "report.step.0MB.txt")], some (some 204800)) := by
  decide +kernel

/-- Two rungs of 1 MiB each have a report each. -/
theorem step_reports_one_per_mebibyte :
    ∃ pool, (hooked chaseConfig (.any (Option Worker))).run
        (hooked chaseConfig (.any (Option Worker))).init (climbRun [mebibyte, mebibyte]) = some pool ∧
      pool.shared.peak.stepSnaps.length = 2 ∧
      ∀ files, OneReportPerRung pool.shared.peak.stepSnaps files
        (dumpStepReports chaseConfig pool.shared.live pool.shared.stackTable (fun _ => true)
          (some "report") pool.shared.peak files).2 := by
  obtain ⟨pool, ran, two, fits, distinct⟩ : ∃ pool ∈ (hooked chaseConfig (.any (Option Worker))).run
      (hooked chaseConfig (.any (Option Worker))).init (climbRun [mebibyte, mebibyte]),
      pool.shared.peak.stepSnaps.length = 2 ∧
        (∀ snap ∈ pool.shared.peak.stepSnaps, (stepPath "report" snap).utf8ByteSize < kStepPathBytes) ∧
        (pool.shared.peak.stepSnaps.map StepSnapshot.mebibytes).Nodup := by decide +kernel
  have reached := Machine.Reachable.run .init ran
  exact ⟨pool, ran, two, (step_reports_one_per_rung_iff reached "report" fits).1.2 distinct⟩

end MallocHook
