/-
Module: MallocHook.Core.StepReports
Purpose: The reports of climb mode: which list and totals a report prints, and the loop that prints one
  for each retained rung.
Trusted boundary: translation of PointerData::DumpStepReports and of the part of
  DumpLiveToFile that chooses the list and its totals; files are what was last written to a path
Main exports: DumpedReport, dumpLiveToFile, Files, stepPath
-/
import MallocHook.Core.PeakSnapshot

namespace MallocHook

/-- What a report says: the list, what was left out of it, the totals of the listed instant, and the
`snapshot_total` of its `process_peak` line. -/
structure DumpedReport where
  list : List ListInfo
  omitted : OmittedStats
  hostUse : Int
  dmaUse : Int
  snapshotTotal : Option Int
deriving DecidableEq, Repr

/-- `DumpLiveToFile`. -/
def dumpLiveToFile (config : Config) (live : LiveTable) (stackTable : StackTable) (peak : PeakState)
    (dumpPeak : Bool) : DumpedReport :=
  let peakRequested := config.has optionRecordMemoryPeak && dumpPeak
  let dumpingPeak := peakRequested && !peak.peakList.isEmpty
  let snapshotTotal := if peakRequested then some peak.peakListTot else none
  if dumpingPeak then
    { list := peak.peakList
      omitted := ⟨0, 0⟩
      hostUse := peak.peakListHost
      dmaUse := peak.peakListDma
      snapshotTotal := snapshotTotal }
  else
    let listed := getList live stackTable true liveListPred
    { list := listed.1
      omitted := listed.2
      hostUse := live.currentHost
      dmaUse := live.currentDma
      snapshotTotal := snapshotTotal }

/-- The reports on disk. -/
abbrev Files := String → Option DumpedReport

/-- `snap.tot >> 20`, of a `size_t`. -/
def StepSnapshot.mebibytes (snap : StepSnapshot) : Nat := (snap.tot % 2 ^ 64).toNat >>> 20

/-- `"%s.step.%zuMB.txt"`. -/
def stepPath (dumpPrefix : String) (snap : StepSnapshot) : String :=
  dumpPrefix ++ ".step." ++ snap.mebibytes.repr ++ "MB.txt"

/-- `sizeof(path)`. -/
def kStepPathBytes : Nat := 512

/-- The peak members that `DumpStepReports` points at a rung. -/
def PeakState.pointAt (peak : PeakState) (snap : StepSnapshot) : PeakState :=
  { peak with
    peakList := snap.list
    peakListHost := snap.host
    peakListDma := snap.dma
    peakListTot := snap.tot }

section

variable (config : Config) (live : LiveTable) (stackTable : StackTable) (opens : String → Bool)
  (dumpPrefix : String) (state : PeakState × Files)

/-- One round of `DumpStepReports`. `opens` says which paths `openat` opens; the report replaces what was
there. -/
def dumpStep (snap : StepSnapshot) : PeakState × Files :=
  let path := stepPath dumpPrefix snap
  if path.utf8ByteSize ≥ kStepPathBytes then state
  else if !opens path then state
  else
    let final : StepSnapshot :=
      ⟨state.1.peakList, state.1.peakListHost, state.1.peakListDma, state.1.peakListTot⟩
    let shown := state.1.pointAt snap
    (shown.pointAt final,
      Function.update state.2 path (some (dumpLiveToFile config live stackTable shown true)))

/-- `DumpStepReports`. -/
def dumpStepReports (dumpPrefix : Option String) (peak : PeakState) (files : Files) : PeakState × Files :=
  match dumpPrefix with
  | none => (peak, files)
  | some dumpPrefix =>
      let dumped := peak.stepSnaps.foldl (dumpStep config live stackTable opens dumpPrefix) (peak, files)
      ({ dumped.1 with stepSnaps := [], stepSnapsBytes := 0 }, dumped.2)

/-- Whatever a round does to the files, it leaves the peak members as they were. -/
theorem dumpStep_fst (snap : StepSnapshot) :
    (dumpStep config live stackTable opens dumpPrefix state snap).1 = state.1 := by
  unfold dumpStep
  dsimp only
  split
  · rfl
  · split <;> rfl

theorem foldl_dumpStep_fst (snaps : List StepSnapshot) :
    (snaps.foldl (dumpStep config live stackTable opens dumpPrefix) state).1 = state.1 := by
  induction snaps generalizing state with
  | nil => rfl
  | cons snap rest ih =>
      rw [List.foldl_cons, ih]
      exact dumpStep_fst config live stackTable opens dumpPrefix state snap

/-- A run of the loop forgets the rungs and changes no other peak member. -/
theorem dumpStepReports_fst (peak : PeakState) (files : Files) :
    (dumpStepReports config live stackTable opens (some dumpPrefix) peak files).1 =
      { peak with stepSnaps := [], stepSnapsBytes := 0 } := by
  simp only [dumpStepReports, foldl_dumpStep_fst]

end

end MallocHook
