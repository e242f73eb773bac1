/-
Module: MallocHook.Core.SampleSchedule
Purpose: When the sampler takes its next sample: past the slots that elapsed, and then past those that
  the duty cap forbids.
Trusted boundary: translation of NextSampleSchedule of backtrace/src/ObservedMemory.cpp and of its
  use in ObservedPeakSampler::Run
Main exports: SampleSchedule, gridInterval, nextSampleSchedule
-/
import Mathlib.Data.UInt

namespace MallocHook

/-- `SampleSchedule`. -/
structure SampleSchedule where
  nextDeadlineUs : UInt64 := 0
  skippedSlots : UInt64 := 0
  throttled : Bool := false
deriving DecidableEq, Repr

namespace SampleSchedule

/-- Skip slots of the grid. -/
def advance (schedule : SampleSchedule) (slots intervalUs : UInt64) : SampleSchedule :=
  { schedule with
    nextDeadlineUs := schedule.nextDeadlineUs + slots * intervalUs
    skippedSlots := schedule.skippedSlots + slots }

/-- Skip the slots that have elapsed. -/
def skipElapsed (nowUs intervalUs : UInt64) (schedule : SampleSchedule) : SampleSchedule :=
  if schedule.nextDeadlineUs < nowUs then
    schedule.advance ((nowUs - schedule.nextDeadlineUs) / intervalUs + 1) intervalUs
  else schedule

/-- The duty cap: skip the slots before `earliestUs`. -/
def capDuty (earliestUs intervalUs : UInt64) (schedule : SampleSchedule) : SampleSchedule :=
  if schedule.nextDeadlineUs < earliestUs then
    { schedule with throttled := true }.advance
      ((earliestUs - schedule.nextDeadlineUs + intervalUs - 1) / intervalUs) intervalUs
  else schedule

end SampleSchedule

/-- The interval of the grid: zero is read as one. -/
def gridInterval (intervalUs : UInt64) : UInt64 := if intervalUs = 0 then 1 else intervalUs

/-- `NextSampleSchedule`. -/
def nextSampleSchedule (previousDeadlineUs nowUs workUs intervalUs : UInt64) : SampleSchedule :=
  let intervalUs := gridInterval intervalUs
  let schedule : SampleSchedule := { nextDeadlineUs := previousDeadlineUs + intervalUs }
  (schedule.skipElapsed nowUs intervalUs).capDuty (nowUs + workUs) intervalUs

/-- What a round of `Run` passes besides the deadline: when its work was done, and how long it took. -/
structure SampleCall where
  nowUs : UInt64
  workUs : UInt64
deriving DecidableEq, Repr

/-- The schedules of successive rounds of `Run`, each with the deadline of the one before it. -/
def scheduleSamples (intervalUs : UInt64) : UInt64 → List SampleCall → List SampleSchedule
  | _, [] => []
  | deadlineUs, call :: later =>
      let schedule := nextSampleSchedule deadlineUs call.nowUs call.workUs intervalUs
      schedule :: scheduleSamples intervalUs schedule.nextDeadlineUs later

end MallocHook
