/-
Module: MallocHook.Proofs.SampleGrid
Purpose: The deadlines of the sampler: as long as no sum wraps, each is the first slot of the grid that
  leaves as much time as the sample took.
Trusted boundary: none
Main exports: nextSampleSchedule_spec, sample_schedule_grid
-/
import MallocHook.Lib.Grid
import MallocHook.Core.SampleSchedule

namespace MallocHook

open Grid List
open UInt64 (lt_iff_toNat_lt toNat_add toNat_div toNat_sub_of_le)

/-! ### One round -/

namespace SampleSchedule

variable {schedule : SampleSchedule} {interval slots : UInt64}

/-- Skipping slots without overflow. -/
theorem advance_spec (fits : schedule.nextDeadlineUs.toNat + slots.toNat * interval.toNat < 2 ^ 64) :
    (schedule.advance slots interval).nextDeadlineUs.toNat =
        schedule.nextDeadlineUs.toNat + slots.toNat * interval.toNat ∧
      (schedule.advance slots interval).skippedSlots = schedule.skippedSlots + slots := by
  refine ⟨?_, rfl⟩
  rw [advance, toNat_add, UInt64.toNat_mul, Nat.add_mod_mod, Nat.mod_eq_of_lt fits]

/-- The slots that the cadence skips. -/
def elapsedSlots (base interval now : Nat) : Nat := if base < now then stepsTo base interval (now + 1) else 0

theorem skipElapsed_spec (schedule : SampleSchedule) (now : UInt64) (pos : 0 < interval.toNat)
    (fits : schedule.nextDeadlineUs.toNat +
      elapsedSlots schedule.nextDeadlineUs.toNat interval.toNat now.toNat * interval.toNat < 2 ^ 64) :
    ∃ slots : UInt64, slots.toNat = elapsedSlots schedule.nextDeadlineUs.toNat interval.toNat now.toNat ∧
      (schedule.skipElapsed now interval).nextDeadlineUs.toNat =
        schedule.nextDeadlineUs.toNat + slots.toNat * interval.toNat ∧
      (schedule.skipElapsed now interval).skippedSlots = schedule.skippedSlots + slots ∧
      (schedule.skipElapsed now interval).throttled = schedule.throttled := by
  unfold skipElapsed
  unfold elapsedSlots at fits ⊢
  by_cases late : schedule.nextDeadlineUs < now
  · have lateNat := lt_iff_toNat_lt.1 late
    rw [if_pos lateNat] at fits ⊢
    have slotsLe : stepsTo schedule.nextDeadlineUs.toNat interval.toNat (now.toNat + 1) < 2 ^ 64 :=
      (Nat.le_mul_of_pos_right _ pos).trans_lt (by omega)
    have slots : ((now - schedule.nextDeadlineUs) / interval + 1).toNat =
        stepsTo schedule.nextDeadlineUs.toNat interval.toNat (now.toNat + 1) := by
      rw [← stepsTo_succ pos lateNat.le] at slotsLe ⊢
      rw [toNat_add, toNat_div, toNat_sub_of_le _ _ (UInt64.le_of_lt late)]
      exact Nat.mod_eq_of_lt slotsLe
    rw [if_pos late]
    rw [← slots] at fits
    exact ⟨_, slots, (advance_spec fits).1, rfl, rfl⟩
  · rw [if_neg late, if_neg (lt_iff_toNat_lt.not.1 late)]
    exact ⟨0, rfl, by simp, by simp, rfl⟩

theorem capDuty_spec (schedule : SampleSchedule) (earliest : UInt64) (pos : 0 < interval.toNat)
    (first : interval.toNat ≤ schedule.nextDeadlineUs.toNat) (fits : schedule.nextDeadlineUs.toNat +
      stepsTo schedule.nextDeadlineUs.toNat interval.toNat earliest.toNat * interval.toNat < 2 ^ 64) :
    ∃ slots : UInt64, slots.toNat = stepsTo schedule.nextDeadlineUs.toNat interval.toNat earliest.toNat ∧
      (schedule.capDuty earliest interval).nextDeadlineUs.toNat =
        schedule.nextDeadlineUs.toNat + slots.toNat * interval.toNat ∧
      (schedule.capDuty earliest interval).skippedSlots = schedule.skippedSlots + slots ∧
      (schedule.capDuty earliest interval).throttled =
        (decide (schedule.nextDeadlineUs.toNat < earliest.toNat) || schedule.throttled) := by
  unfold capDuty
  by_cases early : schedule.nextDeadlineUs < earliest
  · have earlyNat := lt_iff_toNat_lt.1 early
    have slots : ((earliest - schedule.nextDeadlineUs + interval - 1) / interval).toNat =
        stepsTo schedule.nextDeadlineUs.toNat interval.toNat earliest.toNat := by
      -- the deadline is at least one interval, so that the sum stays below `earliest`
      have bound := earliest.toNat_lt
      have one : (1 : UInt64).toNat = 1 := rfl
      have difference := toNat_sub_of_le _ _ (UInt64.le_of_lt early)
      have sum : (earliest - schedule.nextDeadlineUs + interval).toNat =
          earliest.toNat - schedule.nextDeadlineUs.toNat + interval.toNat := by
        rw [toNat_add, difference]
        exact Nat.mod_eq_of_lt (by omega)
      have least : (1 : UInt64) ≤ earliest - schedule.nextDeadlineUs + interval := by
        rw [UInt64.le_iff_toNat_le, sum]
        omega
      rw [toNat_div, toNat_sub_of_le _ _ least, sum, one, stepsTo]
    rw [if_pos early, decide_eq_true earlyNat]
    rw [← slots] at fits
    exact ⟨_, slots, (advance_spec fits).1, rfl, rfl⟩
  · have notEarly := lt_iff_toNat_lt.not.1 early
    rw [if_neg early, decide_eq_false notEarly]
    exact ⟨0, (stepsTo_eq_zero pos (Nat.le_of_not_lt notEarly)).symm, by simp, by simp, rfl⟩

end SampleSchedule

/-- The slot the cadence alone would choose: the one after the previous deadline, or the first one after
`now`. -/
def IsCadenceSlot (previous interval now slot : Nat) : Prop :=
  if now ≤ previous + interval then slot = previous + interval
  else IsLeast {slot | now < slot ∧ ∃ k, slot = previous + k * interval} slot

theorem gridInterval_pos (intervalUs : UInt64) : 0 < (gridInterval intervalUs).toNat := by
  unfold gridInterval
  split_ifs with zero
  · decide
  · exact Nat.pos_of_ne_zero fun same => zero (UInt64.toNat_inj.1 same)

/-- What the elapsed slots lead to. -/
theorem isCadenceSlot_elapsed {previous interval now : Nat} (pos : 0 < interval) :
    IsCadenceSlot previous interval now
      (previous + interval + SampleSchedule.elapsedSlots (previous + interval) interval now * interval) := by
  unfold IsCadenceSlot SampleSchedule.elapsedSlots
  by_cases inTime : now ≤ previous + interval
  · rw [if_pos inTime, if_neg (by omega), Nat.zero_mul, Nat.add_zero]
  · rw [if_neg inTime, if_pos (by omega)]
    -- the slots are counted from the deadline after the previous one
    have shift : stepsTo (previous + 1 * interval) interval (now + 1) = stepsTo previous interval
      (now + 1) - 1 :=
      stepsTo_advance pos 1
    have later : 1 ≤ stepsTo previous interval (now + 1) :=
      Nat.pos_of_ne_zero fun noStep => inTime <| by
        have reached : now + 1 ≤ previous + stepsTo previous interval (now + 1) * interval := le_stepsTo pos
        rw [noStep] at reached
        omega
    rw [Nat.one_mul] at shift
    have point : previous + interval + (stepsTo previous interval (now + 1) - 1) * interval =
        previous + stepsTo previous interval (now + 1) * interval := by
      rw [Nat.add_assoc, Nat.add_comm interval, ← Nat.succ_mul, Nat.succ_eq_add_one,
        Nat.sub_add_cancel later]
    rw [shift, point]
    exact isLeast_point pos

/-- One round: the first slot after the previous deadline that is not before `now + work`. -/
theorem nextSampleSchedule_spec {previous now work intervalUs : UInt64} (worked : 0 < work)
    (sumFits : now.toNat + work.toNat < 2 ^ 64) : let interval := (gridInterval intervalUs).toNat
    let slots := stepsTo (previous.toNat + interval) interval (now.toNat + work.toNat)
    let schedule := nextSampleSchedule previous now work intervalUs
    previous.toNat + (slots + 1) * interval < 2 ^ 64 →
      schedule.nextDeadlineUs.toNat = previous.toNat + (slots + 1) * interval ∧
        schedule.skippedSlots.toNat = slots ∧
      ∃ slot, IsCadenceSlot previous.toNat interval now.toNat slot ∧
        (schedule.throttled = true ↔ slot < now.toNat + work.toNat) := by
  intro interval slots schedule fits
  have pos : 0 < interval := gridInterval_pos intervalUs
  have split : previous.toNat + (slots + 1) * interval = previous.toNat + interval + slots * interval := by
    rw [Nat.add_mul, Nat.one_mul, Nat.add_assoc, Nat.add_comm interval]
  rw [split] at fits ⊢
  let start : SampleSchedule := { nextDeadlineUs := previous + gridInterval intervalUs }
  have startNat : start.nextDeadlineUs.toNat = previous.toNat + interval := by
    rw [toNat_add]
    exact Nat.mod_eq_of_lt (by omega)
  have earliest : (now + work).toNat = now.toNat + work.toNat := by
    rw [toNat_add]
    exact Nat.mod_eq_of_lt sumFits
  let elapsed := SampleSchedule.elapsedSlots (previous.toNat + interval) interval now.toNat
  have elapsedLe : elapsed ≤ slots := by
    have : 0 < work.toNat := lt_iff_toNat_lt.1 worked
    show SampleSchedule.elapsedSlots _ _ _ ≤ _
    unfold SampleSchedule.elapsedSlots
    split_ifs
    · exact stepsTo_mono pos (by omega)
    · exact Nat.zero_le _
  have elapsedFits : previous.toNat + interval + elapsed * interval < 2 ^ 64 :=
    (Nat.add_le_add_left (Nat.mul_le_mul_right _ elapsedLe) _).trans_lt fits
  obtain ⟨skipped, isSkipped, deadline, counted, unthrottled⟩ :=
    SampleSchedule.skipElapsed_spec start now pos (by rw [startNat]; exact elapsedFits)
  rw [startNat] at isSkipped deadline
  have left : stepsTo (start.skipElapsed now (gridInterval intervalUs)).nextDeadlineUs.toNat interval
      (now.toNat + work.toNat) = slots - elapsed := by
    rw [deadline, isSkipped]
    exact stepsTo_advance pos elapsed
  have whole : previous.toNat + interval + skipped.toNat * interval + (slots - elapsed) * interval =
      previous.toNat + interval + slots * interval := by
    rw [Nat.add_assoc, ← Nat.add_mul, isSkipped]
    exact congrArg (_ + · * interval) (Nat.add_sub_cancel' elapsedLe)
  obtain ⟨capped, isCapped, deadline', counted', throttled⟩ :=
    SampleSchedule.capDuty_spec (start.skipElapsed now (gridInterval intervalUs)) (now + work) pos
      (by rw [deadline]; omega) (by rw [earliest, left, deadline]; exact whole ▸ fits)
  rw [earliest, left] at isCapped
  refine ⟨?_, ?_, _, isCadenceSlot_elapsed pos, ?_⟩
  · rw [← whole, ← isCapped, ← deadline]
    exact deadline'
  · have sum : schedule.skippedSlots = 0 + skipped + capped := by
      rw [← show start.skippedSlots = 0 from rfl, ← counted]
      exact counted'
    have total : skipped.toNat + capped.toNat = slots := by
      rw [isSkipped, isCapped]
      exact Nat.add_sub_cancel' elapsedLe
    have slotsLt : slots < 2 ^ 64 := (Nat.le_mul_of_pos_right _ pos).trans_lt (by omega)
    rw [sum, UInt64.zero_add, toNat_add, total, Nat.mod_eq_of_lt slotsLt]
  · rw [show schedule.throttled = _ from throttled, unthrottled, earliest, deadline,
      isSkipped, Bool.or_false,
      decide_eq_true_eq]

/-! ### Successive rounds -/

/-- The sums of a call stay below `2 ^ 64`: the end of the work plus its duration, and the deadline. -/
def SumsFit (intervalUs previous : UInt64) (call : SampleCall) : Prop :=
  call.nowUs.toNat + call.workUs.toNat < 2 ^ 64 ∧
    ∀ k, IsLeast {k | 1 ≤ k ∧ call.nowUs.toNat + call.workUs.toNat ≤
        previous.toNat + k * (gridInterval intervalUs).toNat} k →
      previous.toNat + k * (gridInterval intervalUs).toNat < 2 ^ 64

/-- Every call is made after some work, and its sums stay below `2 ^ 64`. -/
def CallsFit (intervalUs : UInt64) : UInt64 → List SampleCall → Prop
  | _, [] => True
  | previous, call :: later =>
      0 < call.workUs ∧ SumsFit intervalUs previous call ∧
        CallsFit intervalUs (nextSampleSchedule previous call.nowUs call.workUs intervalUs).nextDeadlineUs
          later

/-- One round moves the deadline by the skipped slots and one more. -/
theorem nextSampleSchedule_moves {intervalUs previous : UInt64} {call : SampleCall}
    (worked : 0 < call.workUs) (fits : SumsFit intervalUs previous call) :
    (nextSampleSchedule previous call.nowUs call.workUs intervalUs).nextDeadlineUs.toNat = previous.toNat +
      ((nextSampleSchedule previous call.nowUs call.workUs intervalUs).skippedSlots.toNat + 1) *
        (gridInterval intervalUs).toNat := by
  obtain ⟨sumFits, deadlineFits⟩ := fits
  obtain ⟨deadline, skipped, _⟩ := nextSampleSchedule_spec worked sumFits
    (deadlineFits _ (isLeast_stepsTo (gridInterval_pos intervalUs)))
  rw [deadline, skipped]

/-- All rounds: the deadlines are on the grid and increase, and the last is as many slots on as there were
skipped slots and calls. -/
theorem scheduleSamples_spec {intervalUs first : UInt64} {calls : List SampleCall}
    (fit : CallsFit intervalUs first calls) :
    (∀ schedule ∈ scheduleSamples intervalUs first calls,
      ∃ k, schedule.nextDeadlineUs.toNat = first.toNat + k * (gridInterval intervalUs).toNat) ∧
    (first :: (scheduleSamples intervalUs first calls).map SampleSchedule.nextDeadlineUs).Pairwise (· < ·) ∧
    (((scheduleSamples intervalUs first calls).map SampleSchedule.nextDeadlineUs).getLastD first).toNat =
      first.toNat + (((scheduleSamples intervalUs first calls).map fun schedule =>
      schedule.skippedSlots.toNat).sum + calls.length) * (gridInterval intervalUs).toNat := by
  have pos := gridInterval_pos intervalUs
  induction calls generalizing first with
  | nil => simp [scheduleSamples]
  | cons call later ih =>
      obtain ⟨worked, fits, fitLater⟩ := fit
      obtain ⟨onGrid, increasing, passed⟩ := ih fitLater
      have moves := nextSampleSchedule_moves worked fits
      unfold scheduleSamples
      generalize nextSampleSchedule first call.nowUs call.workUs intervalUs = schedule at *
      have after : first < schedule.nextDeadlineUs := by
        rw [lt_iff_toNat_lt, moves, Nat.succ_mul]
        omega
      refine ⟨forall_mem_cons.2 ⟨⟨_, moves⟩, fun other member => ?_⟩, ?_, ?_⟩
      · obtain ⟨k, onGrid⟩ := onGrid other member
        exact ⟨schedule.skippedSlots.toNat + 1 + k, by rw [onGrid, moves, Nat.add_assoc, ← Nat.add_mul]⟩
      · rw [map_cons, pairwise_cons]
        refine ⟨forall_mem_cons.2 ⟨after, fun deadline member => ?_⟩, increasing⟩
        exact UInt64.lt_trans after (rel_of_pairwise_cons increasing member)
      · rw [map_cons, getLastD_cons, passed, moves, Nat.add_assoc, ← Nat.add_mul]
        simp only [map_cons, sum_cons, length_cons]
        congr 2
        omega

/-- As long as sums stay below `2 ^ 64`: the next deadline is the first slot after the previous one that
is not before the end of the work plus its duration, and the round counts as throttled exactly if the
cadence alone would have chosen an earlier slot. Over any calls the deadlines stay on the grid and
increase, and the skipped slots and the calls are the slots that were passed. -/
theorem sample_schedule_grid (intervalUs : UInt64) :
    (∀ previous now work : UInt64, 0 < work → now.toNat + work.toNat < 2 ^ 64 →
      ∃ k, IsLeast {k | 1 ≤ k ∧ now.toNat + work.toNat ≤ previous.toNat + k *
      (gridInterval intervalUs).toNat} k ∧
        (previous.toNat + k * (gridInterval intervalUs).toNat < 2 ^ 64 →
          (nextSampleSchedule previous now work intervalUs).nextDeadlineUs.toNat =
            previous.toNat + k * (gridInterval intervalUs).toNat ∧
          (nextSampleSchedule previous now work intervalUs).skippedSlots.toNat = k - 1 ∧
          ∃ slot, IsCadenceSlot previous.toNat (gridInterval intervalUs).toNat now.toNat slot ∧
            ((nextSampleSchedule previous now work intervalUs).throttled = true ↔
            slot < now.toNat + work.toNat))) ∧
    ∀ (first : UInt64) (calls : List SampleCall), CallsFit intervalUs first calls →
      (∀ schedule ∈ scheduleSamples intervalUs first calls,
        ∃ k, schedule.nextDeadlineUs.toNat = first.toNat + k * (gridInterval intervalUs).toNat) ∧
      (first :: (scheduleSamples intervalUs first calls).map SampleSchedule.nextDeadlineUs).Pairwise
      (· < ·) ∧
      (((scheduleSamples intervalUs first calls).map SampleSchedule.nextDeadlineUs).getLastD first).toNat =
        first.toNat + (((scheduleSamples intervalUs first calls).map fun schedule =>
        schedule.skippedSlots.toNat).sum + calls.length) * (gridInterval intervalUs).toNat := by
  constructor
  · intro previous now work worked sumFits
    exact ⟨_, isLeast_stepsTo (gridInterval_pos intervalUs), nextSampleSchedule_spec worked sumFits⟩
  · intro first calls fit
    exact scheduleSamples_spec fit

/-- A sample that overran two slots, and one that took longer than two intervals. -/
theorem sample_schedule_grid_slow :
    (∃ slot, IsCadenceSlot 1400 100 1400 slot ∧
      ((nextSampleSchedule 1400 1400 250 100).throttled = true ↔ slot < 1650)) ∧
    (((scheduleSamples 100 1100 [⟨1350, 30⟩, ⟨1400, 250⟩]).map SampleSchedule.nextDeadlineUs).getLastD
      1100).toNat =
      1100 + ((2 + 2) + 2) * 100 := by
  have interval : (gridInterval 100).toNat = 100 := by decide
  constructor
  · obtain ⟨k, least, spec⟩ := (sample_schedule_grid 100).1 1400 1400 250 (by decide) (by decide)
    have few : k ≤ 3 := least.2 ⟨by decide, by decide⟩
    rw [interval] at spec
    exact (spec (by change 1400 + k * 100 < 2 ^ 64; omega)).2.2
  · have fits {previous : UInt64} {call : SampleCall} (sum : call.nowUs.toNat + call.workUs.toNat < 2 ^ 64)
      (k : Nat)
        (reached : call.nowUs.toNat + call.workUs.toNat ≤ previous.toNat + (k + 1) *
          (gridInterval 100).toNat)
        (below : previous.toNat + (k + 1) * (gridInterval 100).toNat < 2 ^ 64) : SumsFit 100 previous call :=
      ⟨sum, fun j least => (Nat.add_le_add_left (Nat.mul_le_mul_right _
        (least.2 ⟨Nat.le_add_left _ _, reached⟩)) _).trans_lt
        below⟩
    have passed := ((sample_schedule_grid 100).2 1100 [⟨1350, 30⟩, ⟨1400, 250⟩]
      ⟨by decide, fits (by decide) 2 (by decide) (by decide), by decide,
        fits (by decide) 2 (by decide) (by decide),
        trivial⟩).2.2
    rw [passed, interval]
    decide

end MallocHook
