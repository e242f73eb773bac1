/-
Module: MallocHook.Proofs.ModeDecision
Purpose: The two places that read the mode of a process from its environment agree; the interval is the
  cadence only below 2^32.
Trusted boundary: none
Main exports: observeOnlyRequested_eq, observeOnly_interval_iff, observeOnly_interval_lost
-/
import MallocHook.Core.ConfigInit

namespace MallocHook

/-- What asks for a report, from the variables alone. -/
def reportConfigured (environ : Environ) : Bool :=
  decide (parsedOrZero (parseValueQuiet (environ.getenv kDumpPeakValueEnv)) > 0) ||
    decide (parsedOrZero (parseValueQuiet (environ.getenv kPeakSampleIntervalEnv)) > 0 ∧
      parsedOrZero (parseValueQuiet (environ.getenv kPeakStepEnv)) > 0)

/-- An adopted interval does not count as the explicit one. -/
theorem asksForReport_eq (floor step : Nat) (explicit : Except ParseError Nat) (adopted : Option Nat) :
    asksForReport floor explicit.isOk ((explicit.toOption.or adopted).getD 0) step =
      (decide (floor > 0) || decide (parsedOrZero explicit > 0 ∧ step > 0)) := by
  cases explicit with
  | ok interval => simp [asksForReport, Except.isOk, Except.toBool, Except.toOption]
  | error error => simp [asksForReport, Except.isOk, Except.toBool]

/-- Of the options `Init` sets, `RECORD_MEMORY_PEAK` is one that needs a report. -/
theorem init_records (platform : Platform) (environ : Environ) :
    (Settings.init platform environ).1.has optionRecordMemoryPeak = reportConfigured environ := by
  simp only [Config.has, Settings.init, parseValue, asksForReport_eq, ← reportConfigured.eq_1]
  cases reportConfigured environ <;> decide

/-- Without a report the answer is the cadence, cut to an `unsigned`. -/
theorem observeOnlyRequested_eq (environ : Environ) :
    observeOnlyRequested environ =
      if reportConfigured environ then (false, 0) else handOut (effectiveCadence environ) := by
  unfold observeOnlyRequested reportConfigured effectiveCadence
  rw [findExternalSampleIntervalMs_eq]
  by_cases floor : parsedOrZero (parseValueQuiet (environ.getenv kDumpPeakValueEnv)) > 0
  · simp [floor]
  · cases parseValueQuiet (environ.getenv kPeakSampleIntervalEnv) with
    | ok interval => simp [floor]
    | error error =>
        cases (publishedIntervals environ).find? (0 < ·) <;> simp [floor, handOut]

theorem handOut_requested_iff (cadence : Nat) : (handOut cadence).1 = true ↔ 0 < cadence := by
  unfold handOut
  split
  · next zero => simp [zero]
  · next positive => simp [Nat.pos_of_ne_zero positive]

/-- An interval survives the cast exactly below 2^32. -/
theorem handOut_exact_iff (cadence : Nat) :
    ((handOut cadence).1 = true → 0 < (handOut cadence).2 ∧ (handOut cadence).2.toNat = cadence) ↔
      cadence < 2 ^ 32 := by
  unfold handOut
  split
  · next zero => simp [zero]
  · next positive =>
      rw [UInt32.lt_iff_toNat_lt, UInt32.toNat_ofNat', UInt32.toNat_zero]
      constructor
      · intro kept
        have same := (kept rfl).2
        omega
      · intro small _
        omega

/-- `ObserveOnlyRequested` says yes exactly when `Init` would not record a peak and there is a positive
cadence. The interval it hands out then is positive and that cadence exactly if the cadence fits in an
`unsigned`. -/
theorem observeOnly_interval_iff (platform : Platform) (environ : Environ) :
    ((observeOnlyRequested environ).1 = true ↔
        (Settings.init platform environ).1.has optionRecordMemoryPeak = false ∧
        0 < effectiveCadence environ) ∧
      (((observeOnlyRequested environ).1 = true →
          0 < (observeOnlyRequested environ).2 ∧
            (observeOnlyRequested environ).2.toNat = effectiveCadence environ) ↔
        (Settings.init platform environ).1.has optionRecordMemoryPeak = true ∨
          effectiveCadence environ < 2 ^ 32) := by
  rw [init_records, observeOnlyRequested_eq]
  cases reportConfigured environ with
  | true => simp
  | false =>
      constructor
      · simp only [Bool.false_eq_true, if_false, true_and, handOut_requested_iff]
      · simpa using handOut_exact_iff (effectiveCadence environ)

/-- An interval of 2^32 ms selects the probe and starts it with an interval of zero. -/
theorem observeOnly_interval_lost :
    let environ : Environ := some ["ALLOC_HOOK_PEAK_SAMPLE_MS=4294967296".toList]
    observeOnlyRequested environ = (true, 0) ∧ effectiveCadence environ = 4294967296 ∧
      (Settings.init ⟨false, 40⟩ environ).1.has optionRecordMemoryPeak = false := by
  decide +kernel

end MallocHook
