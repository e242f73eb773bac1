/-
Module: MallocHook.Core.ObservedSampler
Purpose: The loop of the sampler thread with all it counts. `Sampler` of the peak snapshot is the part
  of this state that decides about the callback.
Trusted boundary: translation of ObservedPeakSampler::Run and NextPeakThreshold of
  backtrace/src/ObservedMemory.cpp, without the clock: how long passes took and when the next round starts
Main exports: ObservedPeakSampler, ObservedPeakSampler.process
-/
import MallocHook.Lib.Machine
import MallocHook.Core.ObservedMemory

namespace MallocHook

/-- `NextPeakThreshold`, in `size_t`. -/
def wrappingNextPeakThreshold (peakBytes stepBytes : UInt64) : UInt64 :=
  if stepBytes = 0 then peakBytes
  else
    let increment := peakBytes / 4
    let increment := if increment > stepBytes then stepBytes else increment
    let increment := if increment < UInt64.ofNat kMinPeakStepBytes then UInt64.ofNat kMinPeakStepBytes
      else increment
    peakBytes + increment

/-- Without overflow this is the threshold of the allocation path. -/
theorem toNat_wrappingNextPeakThreshold {peakBytes stepBytes : UInt64}
    (fits : peakBytes.toNat + max stepBytes.toNat kMinPeakStepBytes < 2 ^ 64) :
    (wrappingNextPeakThreshold peakBytes stepBytes).toNat = nextPeakThreshold peakBytes.toNat
    stepBytes.toNat := by
  have smallest : (UInt64.ofNat kMinPeakStepBytes).toNat = kMinPeakStepBytes := by decide
  have quarter : (peakBytes / 4).toNat = peakBytes.toNat / 4 := by rw [UInt64.toNat_div]; rfl
  unfold wrappingNextPeakThreshold nextPeakThreshold
  simp only [← UInt64.toNat_inj, UInt64.toNat_zero, gt_iff_lt, UInt64.lt_iff_toNat_lt, quarter,
    apply_ite UInt64.toNat, smallest, UInt64.toNat_add]
  split_ifs <;> omega

/-- The members of `ObservedPeakSampler` and the threshold of `Run`. `calls` records the samples given to
the callback, and its answers. -/
structure ObservedPeakSampler where
  floorBytes : UInt64
  stepBytes : UInt64
  oneShot : Bool
  hasCallback : Bool
  nextThreshold : UInt64
  caches : ReaderCaches := {}
  samples : Nat := 0
  validSamples : Nat := 0
  snapshots : Nat := 0
  peakTotalBytes : UInt64 := 0
  peakTotalRssBytes : UInt64 := 0
  peakTotalDmaBytes : UInt64 := 0
  peakTotalDmaFdBytes : UInt64 := 0
  peakTotalDmaMapBytes : UInt64 := 0
  peakTotalGpuBytes : UInt64 := 0
  maxRssBytes : UInt64 := 0
  maxDmaBytes : UInt64 := 0
  maxGpuBytes : UInt64 := 0
  dmaSource : DmaSource := .unprobed
  gpuSource : GpuMmapSource := .unprobed
  dedupOverflowed : Bool := false
  calls : List (GatedSample × Bool) := []
deriving DecidableEq, Repr

namespace ObservedPeakSampler

/-- The sampler as `Start` leaves it; `Run` begins with the floor as its threshold. -/
def start (floorBytes stepBytes : UInt64) (oneShot hasCallback : Bool) : ObservedPeakSampler where
  floorBytes := floorBytes
  stepBytes := stepBytes
  oneShot := oneShot
  hasCallback := hasCallback
  nextThreshold := floorBytes

variable (sampler : ObservedPeakSampler) (sample : GatedSample)

/-- `if (value > max) max = value`. -/
def raise (maximum value : UInt64) : UInt64 := if value > maximum then value else maximum

/-- What every valid sample does to the counters, the sources and the maxima. -/
def count (overflowed : Bool) : ObservedPeakSampler :=
  { sampler with
    validSamples := sampler.validSamples + 1
    dmaSource := sample.dmaSource
    gpuSource := sample.gpuSource
    dedupOverflowed := sampler.dedupOverflowed || overflowed
    maxRssBytes := raise sampler.maxRssBytes sample.rssBytes
    maxDmaBytes := raise sampler.maxDmaBytes sample.dmaBytes
    maxGpuBytes := raise sampler.maxGpuBytes sample.gpuBytes }

/-- The sample becomes the peak. -/
def storePeak : ObservedPeakSampler :=
  { sampler with
    peakTotalBytes := sample.total
    peakTotalRssBytes := sample.rssBytes
    peakTotalDmaBytes := sample.dmaBytes
    peakTotalDmaFdBytes := sample.dmaFdBytes
    peakTotalDmaMapBytes := sample.dmaMapBytes
    peakTotalGpuBytes := sample.gpuBytes }

/-- The callback is called with the sample and answers `retained`. -/
def callBack (retained : Bool) : ObservedPeakSampler :=
  { sampler with
    snapshots := sampler.snapshots + 1
    nextThreshold :=
      if sampler.oneShot then if retained then UInt64.ofNat sizeMax else sampler.nextThreshold
      else wrappingNextPeakThreshold sample.total sampler.stepBytes
    calls := sampler.calls ++ [(sample, retained)] }

/-- One round of `Run` from the sample on. `retained` is what the callback answers if it is called. -/
def process (overflowed retained : Bool) : ObservedPeakSampler :=
  let sampler := { sampler with samples := sampler.samples + 1 }
  if !sample.valid then sampler
  else
    let sampler := sampler.count sample overflowed
    if sample.total > sampler.peakTotalBytes then
      let sampler := sampler.storePeak sample
      if sampler.hasCallback && decide (sample.total > sampler.nextThreshold) then
        sampler.callBack sample retained
      else sampler
    else sampler

/-- One whole round: what is there to read goes through the gated readers, and the sample is processed. -/
def round (readings : Readings) (retained : Bool) : ObservedPeakSampler :=
  let read := readObservedMemoryGated readings sampler.peakTotalBytes sampler.caches
  { sampler.process read.1 readings.inodesOverflowed retained with caches := read.2 }

/-- Rounds with the samples given, each with the state of the inode table and the answer of the callback. -/
def processAll (rounds : List (GatedSample × Bool × Bool)) : ObservedPeakSampler :=
  rounds.foldl (fun sampler round => sampler.process round.1 round.2.1 round.2.2) sampler

/-- The part that decides about the callback. -/
def decider : Sampler where
  nextThreshold := sampler.nextThreshold.toNat
  peakTotalBytes := sampler.peakTotalBytes.toNat
  stepBytes := sampler.stepBytes.toNat
  oneShot := sampler.oneShot

/-- The sample is the new peak. -/
def NewPeak (sampler : ObservedPeakSampler) (sample : GatedSample) : Prop :=
  sample.valid = true ∧ sampler.peakTotalBytes < sample.total

instance : Decidable (NewPeak sampler sample) := inferInstanceAs (Decidable (_ ∧ _))

/-- The callback is called with the sample. -/
def CallsBack (sampler : ObservedPeakSampler) (sample : GatedSample) : Prop :=
  sampler.NewPeak sample ∧ sampler.hasCallback = true ∧ sampler.nextThreshold < sample.total

instance : Decidable (CallsBack sampler sample) := inferInstanceAs (Decidable (_ ∧ _))

/-- Everything a round can do. -/
theorem process_cases (overflowed retained : Bool) :
    (sample.valid = false ∧
        sampler.process sample overflowed retained = { sampler with samples := sampler.samples + 1 }) ∨
      (sample.valid = true ∧ ¬ sampler.NewPeak sample ∧
        sampler.process sample overflowed retained =
          { sampler with samples := sampler.samples + 1 }.count sample overflowed) ∨
      (sampler.NewPeak sample ∧ ¬ sampler.CallsBack sample ∧
        sampler.process sample overflowed retained =
          ({ sampler with samples := sampler.samples + 1 }.count sample overflowed).storePeak sample) ∨
      (sampler.CallsBack sample ∧
        sampler.process sample overflowed retained =
          (({ sampler with samples := sampler.samples + 1 }.count sample overflowed).storePeak
            sample).callBack sample retained) := by
  cases valid : sample.valid with
  | false => exact .inl ⟨rfl, by simp [process, valid]⟩
  | true =>
      refine .inr ?_
      by_cases higher : sampler.peakTotalBytes < sample.total
      · refine .inr ?_
        have newPeak : sampler.NewPeak sample := ⟨valid, higher⟩
        by_cases calls : sampler.hasCallback = true ∧ sampler.nextThreshold < sample.total
        · refine .inr ⟨⟨newPeak, calls⟩, ?_⟩
          simp [process, valid, count, storePeak, higher, calls]
        · refine .inl ⟨newPeak, fun called => calls called.2, ?_⟩
          simp only [process, valid, count, storePeak, Bool.not_true, Bool.false_eq_true,
            if_false, gt_iff_lt,
            higher, if_true, Bool.and_eq_true, decide_eq_true_eq, if_neg calls]
      · refine .inl ⟨rfl, fun newPeak => higher newPeak.2, ?_⟩
        simp [process, valid, count, higher]

/-- With a callback, and thresholds that do not overflow, a round decides as the model of the peak snapshot
does. -/
theorem decider_process (listens : sampler.hasCallback = true)
    (fits : sample.total.toNat + max sampler.stepBytes.toNat kMinPeakStepBytes < 2 ^ 64)
    (overflowed retained : Bool) :
    (sampler.process sample overflowed retained).decider =
      let observed := sampler.decider.observe sample.toObservedMemSample
      if observed.1 then observed.2.settle sample.toObservedMemSample retained else observed.2 := by
  rcases sampler.process_cases sample overflowed retained with
    ⟨invalid, done⟩ | ⟨valid, lower, done⟩ | ⟨⟨valid, higher⟩, quiet,
      done⟩ | ⟨⟨⟨valid, higher⟩, _, past⟩, done⟩
  · simp [done, decider, Sampler.observe, invalid]
  · have low : ¬ sampler.peakTotalBytes.toNat < sample.total.toNat := fun higher => lower ⟨valid, higher⟩
    simp [done, decider, Sampler.observe, low, count]
  · have below : ¬ sampler.nextThreshold.toNat < sample.total.toNat :=
      fun past => quiet ⟨⟨valid, higher⟩, listens, past⟩
    rw [UInt64.lt_iff_toNat_lt] at higher
    simp [done, decider, Sampler.observe, valid, higher, below, count, storePeak]
  · rw [UInt64.lt_iff_toNat_lt] at higher past
    have threshold := toNat_wrappingNextPeakThreshold fits
    cases shot : sampler.oneShot <;> cases retained <;>
      simp [done, decider, Sampler.observe, Sampler.settle, valid, higher, past, count, storePeak,
        callBack, shot,
        threshold, sizeMax]

end ObservedPeakSampler

/-- All runs of the loop, from a sampler that was just started. -/
def samplerLoop (floorBytes stepBytes : UInt64) (oneShot hasCallback : Bool) :
    Machine ObservedPeakSampler (Readings × Bool) where
  init := .start floorBytes stepBytes oneShot hasCallback
  step sampler event := some (sampler.round event.1 event.2)

end MallocHook
