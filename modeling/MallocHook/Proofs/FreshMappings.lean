/-
Module: MallocHook.Proofs.FreshMappings
Purpose: When the mapping figure of a new peak is measured and when it is carried. The gate of the
  mapping pass compares the peak with a sum without GPU bytes.
Trusted boundary: none
Main exports: freshPeak_iff, peaks_fresh_iff, carried_figure_in_peak
-/
import MallocHook.Core.ObservedSampler

namespace MallocHook

/-! ### What a sample reads, whatever its mapping figure is -/

/-- The resident bytes of a sample. -/
def rssFigure (readings : Readings) (caches : ReaderCaches) : UInt64 :=
  UInt64.ofNat ((if (readSelfKgslKernel readings.kgsl caches.kgsl).1.isSome then readings.rss.anonKb
    else readings.rss.vmRssKb) * 1024)

/-- The GPU bytes of a sample. -/
def gpuFigure (readings : Readings) (caches : ReaderCaches) : UInt64 :=
  ((readSelfKgslKernel readings.kgsl caches.kgsl).1).getD
    (readSelfGpuMmapBytesGated readings (rssFigure readings caches) caches.gpu).1.2

/-- A sample that could be read. -/
theorem readObservedMemoryGated_valid {readings : Readings} (valid : readings.rss.valid = true)
    (peakTotalBytes : UInt64) (caches : ReaderCaches) :
    let dma := (readSelfDmaBytesGated readings (rssFigure readings caches) peakTotalBytes caches.map).1
    let sample := (readObservedMemoryGated readings peakTotalBytes caches).1
    sample.valid = true ∧ sample.total = rssFigure readings caches + (dma.fdBytes + dma.mapBytes) +
        gpuFigure readings caches ∧
      sample.mapPass = dma.mapPass ∧ sample.dmaMapBytes = dma.mapBytes := by
  simp only [readObservedMemoryGated, valid, Bool.not_true, Bool.false_eq_true, if_false]
  refine ⟨trivial, ?_, rfl, rfl⟩
  unfold ObservedMemSample.total gpuFigure rssFigure
  cases (readSelfKgslKernel readings.kgsl caches.kgsl).1 <;> rfl

theorem readObservedMemoryGated_unread {readings : Readings} (invalid : readings.rss.valid = false)
    (peakTotalBytes : UInt64) (caches : ReaderCaches) :
    (readObservedMemoryGated readings peakTotalBytes caches).1.valid = false := by
  simp [readObservedMemoryGated, invalid, GatedSample.unread]

/-! ### Peaks with a carried figure -/

variable (sampler : ObservedPeakSampler) (event : Readings × Bool)

/-- If the sample of a round becomes the recorded peak, the mapping pass ran in it and the sample has what
it found. Kernels with an ION file have no mapping pass. -/
def FreshPeak : Prop :=
  let sample := (readObservedMemoryGated event.1 sampler.peakTotalBytes sampler.caches).1
  event.1.ionBytes = none → sampler.NewPeak sample →
    sample.mapPass = .ran ∧ sample.dmaMapBytes = event.1.dmaMapBytes

/-- Between two mapping passes, the peak lies above resident memory, descriptors and the carried figure,
and below that sum with the GPU bytes. -/
def GpuLiftsPastPeak : Prop :=
  let caches := sampler.caches
  let sum := rssFigure event.1 caches + event.1.dmaFdBytes + caches.map.bytes
  event.1.rss.valid = true ∧ event.1.ionBytes = none ∧ caches.map.everRan = true ∧
    caches.map.samplesSinceRefresh < kMapRefreshSamples ∧ sum < sampler.peakTotalBytes ∧
    sampler.peakTotalBytes < sum + gpuFigure event.1 caches

/-- The pass is left out exactly between two passes of which the sum without GPU bytes stays below the
peak. -/
theorem runMapPass_eq_false_iff {cache : DmaMapCache} {rssBytes dmaFdBytes peakTotalBytes : UInt64} :
    cache.runMapPass rssBytes dmaFdBytes peakTotalBytes = false ↔
      cache.everRan = true ∧ cache.samplesSinceRefresh < kMapRefreshSamples ∧
        rssBytes + dmaFdBytes + cache.bytes < peakTotalBytes := by
  simp only [DmaMapCache.runMapPass, DmaMapCache.provisional, Bool.or_eq_false_iff, Bool.not_eq_false',
    decide_eq_false_iff_not, ge_iff_le, UInt64.not_le, Nat.not_le]
  tauto

/-- One round. -/
theorem freshPeak_iff : FreshPeak sampler event ↔ ¬ GpuLiftsPastPeak sampler event := by
  obtain ⟨readings, retained⟩ := event
  cases valid : readings.rss.valid with
  | false =>
      have unread := readObservedMemoryGated_unread valid sampler.peakTotalBytes sampler.caches
      refine iff_of_true (fun _ newPeak => ?_) (fun lifts => ?_)
      · rw [newPeak.1] at unread
        cases unread
      · exact absurd lifts.1 (by simp [valid])
  | true =>
      obtain ⟨validSample, total, pass, mapBytes⟩ :=
        readObservedMemoryGated_valid valid sampler.peakTotalBytes sampler.caches
      cases ion : readings.ionBytes with
      | some bytes =>
          refine iff_of_true (fun absent => ?_) (fun lifts => ?_)
          · simp [ion] at absent
          · exact absurd lifts.2.1 (by simp [ion])
      | none =>
          cases runs : sampler.caches.map.runMapPass (rssFigure readings sampler.caches) readings.dmaFdBytes
              sampler.peakTotalBytes with
          | true =>
              simp only [readSelfDmaBytesGated, ion, runs, if_true] at pass mapBytes
              refine iff_of_true (fun _ _ => ⟨pass, mapBytes⟩) (fun lifts => ?_)
              have skipped := runMapPass_eq_false_iff.2 ⟨lifts.2.2.1, lifts.2.2.2.1, lifts.2.2.2.2.1⟩
              rw [runs] at skipped
              cases skipped
          | false =>
              obtain ⟨everRan, young, below⟩ := runMapPass_eq_false_iff.1 runs
              simp only [readSelfDmaBytesGated, ion, runs, Bool.false_eq_true, if_false] at pass total
              have carried : FreshPeak sampler (readings, retained) ↔
                  ¬ sampler.NewPeak (readObservedMemoryGated readings sampler.peakTotalBytes
                    sampler.caches).1 := by
                simp [FreshPeak, ion, pass]
              rw [carried, ObservedPeakSampler.NewPeak, total, ← UInt64.add_assoc]
              simp [GpuLiftsPastPeak, validSample, valid, ion, everRan, young, below]

/-- In every run of the sampler, all recorded peaks have a fresh mapping figure exactly if GPU bytes alone
never lift a sample past the peak between two passes. -/
theorem peaks_fresh_iff (floorBytes stepBytes : UInt64) (oneShot hasCallback : Bool)
    (schedule : List (Readings × Bool)) :
    let loop := samplerLoop floorBytes stepBytes oneShot hasCallback
    loop.Respects FreshPeak loop.init schedule ↔
      loop.Respects (fun sampler event => ¬ GpuLiftsPastPeak sampler event) loop.init schedule := by
  have same : FreshPeak = fun sampler event => ¬ GpuLiftsPastPeak sampler event := by
    funext sampler event
    exact propext (freshPeak_iff sampler event)
  rw [same]

/-- A sample of a platform with a KGSL node. -/
def kgslReadings (anonKb : Nat) (dmaMapBytes gpuBytes : UInt64) : Readings :=
  { (default : Readings) with
    rss := ⟨anonKb, anonKb, 0, 0, true⟩
    kgsl := .bytes gpuBytes
    ionBytes := none
    dmaMapBytes := dmaMapBytes }

/-- The GPU bytes of the second sample make it the peak, without the 4096 bytes mapped in the meantime:
the mapping pass did not run. -/
theorem carried_figure_in_peak :
    let loop := samplerLoop 0 0 false true
    let second := kgslReadings 100 4096 61440
    ∃ sampler, loop.run loop.init [(kgslReadings 100 0 51200, true)] = some sampler ∧
      ¬ FreshPeak sampler (second, true) ∧
      (sampler.round second true).peakTotalBytes = 163840 ∧
      (sampler.round second true).peakTotalDmaMapBytes = 0 := by
  refine ⟨(ObservedPeakSampler.start 0 0 false true).round (kgslReadings 100 0 51200) true, rfl, ?_, ?_, ?_⟩
  · intro fresh
    have stale := (fresh rfl (by decide +kernel)).1
    revert stale
    decide +kernel
  · decide +kernel
  · decide +kernel

end MallocHook
