/-
Module: MallocHook.Proofs.SamplerStatistics
Purpose: What the sampler has counted after any sequence of samples and answers. `Summary` states every
  statistic in terms of the valid samples seen.
Trusted boundary: none
Main exports: Callbacks, sampler_statistics, threshold_wraps
-/
import MallocHook.Core.ObservedSampler

namespace MallocHook

open List
open UInt64 (lt_iff_toNat_lt toNat_add)

/-- The footprint as a sum without overflow. -/
def ObservedMemSample.exactTotal (sample : ObservedMemSample) : Nat :=
  sample.rssBytes.toNat + sample.dmaBytes.toNat + sample.gpuBytes.toNat

theorem ObservedMemSample.toNat_total {sample : ObservedMemSample} (small : sample.exactTotal < 2 ^ 64) :
    sample.total.toNat = sample.exactTotal := by
  unfold exactTotal at small
  rw [total, toNat_add, toNat_add, exactTotal]
  omega

/-! ### Maxima of lists -/

/-- The largest of a list of numbers, zero if there is none. -/
def highest (values : List Nat) : Nat := values.foldl max 0

@[simp] theorem highest_nil : highest [] = 0 := rfl

@[simp] theorem highest_snoc (values : List Nat) (value : Nat) :
    highest (values ++ [value]) = max (highest values) value := by
  simp [highest]

/-- The largest number of a list is in it. -/
theorem highest_mem {values : List Nat} (nonempty : values ≠ []) : highest values ∈ values := by
  induction values using List.reverseRecOn with
  | nil => exact absurd rfl nonempty
  | append_singleton values last ih =>
      rw [highest_snoc]
      rcases Nat.le_total (highest values) last with least | most
      · rw [Nat.max_eq_right least]
        exact mem_append_right _ mem_cons_self
      · rw [Nat.max_eq_left most]
        by_cases empty : values = []
        · subst empty
          exact mem_singleton.2 (Nat.le_zero.1 most).symm
        · exact mem_append_left _ (ih empty)

theorem highest_map_snoc {α : Type*} (f : α → Nat) (values : List α) (value : α) :
    highest ((values ++ [value]).map f) = max (highest (values.map f)) (f value) := by
  rw [map_append, map_singleton, highest_snoc]

theorem highest_lt_iff {values : List Nat} {bound : Nat} :
    highest values < bound ↔ 0 < bound ∧ ∀ value ∈ values, value < bound := by
  induction values using List.reverseRecOn with
  | nil => simp
  | append_singleton values last ih =>
      rw [highest_snoc, Nat.max_lt, ih]
      simp only [mem_append, mem_singleton, or_imp, forall_and, forall_eq, and_assoc]

/-! ### Every statistic -/

/-- The valid samples of a list of rounds. -/
def validSamplesOf (rounds : List (GatedSample × Bool × Bool)) : List GatedSample :=
  (rounds.map Prod.fst).filter fun sample => sample.valid

theorem validSamplesOf_append (first second : List (GatedSample × Bool × Bool)) :
    validSamplesOf (first ++ second) = validSamplesOf first ++ validSamplesOf second := by
  simp [validSamplesOf]

@[simp] theorem validSamplesOf_snoc (rounds : List (GatedSample × Bool × Bool))
    (last : GatedSample × Bool × Bool) :
    validSamplesOf (rounds ++ [last]) = validSamplesOf rounds ++ if last.1.valid then [last.1] else [] := by
  rw [validSamplesOf_append]
  cases valid : last.1.valid <;> simp [validSamplesOf, valid]

namespace ObservedPeakSampler

/-- The peak, its parts and the maxima, in terms of the valid samples seen. -/
structure Summary (seen : List GatedSample) (sampler : ObservedPeakSampler) : Prop where
  peak : sampler.peakTotalBytes.toNat = highest (seen.map fun sample => sample.exactTotal)
  sum : sampler.peakTotalBytes.toNat =
    sampler.peakTotalRssBytes.toNat + sampler.peakTotalDmaBytes.toNat + sampler.peakTotalGpuBytes.toNat
  first : ∀ sample, seen.find? (fun sample => sample.exactTotal == sampler.peakTotalBytes.toNat) =
    some sample →
    sampler.peakTotalRssBytes = sample.rssBytes ∧ sampler.peakTotalDmaBytes = sample.dmaBytes ∧
      sampler.peakTotalGpuBytes = sample.gpuBytes
  maxRss : sampler.maxRssBytes.toNat = highest (seen.map fun sample => sample.rssBytes.toNat)
  maxDma : sampler.maxDmaBytes.toNat = highest (seen.map fun sample => sample.dmaBytes.toNat)
  maxGpu : sampler.maxGpuBytes.toNat = highest (seen.map fun sample => sample.gpuBytes.toNat)

variable {seen : List GatedSample} {sampler : ObservedPeakSampler} {sample : GatedSample}

theorem raise_snoc {maximum : UInt64} (f : GatedSample → UInt64)
    (isMax : maximum.toNat = highest (seen.map fun sample => (f sample).toNat)) :
    (raise maximum (f sample)).toNat = highest ((seen ++ [sample]).map fun sample => (f sample).toNat) := by
  rw [highest_map_snoc, ← isMax]
  unfold raise
  split
  · next greater => exact (Nat.max_eq_right (Nat.le_of_lt greater)).symm
  · next least => exact (Nat.max_eq_left (Nat.le_of_not_lt least)).symm

section

variable (summary : Summary seen sampler)
include summary

/-- A sample is the new peak exactly if it is positive and above every valid sample before it. -/
theorem Summary.newPeak_iff (valid : sample.valid = true) (small : sample.exactTotal < 2 ^ 64) :
    sampler.NewPeak sample ↔ 0 < sample.exactTotal ∧
    ∀ earlier ∈ seen, earlier.exactTotal < sample.exactTotal := by
  rw [NewPeak, lt_iff_toNat_lt, ObservedMemSample.toNat_total small, summary.peak, highest_lt_iff]
  simp [valid]

/-- A peak that no sample attains is the one before the first sample. -/
theorem Summary.peak_eq_zero
    (unattained : seen.find? (fun sample => sample.exactTotal == sampler.peakTotalBytes.toNat) = none) :
    sampler.peakTotalBytes.toNat = 0 := by
  by_cases empty : seen = []
  · rw [summary.peak, empty]
    rfl
  · have attained : highest (seen.map fun sample => sample.exactTotal) ∈ seen.map _ :=
      highest_mem (by simpa using empty)
    rw [← summary.peak] at attained
    obtain ⟨sample, member, same⟩ := mem_map.1 attained
    exact absurd (beq_iff_eq.2 same) (List.find?_eq_none.1 unattained sample member)

/-- Counting a sample that is not above the peak. -/
theorem Summary.count (lower : sample.exactTotal ≤ sampler.peakTotalBytes.toNat) (overflowed : Bool) :
    Summary (seen ++ [sample]) (sampler.count sample overflowed) where
  peak := by
    rw [highest_map_snoc, ← summary.peak]
    exact (Nat.max_eq_left lower).symm
  sum := summary.sum
  first := by
    intro first found
    rw [List.find?_append, Option.or_eq_some_iff] at found
    rcases found with earlier | ⟨unattained, here⟩
    · exact summary.first first earlier
    · -- Nothing but zeros has been seen, so the parts stored are zeros like those of the sample.
      obtain ⟨rfl, attained⟩ : sample = first ∧ sample.exactTotal = sampler.peakTotalBytes.toNat := by
        rw [List.find?_singleton] at here
        split at here
        · next same => exact ⟨Option.some.inj here, beq_iff_eq.1 same⟩
        · cases here
      have zero := summary.peak_eq_zero unattained
      have sum := summary.sum
      rw [zero, ObservedMemSample.exactTotal] at attained
      simp only [← UInt64.toNat_inj]
      change sampler.peakTotalRssBytes.toNat = _ ∧ sampler.peakTotalDmaBytes.toNat = _ ∧
        sampler.peakTotalGpuBytes.toNat = _
      omega
  maxRss := raise_snoc _ summary.maxRss
  maxDma := raise_snoc _ summary.maxDma
  maxGpu := raise_snoc _ summary.maxGpu

/-- Counting a sample that becomes the peak. -/
theorem Summary.storePeak (small : sample.exactTotal < 2 ^ 64)
    (higher : sampler.peakTotalBytes.toNat < sample.exactTotal) (overflowed : Bool) :
    Summary (seen ++ [sample]) ((sampler.count sample overflowed).storePeak sample) where
  peak := by
    rw [highest_map_snoc, ← summary.peak, Nat.max_eq_right (Nat.le_of_lt higher)]
    exact ObservedMemSample.toNat_total small
  sum := ObservedMemSample.toNat_total small
  first := by
    intro first found
    have peak : ((sampler.count sample overflowed).storePeak sample).peakTotalBytes.toNat =
      sample.exactTotal := ObservedMemSample.toNat_total small
    rw [peak, List.find?_append, Option.or_eq_some_iff] at found
    rcases found with earlier | ⟨_, here⟩
    · -- No sample before this one was as high.
      have attained : first.exactTotal = sample.exactTotal := by simpa using List.find?_some earlier
      rw [summary.peak] at higher
      have bounded := (highest_lt_iff.1 higher).2 _ (mem_map_of_mem (mem_of_find?_eq_some earlier))
      exact absurd attained (Nat.ne_of_lt bounded)
    · rw [List.find?_singleton, beq_self_eq_true] at here
      cases here
      exact ⟨rfl, rfl, rfl⟩
  maxRss := raise_snoc _ summary.maxRss
  maxDma := raise_snoc _ summary.maxDma
  maxGpu := raise_snoc _ summary.maxGpu

/-- One round. -/
theorem Summary.process (small : sample.valid = true → sample.exactTotal < 2 ^ 64)
    (overflowed retained : Bool) :
    Summary (seen ++ if sample.valid then [sample] else [])
    (sampler.process sample overflowed retained) := by
  have started : Summary seen { sampler with samples := sampler.samples + 1 } := { summary with }
  rcases sampler.process_cases sample overflowed retained with
    ⟨invalid, done⟩ | ⟨valid, lower, done⟩ | ⟨⟨valid, higher⟩, _, done⟩ | ⟨⟨⟨valid, higher⟩, _⟩, done⟩
  · rw [done, if_neg (by simp [invalid]), append_nil]
    exact started
  · rw [done, if_pos valid]
    refine started.count ?_ overflowed
    refine Nat.le_of_not_lt fun higher => lower ⟨valid, ?_⟩
    rwa [lt_iff_toNat_lt, ObservedMemSample.toNat_total (small valid)]
  · rw [lt_iff_toNat_lt, ObservedMemSample.toNat_total (small valid)] at higher
    rw [done, if_pos valid]
    exact started.storePeak (small valid) higher overflowed
  · rw [lt_iff_toNat_lt, ObservedMemSample.toNat_total (small valid)] at higher
    rw [done, if_pos valid]
    exact { started.storePeak (small valid) higher overflowed with }

end

theorem processAll_snoc (sampler : ObservedPeakSampler) (rounds : List (GatedSample × Bool × Bool))
    (last : GatedSample × Bool × Bool) :
    sampler.processAll (rounds ++ [last]) = (sampler.processAll rounds).process last.1
    last.2.1 last.2.2 := by
  simp [processAll]

/-- A whole run. -/
theorem summary_processAll (floorBytes stepBytes : UInt64) (oneShot hasCallback : Bool)
    {rounds : List (GatedSample × Bool × Bool)}
    (small : ∀ sample ∈ validSamplesOf rounds, sample.exactTotal < 2 ^ 64) :
    Summary (validSamplesOf rounds) ((start floorBytes stepBytes oneShot hasCallback).processAll
      rounds) := by
  induction rounds using List.reverseRecOn with
  | nil => exact ⟨rfl, rfl, by simp [validSamplesOf], rfl, rfl, rfl⟩
  | append_singleton rounds last ih =>
      rw [validSamplesOf_snoc, forall_mem_append] at small
      rw [validSamplesOf_snoc, processAll_snoc]
      refine (ih small.1).process ?_ _ _
      intro valid
      exact small.2 last.1 (by simp [valid])

/-! ### Callbacks -/

/-- What `Start` was given does not change. -/
theorem process_settings (sampler : ObservedPeakSampler) (sample : GatedSample)
    (overflowed retained : Bool) :
    (sampler.process sample overflowed retained).floorBytes = sampler.floorBytes ∧
      (sampler.process sample overflowed retained).stepBytes = sampler.stepBytes ∧
      (sampler.process sample overflowed retained).oneShot = sampler.oneShot ∧
      (sampler.process sample overflowed retained).hasCallback = sampler.hasCallback := by
  rcases sampler.process_cases sample overflowed retained with
    ⟨_, done⟩ | ⟨_, _, done⟩ | ⟨_, _, done⟩ | ⟨_, done⟩ <;> rw [done] <;> exact ⟨rfl, rfl, rfl, rfl⟩

theorem processAll_settings (sampler : ObservedPeakSampler) (rounds : List (GatedSample × Bool × Bool)) :
    (sampler.processAll rounds).floorBytes = sampler.floorBytes ∧
      (sampler.processAll rounds).stepBytes = sampler.stepBytes ∧
      (sampler.processAll rounds).oneShot = sampler.oneShot ∧
      (sampler.processAll rounds).hasCallback = sampler.hasCallback := by
  induction rounds using List.reverseRecOn with
  | nil => exact ⟨rfl, rfl, rfl, rfl⟩
  | append_singleton rounds last ih =>
      rw [processAll_snoc]
      obtain ⟨floor, step, shot, listens⟩ := (sampler.processAll rounds).process_settings last.1
        last.2.1 last.2.2
      exact ⟨floor.trans ih.1, step.trans ih.2.1, shot.trans ih.2.2.1, listens.trans ih.2.2.2⟩

/-- A round calls back with its sample, or not at all. -/
theorem process_calls (sampler : ObservedPeakSampler) (sample : GatedSample) (overflowed retained : Bool) :
    (sampler.process sample overflowed retained).calls =
      sampler.calls ++ if sampler.CallsBack sample then [(sample, retained)] else [] := by
  rcases sampler.process_cases sample overflowed retained with
    ⟨invalid, done⟩ | ⟨_, lower, done⟩ | ⟨_, quiet, done⟩ | ⟨called, done⟩
  · rw [done, if_neg (fun called => absurd called.1.1 (by simp [invalid])), append_nil]
  · rw [done, if_neg (fun called => lower called.1), append_nil]
    rfl
  · rw [done, if_neg quiet, append_nil]
    rfl
  · rw [done, if_pos called]
    rfl

/-- A round without a callback leaves the threshold alone. -/
theorem process_nextThreshold (sampler : ObservedPeakSampler) (sample : GatedSample)
    (overflowed retained : Bool) :
    (sampler.process sample overflowed retained).nextThreshold =
      if sampler.CallsBack sample then
        if sampler.oneShot then if retained then UInt64.ofNat sizeMax else sampler.nextThreshold
        else wrappingNextPeakThreshold sample.total sampler.stepBytes
      else sampler.nextThreshold := by
  rcases sampler.process_cases sample overflowed retained with
    ⟨invalid, done⟩ | ⟨_, lower, done⟩ | ⟨_, quiet, done⟩ | ⟨called, done⟩
  · rw [done, if_neg (fun called => absurd called.1.1 (by simp [invalid]))]
  · rw [done, if_neg (fun called => lower called.1)]
    rfl
  · rw [done, if_neg quiet]
    rfl
  · rw [done, if_pos called]
    rfl

theorem not_above_sizeMax (value : UInt64) : ¬ UInt64.ofNat sizeMax < value := by
  rw [lt_iff_toNat_lt]
  have bounded := value.toNat_lt
  have pinned : (UInt64.ofNat sizeMax).toNat = sizeMax := by decide
  rw [pinned, sizeMax]
  omega

/-- How the callbacks made so far and the threshold hang together. -/
structure Callbacks (seen : List GatedSample) (sampler : ObservedPeakSampler) : Prop where
  among : ∀ call ∈ sampler.calls, call.1 ∈ seen
  oneShot : sampler.oneShot = true →
    (∀ call ∈ sampler.calls, sampler.floorBytes < call.1.total) ∧
      sampler.calls.Pairwise (fun earlier _ => earlier.2 = false) ∧
      (sampler.nextThreshold = UInt64.ofNat sizeMax ∨
        sampler.nextThreshold = sampler.floorBytes ∧ ∀ call ∈ sampler.calls, call.2 = false)
  chasing : sampler.oneShot = false →
    (∀ call ∈ sampler.calls.getLast?,
        sampler.nextThreshold = wrappingNextPeakThreshold call.1.total sampler.stepBytes) ∧
      sampler.calls.IsChain fun call next =>
        wrappingNextPeakThreshold call.1.total sampler.stepBytes < next.1.total

/-- One round. -/
theorem Callbacks.process (callbacks : Callbacks seen sampler) (overflowed retained : Bool) :
    Callbacks (seen ++ if sample.valid then [sample] else [])
    (sampler.process sample overflowed retained) := by
  obtain ⟨floor, step, shot, _⟩ := sampler.process_settings sample overflowed retained
  have calls := sampler.process_calls sample overflowed retained
  have threshold := sampler.process_nextThreshold sample overflowed retained
  by_cases called : sampler.CallsBack sample
  · rw [if_pos called] at calls threshold
    constructor
    · rw [calls, if_pos called.1.1]
      intro call member
      rcases mem_append.1 member with earlier | here
      · exact mem_append_left _ (callbacks.among call earlier)
      · rw [mem_singleton.1 here]
        exact mem_append_right _ mem_cons_self
    · rw [shot, floor, calls, threshold]
      intro oneShot
      obtain ⟨past, order, pinned | ⟨atFloor, refused⟩⟩ := callbacks.oneShot oneShot
      · -- nothing is above a pinned threshold
        have above := called.2.2
        rw [pinned] at above
        exact absurd above (not_above_sizeMax sample.total)
      · refine ⟨?_, ?_, ?_⟩
        · rw [forall_mem_append, forall_mem_singleton]
          exact ⟨past, atFloor ▸ called.2.2⟩
        · rw [pairwise_append]
          exact ⟨order, pairwise_singleton _ _, fun call member _ _ => refused call member⟩
        · cases retained with
          | true => exact .inl (by simp [oneShot])
          | false =>
              refine .inr ⟨by simpa [oneShot] using atFloor, ?_⟩
              rw [forall_mem_append, forall_mem_singleton]
              exact ⟨refused, rfl⟩
    · rw [shot, step, calls, threshold]
      intro chasing
      obtain ⟨last, order⟩ := callbacks.chasing chasing
      constructor
      · simp [chasing]
      · rw [isChain_append]
        refine ⟨order, isChain_singleton _, ?_⟩
        intro call isLast next isNext
        cases isNext
        rw [← last call isLast]
        exact called.2.2
  · rw [if_neg called] at calls threshold
    rw [append_nil] at calls
    constructor
    · rw [calls]
      exact fun call member => mem_append_left _ (callbacks.among call member)
    · rw [shot, floor, calls, threshold]
      exact callbacks.oneShot
    · rw [shot, step, calls, threshold]
      exact callbacks.chasing

/-- A whole run. -/
theorem callbacks_processAll (floorBytes stepBytes : UInt64) (oneShot hasCallback : Bool)
    (rounds : List (GatedSample × Bool × Bool)) :
    Callbacks (validSamplesOf rounds) ((start floorBytes stepBytes oneShot hasCallback).processAll
      rounds) := by
  induction rounds using List.reverseRecOn with
  | nil =>
      refine ⟨by simp [processAll, start], fun _ =>
        ⟨by simp [processAll, start], ?_, .inr ⟨rfl, ?_⟩⟩, ?_⟩ <;>
        simp [processAll, start]
  | append_singleton rounds last ih =>
      rw [validSamplesOf_snoc, processAll_snoc]
      exact ih.process _ _

theorem add_kMinPeakStepBytes_le {peakBytes stepBytes : Nat} (positive : stepBytes ≠ 0) :
    peakBytes + kMinPeakStepBytes ≤ nextPeakThreshold peakBytes stepBytes := by
  simp only [nextPeakThreshold, if_neg positive]
  split_ifs <;> omega

/-- A callback is made on a valid sample that is positive, above all before it and above the threshold. -/
theorem Summary.callsBack_iff (summary : Summary seen sampler) (listens : sampler.hasCallback = true)
    (small : sample.valid = true → sample.exactTotal < 2 ^ 64) :
    sampler.CallsBack sample ↔
      sample.valid = true ∧ 0 < sample.exactTotal ∧
        (∀ other ∈ seen, other.exactTotal < sample.exactTotal) ∧
        sampler.nextThreshold.toNat < sample.exactTotal := by
  by_cases valid : sample.valid = true
  · rw [CallsBack, summary.newPeak_iff valid (small valid), lt_iff_toNat_lt,
      ObservedMemSample.toNat_total (small valid)]
    simp only [valid, listens, true_and, and_assoc]
  · exact iff_of_false (fun called => valid called.1.1) (fun described => valid described.1)

/-- With a positive step a threshold that does not overflow is at least 64 KiB above its peak. -/
theorem le_wrappingNextPeakThreshold {sample : ObservedMemSample} {stepBytes : UInt64}
    (positive : 0 < stepBytes)
    (fits : sample.exactTotal + max stepBytes.toNat kMinPeakStepBytes < 2 ^ 64) :
    sample.exactTotal + kMinPeakStepBytes ≤ (wrappingNextPeakThreshold sample.total stepBytes).toNat := by
  have total := ObservedMemSample.toNat_total (show sample.exactTotal < 2 ^ 64 by omega)
  rw [← total] at fits
  rw [toNat_wrappingNextPeakThreshold fits, ← total]
  exact add_kMinPeakStepBytes_le (Nat.ne_of_gt positive)

/-- After any samples and answers: the peak is the highest footprint of a valid sample, its parts are
those of the first sample that attained it, and the maxima are independent. The callback was called with a
sample exactly if that was valid, positive, above every valid one before it and above the threshold. Each
call is 64 KiB above the one before it, provided no threshold overflows. -/
theorem sampler_statistics (floorBytes stepBytes : UInt64) (oneShot : Bool)
    (rounds : List (GatedSample × Bool × Bool))
    (small : ∀ sample ∈ validSamplesOf rounds, sample.exactTotal < 2 ^ 64) :
    let begun := start floorBytes stepBytes oneShot true
    let sampler := begun.processAll rounds
    let seen := validSamplesOf rounds
    (sampler.peakTotalBytes.toNat = highest (seen.map fun sample => sample.exactTotal) ∧
      sampler.peakTotalBytes.toNat = sampler.peakTotalRssBytes.toNat + sampler.peakTotalDmaBytes.toNat +
        sampler.peakTotalGpuBytes.toNat ∧
      ∀ first, seen.find? (fun sample => sample.exactTotal == sampler.peakTotalBytes.toNat) = some first →
        sampler.peakTotalRssBytes = first.rssBytes ∧ sampler.peakTotalDmaBytes = first.dmaBytes ∧
          sampler.peakTotalGpuBytes = first.gpuBytes) ∧
    (sampler.maxRssBytes.toNat = highest (seen.map fun sample => sample.rssBytes.toNat) ∧
      sampler.maxDmaBytes.toNat = highest (seen.map fun sample => sample.dmaBytes.toNat) ∧
      sampler.maxGpuBytes.toNat = highest (seen.map fun sample => sample.gpuBytes.toNat)) ∧
    (∀ before sample overflowed retained after, rounds = before ++ (sample, overflowed, retained) :: after →
      let earlier := begun.processAll before
      (begun.processAll (before ++ [(sample, overflowed, retained)])).calls = earlier.calls ++
        if sample.valid = true ∧ 0 < sample.exactTotal ∧
            (∀ other ∈ validSamplesOf before, other.exactTotal < sample.exactTotal) ∧
            earlier.nextThreshold.toNat < sample.exactTotal then
          [(sample, retained)] else []) ∧
    (oneShot = true →
      (∀ call ∈ sampler.calls, floorBytes.toNat < call.1.exactTotal) ∧
        sampler.calls.Pairwise fun earlier _ => earlier.2 = false) ∧
    (oneShot = false → 0 < stepBytes →
      (∀ sample ∈ seen, sample.exactTotal + max stepBytes.toNat kMinPeakStepBytes < 2 ^ 64) →
      sampler.calls.IsChain fun call next =>
        (wrappingNextPeakThreshold call.1.total stepBytes).toNat < next.1.exactTotal ∧
          call.1.exactTotal + kMinPeakStepBytes ≤ (wrappingNextPeakThreshold call.1.total
            stepBytes).toNat) := by
  intro begun sampler seen
  have summary := summary_processAll floorBytes stepBytes oneShot true small
  have callbacks := callbacks_processAll floorBytes stepBytes oneShot true rounds
  obtain ⟨floor, step, shot, _⟩ := begun.processAll_settings rounds
  have exactly : ∀ call ∈ sampler.calls, call.1.total.toNat = call.1.exactTotal := fun call member =>
    ObservedMemSample.toNat_total (small call.1 (callbacks.among call member))
  refine ⟨⟨summary.peak, summary.sum, summary.first⟩,
    ⟨summary.maxRss, summary.maxDma, summary.maxGpu⟩, ?_, ?_, ?_⟩
  · rintro before sample overflowed retained after rfl
    rw [validSamplesOf_append, forall_mem_append] at small
    have summaryBefore : Summary (validSamplesOf before) (begun.processAll before) :=
      summary_processAll floorBytes stepBytes oneShot true small.1
    have listens := (begun.processAll_settings before).2.2.2
    have here : sample.valid = true → sample.exactTotal < 2 ^ 64 :=
      fun valid => small.2 sample (by simp [validSamplesOf, valid])
    rw [processAll_snoc, process_calls]
    exact congrArg _ (if_congr (summaryBefore.callsBack_iff listens here) rfl rfl)
  · intro isOneShot
    obtain ⟨past, order, _⟩ := callbacks.oneShot (shot.trans isOneShot)
    refine ⟨fun call member => ?_, order⟩
    have above := past call member
    rwa [floor, lt_iff_toNat_lt, exactly call member] at above
  · intro chases positive fits
    obtain ⟨_, order⟩ := callbacks.chasing (shot.trans chases)
    rw [step] at order
    refine order.imp_of_mem_imp fun call next called calledNext above => ⟨?_, ?_⟩
    · rwa [lt_iff_toNat_lt, exactly next calledNext] at above
    · exact le_wrappingNextPeakThreshold positive (fits call.1 (callbacks.among call called))

/-- A sample with only resident memory. -/
def residentSample (rssBytes : UInt64) : GatedSample :=
  { GatedSample.unread with rssBytes := rssBytes, valid := true }

theorem sampler_statistics_climb :
    let rounds := [(residentSample 100, false, true), (residentSample 90, false, false),
      (residentSample 200000, false, true)]
    let sampler := (start 50 1048576 false true).processAll rounds
    sampler.calls.IsChain fun call next =>
      (wrappingNextPeakThreshold call.1.total 1048576).toNat < next.1.exactTotal ∧
        call.1.exactTotal + kMinPeakStepBytes ≤ (wrappingNextPeakThreshold call.1.total 1048576).toNat :=
  (sampler_statistics 50 1048576 false
    [(residentSample 100, false, true), (residentSample 90, false, false),
      (residentSample 200000, false, true)]
    (by decide)).2.2.2.2 rfl (by decide) (by decide)

/-- With a step below 64 KiB a threshold can overflow although every value stays below 2^64 minus the
step. -/
theorem threshold_wraps :
    let first := residentSample 18446744073709486080
    let second := residentSample 18446744073709486081
    let sampler := (start 0 1 false true).processAll [(first, false, true), (second, false, true)]
    sampler.calls = [(first, true), (second, true)] ∧
      first.exactTotal + 1 < 2 ^ 64 ∧ second.exactTotal + 1 < 2 ^ 64 ∧
      (wrappingNextPeakThreshold first.total 1).toNat = 0 := by
  decide +kernel

/-- As long as no threshold overflows, the sampler decides as the one in the model of the peak snapshot.
-/
theorem decider_processAll (sampler : ObservedPeakSampler) (listens : sampler.hasCallback = true)
    {rounds : List (GatedSample × Bool × Bool)}
    (fits : ∀ round ∈ rounds, round.1.total.toNat + max sampler.stepBytes.toNat kMinPeakStepBytes < 2 ^ 64) :
    (sampler.processAll rounds).decider = rounds.foldl (fun decider round =>
      let observed := decider.observe round.1.toObservedMemSample
      if observed.1 then observed.2.settle round.1.toObservedMemSample round.2.2 else observed.2)
        sampler.decider := by
  induction rounds using reverseRecOn with
  | nil => rfl
  | append_singleton before round ih =>
      obtain ⟨_, step, _, callback⟩ := sampler.processAll_settings before
      obtain ⟨fitsBefore, fitsHere⟩ := forall_mem_append.1 fits
      rw [processAll_snoc, foldl_append, ← ih fitsBefore]
      exact decider_process _ _ (callback.trans listens) (step ▸ fitsHere round mem_cons_self) _ _

theorem decider_processAll_climb :
    ((start 50 1048576 false true).processAll [(residentSample 100, false, true),
      (residentSample 90, false, false),
      (residentSample 200000, false, true)]).decider = ⟨265536, 200000, 1048576, false⟩ :=
  (decider_processAll _ rfl (by decide)).trans (by decide)

end ObservedPeakSampler

end MallocHook
