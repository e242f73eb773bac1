/-
Module: MallocHook.Core.ObservedMemory
Purpose: How the sampler reads the footprint of its process. Each pass over maps and smaps has a cache
  that says whether it is worth running.
Trusted boundary: translation of the gated readers of backtrace/src/ObservedMemory.cpp, as the
  sampler calls them; what the files under /proc, /sys and /dev hold is an input
Main exports: Readings, GatedSample, readSelfDmaBytesGated
-/
import MallocHook.Core.PeakSnapshot

namespace MallocHook

/-! ### What there is to read -/

inductive DmaSource where
  | unprobed
  | none
  | fdAndMaps
  | ionProcInfo
deriving DecidableEq, Repr, Inhabited

inductive GpuMmapSource where
  | unprobed
  | notApplicable
  | maps
  | kgsl
deriving DecidableEq, Repr, Inhabited

/-- What the KGSL node of the process gives. `pending` is `ENOENT` with the driver's directory present,
`failed` any other error. -/
inductive KgslNode where
  | denied
  | pending
  | failed
  | garbled
  | bytes (value : UInt64)
deriving DecidableEq, Repr, Inhabited

/-- What one walk over smaps adds up. -/
structure GpuSmapsReading where
  allRssBytes : UInt64
  deviceRssBytes : UInt64
deriving DecidableEq, Repr, Inhabited

/-- What is there to be read at one sample. `ionBytes` is there on kernels with an ION file; `dmaMapBytes`
is what the mapping pass finds if it runs. -/
structure Readings where
  rss : RssBreakdown
  kgsl : KgslNode
  ionBytes : Option UInt64
  dmaFdBytes : UInt64
  dmaFdSawAny : Bool
  dmaMapBytes : UInt64
  dmaMapSawAny : Bool
  inodesOverflowed : Bool
  gpuNodePresent : Bool
  gpuMapped : Option UInt64
  smaps : Option GpuSmapsReading
deriving DecidableEq, Repr, Inhabited

/-! ### The dma-buf passes -/

/-- `DmaMapCache`. -/
structure DmaMapCache where
  bytes : UInt64 := 0
  maxBytes : UInt64 := 0
  refreshes : Nat := 0
  samplesSinceRefresh : Nat := 0
  everRan : Bool := false
deriving DecidableEq, Repr, Inhabited

def kMapRefreshSamples : Nat := 8

/-- Where the mapping figure of a sample comes from. -/
inductive MapPass where
  | ran
  | carried
  | notNeeded
deriving DecidableEq, Repr, Inhabited

/-- What the dma-buf passes leave in a sample. -/
structure DmaFigures where
  source : DmaSource
  fdBytes : UInt64
  mapBytes : UInt64
  mapPass : MapPass
deriving DecidableEq, Repr, Inhabited

namespace DmaMapCache

variable (cache : DmaMapCache)

/-- The sum the gate compares with the peak: resident memory, descriptors, and the last mapping figure. -/
def provisional (rssBytes dmaFdBytes : UInt64) : UInt64 :=
  rssBytes + dmaFdBytes + cache.bytes

/-- Whether the mapping pass runs in this sample. -/
def runMapPass (rssBytes dmaFdBytes peakTotalBytes : UInt64) : Bool :=
  !cache.everRan || decide (cache.provisional rssBytes dmaFdBytes ≥ peakTotalBytes) ||
    decide (cache.samplesSinceRefresh ≥ kMapRefreshSamples)

/-- The cache after a pass that found `found` bytes. -/
def refresh (found : UInt64) : DmaMapCache where
  bytes := found
  maxBytes := if found > cache.maxBytes then found else cache.maxBytes
  refreshes := cache.refreshes + 1
  samplesSinceRefresh := 0
  everRan := true

/-- The cache after a sample that did without the pass. -/
def age : DmaMapCache :=
  { cache with samplesSinceRefresh := cache.samplesSinceRefresh + 1 }

end DmaMapCache

variable (readings : Readings)

/-- `ReadSelfDmaBytesGated`. -/
def readSelfDmaBytesGated (rssBytes peakTotalBytes : UInt64) (cache : DmaMapCache) :
    DmaFigures × DmaMapCache :=
  match readings.ionBytes with
  | some ionBytes => (⟨.ionProcInfo, ionBytes, 0, .notNeeded⟩, cache)
  | none =>
      if cache.runMapPass rssBytes readings.dmaFdBytes peakTotalBytes then
        let sawAny := readings.dmaFdSawAny || readings.dmaMapSawAny
        (⟨if sawAny then .fdAndMaps else .none, readings.dmaFdBytes, readings.dmaMapBytes, .ran⟩,
          cache.refresh readings.dmaMapBytes)
      else
        let sawAny := readings.dmaFdSawAny || cache.maxBytes != 0
        (⟨if sawAny then .fdAndMaps else .none, readings.dmaFdBytes, cache.bytes, .carried⟩, cache.age)

/-! ### The GPU passes -/

/-- `GpuMmapCache`. -/
structure GpuMmapCache where
  bytes : UInt64 := 0
  maxBytes : UInt64 := 0
  mappedAtRead : UInt64 := 0
  haveRead : Bool := false
  reads : Nat := 0
  readFailures : Nat := 0
  probedAbsent : Bool := false
deriving DecidableEq, Repr, Inhabited

/-- `GpuBytesFromReading`. -/
def gpuBytesFromReading (reading : GpuSmapsReading) (vmrssBytes : UInt64) : UInt64 :=
  let divergence :=
    if reading.allRssBytes > vmrssBytes then reading.allRssBytes - vmrssBytes else 0
  if divergence < reading.deviceRssBytes then divergence else reading.deviceRssBytes

/-- `GpuSampleNeedsRead`. -/
def gpuSampleNeedsRead (cache : GpuMmapCache) (mappedBytes : UInt64) : Bool :=
  if mappedBytes = 0 ∧ cache.haveRead = false then false
  else if cache.haveRead = false then true
  else mappedBytes != cache.mappedAtRead

/-- The part of the GPU pass that may read smaps. -/
def GpuMmapCache.measure (cache : GpuMmapCache) (smaps : Option GpuSmapsReading)
    (rssBytes mapped : UInt64) : GpuMmapCache :=
  if gpuSampleNeedsRead cache mapped then
    match smaps with
    | some reading =>
        let bytes := gpuBytesFromReading reading rssBytes
        { cache with
          bytes := bytes
          mappedAtRead := mapped
          haveRead := true
          reads := cache.reads + 1
          maxBytes := if bytes > cache.maxBytes then bytes else cache.maxBytes }
    | none => { cache with readFailures := cache.readFailures + 1 }
  else cache

/-- `ReadSelfGpuMmapBytesGated`: source and figure of the sample, and the cache. The peak is not
consulted. -/
def readSelfGpuMmapBytesGated (rssBytes : UInt64) (cache : GpuMmapCache) :
    (GpuMmapSource × UInt64) × GpuMmapCache :=
  if cache.probedAbsent then ((.notApplicable, 0), cache)
  else if !readings.gpuNodePresent then ((.notApplicable, 0), { cache with probedAbsent := true })
  else
    match readings.gpuMapped with
    | none =>
        let cache := { cache with readFailures := cache.readFailures + 1 }
        if cache.haveRead then ((.maps, cache.bytes), cache) else ((.unprobed, 0), cache)
    | some mapped =>
        let cache := cache.measure readings.smaps rssBytes mapped
        ((.maps, cache.bytes), cache)

/-- The latched answer of `ReadSelfKgslKernel`. -/
inductive KgslState where
  | unknown
  | active
  | unavailable
deriving DecidableEq, Repr, Inhabited

/-- `ReadSelfKgslKernel`: the bytes of the node, if the KGSL model applies to this sample. -/
def readSelfKgslKernel (node : KgslNode) (state : KgslState) : Option UInt64 × KgslState :=
  if state = .unavailable then (none, state)
  else
    match node with
    | .bytes value => (some value, .active)
    | .garbled | .pending => (none, state)
    | .denied | .failed => (none, if state = .unknown then .unavailable else state)

/-! ### One sample -/

/-- All of `ObservedMemSample` but the time its passes took. `mapPass` only records what happened. -/
structure GatedSample extends ObservedMemSample where
  dmaFdBytes : UInt64
  dmaMapBytes : UInt64
  dmaSource : DmaSource
  gpuSource : GpuMmapSource
  mapPass : MapPass
deriving DecidableEq, Repr, Inhabited

/-- What the readers carry from one sample to the next. -/
structure ReaderCaches where
  map : DmaMapCache := {}
  gpu : GpuMmapCache := {}
  kgsl : KgslState := .unknown
deriving DecidableEq, Repr, Inhabited

/-- The sample a reader returns when /proc/self/status could not be read. -/
def GatedSample.unread : GatedSample where
  rssBytes := 0
  dmaBytes := 0
  gpuBytes := 0
  valid := false
  dmaFdBytes := 0
  dmaMapBytes := 0
  dmaSource := .unprobed
  gpuSource := .unprobed
  mapPass := .notNeeded

/-- `ReadObservedMemoryGated`. With a readable KGSL node, resident memory is the anonymous part and the
GPU figure the node's; elsewhere the GPU pass runs last. -/
def readObservedMemoryGated (peakTotalBytes : UInt64) (caches : ReaderCaches) :
    GatedSample × ReaderCaches :=
  if !readings.rss.valid then (.unread, caches)
  else
    let kgsl := readSelfKgslKernel readings.kgsl caches.kgsl
    let rssKb := if kgsl.1.isSome then readings.rss.anonKb else readings.rss.vmRssKb
    let rssBytes := UInt64.ofNat (rssKb * 1024)
    let dma := readSelfDmaBytesGated readings rssBytes peakTotalBytes caches.map
    let gpu : (GpuMmapSource × UInt64) × GpuMmapCache :=
      match kgsl.1 with
      | some bytes => ((.kgsl, bytes), caches.gpu)
      | none => readSelfGpuMmapBytesGated readings rssBytes caches.gpu
    ({  rssBytes := rssBytes
        dmaBytes := dma.1.fdBytes + dma.1.mapBytes
        gpuBytes := gpu.1.2
        valid := true
        dmaFdBytes := dma.1.fdBytes
        dmaMapBytes := dma.1.mapBytes
        dmaSource := dma.1.source
        gpuSource := gpu.1.1
        mapPass := dma.1.mapPass },
      { map := dma.2, gpu := gpu.2, kgsl := kgsl.2 })

end MallocHook
