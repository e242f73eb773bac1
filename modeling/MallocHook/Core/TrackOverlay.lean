/-
Module: MallocHook.Core.TrackOverlay
Purpose: The track of the top allocations: lifetimes and peaks read from the print events of a trace,
  and the descriptors and slices made of them.
Trusted boundary: translation of scripts/build_perfetto_alloc_track.py, from the extraction of the
  lifetimes and the peaks to build_tracks; floating-point numbers and the texts made of them are
  parameters, and packets are encoded when they are merged
Main exports: iterTracePacketsRecursive, extractTimings
-/
import MallocHook.Core.AllocTrack
import MallocHook.Core.MarkerStrip

namespace MallocHook

open WireFormat

/-! ### Events -/

section

variable (zlib : Zlib) (iterate : Bytes → Option (List Bytes))

/-- The packets in the compressed fields of a packet. -/
def nestedPackets (packet : Bytes) : Option (List Bytes) :=
  (iterFields packet).bind fun fields =>
    (fields.mapM fun field => (lenOf compressedPacketsField field).elim (some []) fun payload =>
      (decompressPackets zlib payload).bind iterate).map List.flatten

/-- A packet and those inside it. -/
def withNested (packet : Bytes) : Option (List Bytes) :=
  (nestedPackets zlib iterate packet).map (packet :: ·)

end

/-- `_iter_trace_packets_recursive`. -/
def iterTracePacketsRecursive (zlib : Zlib) : Nat → Bytes → Option (List Bytes)
  | 0, _ => none
  | depth + 1, trace =>
      (iterTracePackets trace).bind fun packets =>
        (packets.mapM (withNested zlib (iterTracePacketsRecursive zlib depth))).map List.flatten

/-- The ftrace events of a packet that mention a tag. -/
def eventsWith (tag packet : Bytes) : Option (List Bytes) :=
  if tag <:+: packet then
    (iterFields packet).bind fun fields =>
      (fields.mapM fun field => (lenOf ftraceBundleField field).elim (some []) fun bundle =>
        (iterFields bundle).map fun events =>
          (events.filterMap (lenOf ftraceEventField)).filter fun event =>
            decide (tag <:+: event)).map List.flatten
  else some []

/-- `FTRACE_TS_FIELD`. -/
def ftraceTsField : Nat := 1

/-- `FTRACE_PRINT_FIELD`. -/
def ftracePrintField : Nat := 3

/-- `PRINT_BUF_FIELD`. -/
def printBufField : Nat := 2

/-- Bytes as the regular expressions see them. -/
def latin1 (bytes : Bytes) : List Char := bytes.map fun byte => Char.ofNat byte.toNat

/-- The `buf` of the print in an event: the last one there is. -/
def printText (fields : List WireField) : Option (Option Bytes) :=
  (fields.mapM fun field => (lenOf ftracePrintField field).elim (some []) fun print =>
    (iterFields print).map fun fields => fields.filterMap (lenOf printBufField)).map fun bufs =>
      bufs.flatten.getLast?

/-- An event that has a timestamp and a print. -/
def readPrint (event : Bytes) : Option (Option FtracePrint) :=
  (iterFields event).bind fun fields => (printText fields).map fun buf =>
    (lastField (varintOf ftraceTsField) fields).bind fun ts => buf.map fun buf => ⟨ts, latin1 buf⟩

/-- The prints of a trace whose event mentions a tag. -/
def printsWith (zlib : Zlib) (depth : Nat) (tag trace : Bytes) : Option (List FtracePrint) :=
  (iterTracePacketsRecursive zlib depth trace).bind fun packets =>
    (packets.mapM fun packet => (eventsWith tag packet).bind fun events =>
      events.mapM readPrint).map fun found =>
      found.flatten.filterMap id

/-! ### Lifetimes -/

/-- `extract_allocation_timings`. -/
def extractTimings (zlib : Zlib) (depth : Nat) (trace : Bytes) : Option (List Lifetime) :=
  (printsWith zlib depth allocMarkerTag trace).map (pairMarkers fun _ => [])

/-! ### Peak snapshots -/

/-- `\s` on bytes. -/
def isBlank (c : Char) : Bool := c = ' ' || c = '\t' || c = '\n' || c = '\r' || c = '\x0b' || c = '\x0c'

/-- A fixed text. -/
def literal (text : String) (input : List Char) : Option (List Char) :=
  if text.toList <+: input then some (input.drop text.toList.length) else none

theorem literal_append (text : String) (rest : List Char) :
    literal text (text.toList ++ rest) = some rest := by
  simp [literal]

/-- The longest run of characters of a class, which is not empty. -/
def runOf (test : Char → Bool) (input : List Char) : Option (List Char × List Char) :=
  if input.takeWhile test = [] then none else some (input.takeWhile test, input.dropWhile test)

/-- `\s+NAME_(mb|bytes)=([\d.]+)`: whether the unit is MiB, the number, and the rest. -/
def amountHere (name : String) (input : List Char) : Option (Bool × List Char × List Char) := do
  let (_, input) ← runOf isBlank input
  let (inMiB, input) ← ((literal (name ++ "_mb=") input).map (true, ·)).or
    ((literal (name ++ "_bytes=") input).map (false, ·))
  let (number, input) ← runOf (fun c => c.isDigit || c = '.') input
  pure (inMiB, number, input)

/-- `PEAK_RE` at the start of the text: the unit of the total and the three numbers. -/
def peakHere (input : List Char) : Option (Bool × List Char × List Char × List Char) := do
  let input ← literal "malloc_hook_peak_snapshot" input
  let (inMiB, total, input) ← amountHere "total" input
  let (_, host, input) ← amountHere "host" input
  let (_, dma, _) ← amountHere "dma" input
  pure (inMiB, total, host, dma)

/-- `PEAK_RE.search`. -/
def peakRe : List Char → Option (Bool × List Char × List Char × List Char)
  | [] => none
  | c :: rest => (peakHere (c :: rest)).or (peakRe rest)

/-- Floating-point numbers and their texts: `float`, the factor from bytes to MiB, the order,
`_peak_slice_name` and `_slice_name`. No number that is read is a NaN. -/
structure OverlayFormat (φ ι : Type*) where
  float : List Char → Option φ
  toMiB : φ → φ
  le : φ → φ → Bool
  peakSliceName : φ → φ → φ → Bool → Bytes
  sliceName : ι → Nat → Option Nat → Option Bytes

structure PeakSnapshot (φ : Type*) where
  ts : Nat
  totalMb : φ
  hostMb : φ
  dmaMb : φ

variable {φ ι : Type*}

/-- A print with a peak in it. -/
def readPeak (format : OverlayFormat φ ι) (event : FtracePrint) : Option (Option (PeakSnapshot φ)) :=
  match peakRe event.buf with
  | none => some none
  | some (inMiB, total, host, dma) =>
      let scale := if inMiB then id else format.toMiB
      (format.float total).bind fun total => (format.float host).bind fun host =>
        (format.float dma).map fun dma =>
        some ⟨event.ts, scale total, scale host, scale dma⟩

/-- `extract_peak_snapshots`. -/
def extractPeakSnapshots (format : OverlayFormat φ ι) (zlib : Zlib) (depth : Nat) (trace : Bytes) :
    Option (List (PeakSnapshot φ)) :=
  (printsWith zlib depth peakMarkerTag trace).bind fun events =>
    (events.mapM (readPeak format)).map fun found =>
    (found.filterMap id).insertionSort fun one two => one.ts ≤ two.ts

/-! ### Packets -/

/-- `TYPE_SLICE_BEGIN`. -/
def typeSliceBegin : Nat := 1

/-- `TYPE_SLICE_END`. -/
def typeSliceEnd : Nat := 2

/-- `CHILD_ORDERING_EXPLICIT`. -/
def childOrderingExplicit : Nat := 3

/-- `_make_track_descriptor`. -/
def makeTrackDescriptor (seq uuid : Nat) (name : Bytes) (first : Bool)
    (parent childOrdering siblingOrderRank : Option Nat) : Bytes :=
  makePacket [encodeLenField 60 ([encodeVarField 1 uuid, encodeLenField 2 name] ++
      (parent.map (encodeVarField 5)).toList ++ (childOrdering.map (encodeVarField 11)).toList ++
      (siblingOrderRank.map (encodeVarField 12)).toList).flatten]
    seq (some (if first then seqIncrementalStateCleared else seqNeedsIncrementalState)) first

/-- `_make_slice_packet`. -/
def makeSlicePacket (seq trackUuid ts clockId etype : Nat) (name : Option Bytes) : Bytes :=
  makePacket [encodeVarField 8 ts, encodeVarField 58 clockId,
      encodeLenField 11 ([encodeVarField 9 etype, encodeVarField 11 trackUuid] ++
        (name.map (encodeLenField 23)).toList).flatten]
    seq (some seqNeedsIncrementalState) false

/-- A packet before it is encoded. -/
inductive OverlayPacket where
  | descriptor (uuid : Nat) (name : Bytes) (first : Bool)
    (parent childOrdering siblingOrderRank : Option Nat)
  | slice (trackUuid ts etype : Nat) (name : Option Bytes)
deriving DecidableEq, Repr

def OverlayPacket.rootBytes (seq clockId : Nat) : OverlayPacket → Bytes
  | .descriptor uuid name first parent childOrdering siblingOrderRank =>
      makeTrackDescriptor seq uuid name first parent childOrdering siblingOrderRank
  | .slice trackUuid ts etype name => makeSlicePacket seq trackUuid ts clockId etype name

/-- A packet with the key it is sorted by. -/
structure Placed where
  packet : OverlayPacket
  ts : Nat
  order : Nat
deriving DecidableEq, Repr

def Placed.entry (seq clockId : Nat) (placed : Placed) : OverlayPacketEntry :=
  ⟨placed.packet.rootBytes seq clockId, placed.ts, placed.order⟩

/-- The variables of the loop of `build_tracks`. -/
structure Overlay where
  nextUuid : Nat
  order : Nat := 0
  packets : List Placed := []
deriving DecidableEq, Repr

def Overlay.add (overlay : Overlay) (packet : OverlayPacket) (ts : Nat) : Overlay :=
  { overlay with packets := overlay.packets ++ [⟨packet, ts, overlay.order⟩], order := overlay.order + 1 }

/-- A track name and a map from stacks to what is known about them. -/
abbrev TrackGroup (ι : Type*) := Bytes × List (Nat × ι)

/-- `_sub_track_name`, with a rank. -/
def subTrackName (rank : Nat) : Bytes :=
  asciiBytes "[memory hook] Allocation " ++ (Nat.toDigits 10 rank).map fun c => UInt8.ofNat c.toNat

section

variable (format : OverlayFormat φ ι) (traceMinNs : Nat)

/-- One peak: a slice of 2 ms. The first one that reaches the maximum is marked. -/
def addPeak (uuid : Nat) (maxTotal : φ) (state : Overlay × Bool) (snap : PeakSnapshot φ) : Overlay × Bool :=
  let isMax := !state.2 && format.le maxTotal snap.totalMb
  let name := format.peakSliceName snap.totalMb snap.hostMb snap.dmaMb isMax
  ((state.1.add (.slice uuid snap.ts typeSliceBegin (some name)) snap.ts).add
    (.slice uuid (snap.ts + 2000000) typeSliceEnd none) (snap.ts + 2000000), state.2 || isMax)

/-- The track of the peaks. -/
def addPeaks (parent : Nat) (snaps : List (PeakSnapshot φ)) (overlay : Overlay) : Overlay :=
  match snaps with
  | [] => overlay
  | first :: later =>
      let maxTotal := later.foldl (fun best snap => if format.le snap.totalMb best then best
        else snap.totalMb) first.totalMb
      let uuid := overlay.nextUuid
      let overlay := { overlay with nextUuid := uuid + 1 }.add
        (.descriptor uuid (asciiBytes "[memory hook] Peak") false (some parent) none (some 0)) traceMinNs
      (snaps.foldl (addPeak format uuid maxTotal) (overlay, false)).1

/-- One allocation: its track and its slice. -/
def addAllocation (parent : Nat) (hashMap : List (Nat × ι)) (overlay : Overlay) (timing : Lifetime × Nat) :
    Option Overlay :=
  (hashMap.lookup timing.1.hashIndex).bind fun info =>
    (format.sliceName info timing.1.hashIndex timing.1.sizeBytes).map fun name =>
      let uuid := parent + 1 + timing.2
      let rank := timing.2 + 1
      let endTs := timing.1.ts + if timing.1.dur > 0 then timing.1.dur else 1000000
      ((overlay.add (.descriptor uuid (subTrackName rank) false (some parent) none (some rank))
        traceMinNs).add
        (.slice uuid timing.1.ts typeSliceBegin (some name)) timing.1.ts).add
          (.slice uuid endTs typeSliceEnd none) endTs

/-- The lifetimes that a group knows the stack of, the largest first. -/
def usableTimings (timings : List Lifetime) (hashMap : List (Nat × ι)) : List Lifetime :=
  (timings.filter fun timing => (hashMap.lookup timing.hashIndex).isSome).insertionSort
    fun one two => two.sizeBytes.getD 0 ≤ one.sizeBytes.getD 0

/-- The allocations of a group, with consecutive uuids. -/
def addAllocations (parent : Nat) (hashMap : List (Nat × ι)) (usable : List (Lifetime × Nat))
    (overlay : Overlay) : Option Overlay :=
  usable.foldlM (addAllocation format traceMinNs parent hashMap) overlay

/-- One group. Its parent track and its allocations get their uuids before the peaks do. -/
def addGroup (timings : List Lifetime) (snaps : List (PeakSnapshot φ)) (group : TrackGroup ι)
    (overlay : Overlay) : Option Overlay :=
  let usable := usableTimings timings group.2
  let parent := overlay.nextUuid
  let overlay := { overlay with nextUuid := parent + 1 + usable.length }.add
    (.descriptor parent group.1 (overlay.order == 0) none (some childOrderingExplicit) none) traceMinNs
  addAllocations format traceMinNs parent group.2 usable.zipIdx
    (addPeaks format traceMinNs parent snaps overlay)

/-- The groups; only the first has the peaks. -/
def addGroups (timings : List Lifetime) (snaps : List (PeakSnapshot φ)) :
    List (TrackGroup ι) → Overlay → Option Overlay
  | [], overlay => some overlay
  | group :: later, overlay =>
      (addGroup format traceMinNs timings snaps group overlay).bind (addGroups timings [] later)

/-- What is reported about a group: its name, how many slices it has and how many stacks have none. -/
def groupStats (timings : List Lifetime) (group : TrackGroup ι) : Bytes × Nat × Nat :=
  let usable := usableTimings timings group.2
  (group.1, usable.length, group.2.length - (usable.map Lifetime.hashIndex).dedup.length)

end

/-- `build_tracks`. -/
def buildTracks (format : OverlayFormat φ ι) (zlib : Zlib) (depth : Nat) (trace : Bytes)
    (groups : List (TrackGroup ι)) (stripMarkers : Bool) :
    Option (Bytes × List (Bytes × Nat × Nat) × Nat) :=
  (extractTimings zlib depth trace).bind fun timings =>
    (extractPeakSnapshots format zlib depth trace).bind fun snaps =>
      (if stripMarkers then stripAllocMarkers zlib depth trace
        else some (trace, 0)).bind fun (trace, stripped) =>
        (analyzeTrace zlib depth trace).bind fun metadata =>
          (addGroups format metadata.traceMinNs timings snaps groups
            { nextUuid := metadata.nextUuid }).bind fun overlay =>
            (mergeOverlayPackets trace (overlay.packets.map
              (Placed.entry metadata.overlaySequenceId metadata.primaryClockId))).map fun merged =>
                (merged, groups.map (groupStats timings), stripped)

end MallocHook
