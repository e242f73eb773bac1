/-
Module: MallocHook.Core.CsvOverlay
Purpose: Counter tracks from a table of samples: the packets, their merge into a trace by time, and the
  check of the result.
Trusted boundary: translation of scripts/merge_csv_to_perfetto.py, but for what it shares with
  scripts/perfetto_proto.py; a floating-point number is its eight bytes, an integer read as a value
  stays one, and a negative timestamp fails even where there is no column
Main exports: OverlayLayout, mapSampleTimestamps, buildOverlay
-/
import Mathlib.Data.List.Dedup
import MallocHook.Core.PerfettoProto

namespace MallocHook

open WireFormat

/-- `struct.pack("<d", value)`. -/
structure Double where
  bytes : Bytes
  eight : bytes.length = 8
deriving DecidableEq, Repr

/-- The value of a counter event. -/
inductive CounterValue where
  | integer (value : Nat)
  | double (value : Double)
deriving DecidableEq, Repr

/-! ### Packets -/

/-- `COUNTER_EVENT_TYPE`. -/
def counterEventType : Nat := 4

/-- `DOUBLE_COUNTER_VALUE_FIELD`. -/
def doubleCounterValueField : Nat := 44

/-- `encode_double_field`. -/
def encodeDoubleField (number : Nat) (value : Double) : Bytes :=
  (⟨number, .fixed64 value.bytes⟩ : WireField).encode

/-- `make_descriptor_packet`. A unit without a name is left out. -/
def makeDescriptorPacket (sequenceId uuid : Nat) (name : Bytes) (parentUuid : Option Nat) (unitName : Bytes)
    (firstPacket : Bool) : Bytes :=
  makePacket [encodeLenField 60 ([encodeVarField 1 uuid, encodeLenField 2 name] ++
      (parentUuid.map (encodeVarField 5)).toList ++
      (if unitName = [] then [] else [encodeLenField 8 (encodeLenField 6 unitName)])).flatten]
    sequenceId (some (if firstPacket then seqIncrementalStateCleared else seqNeedsIncrementalState))
      firstPacket

/-- `make_counter_packet`. -/
def makeCounterPacket (sequenceId trackUuid timestampNs clockId : Nat) (value : Double) : Bytes :=
  makePacket [encodeVarField 8 timestampNs, encodeVarField 58 clockId,
      encodeLenField 11 [encodeVarField 9 counterEventType, encodeVarField 11 trackUuid,
        encodeDoubleField doubleCounterValueField value].flatten]
    sequenceId (some seqNeedsIncrementalState) false

/-- A packet before it is encoded. -/
inductive CsvPacket where
  | descriptor (uuid : Nat) (name : Bytes) (parentUuid : Option Nat) (unitName : Bytes) (firstPacket : Bool)
  | counter (trackUuid timestampNs : Nat) (value : Double)
deriving DecidableEq, Repr

def CsvPacket.rootBytes (metadata : TraceMetadata) : CsvPacket → Bytes
  | .descriptor uuid name parentUuid unitName firstPacket =>
      makeDescriptorPacket metadata.overlaySequenceId uuid name parentUuid unitName firstPacket
  | .counter trackUuid timestampNs value =>
      makeCounterPacket metadata.overlaySequenceId trackUuid timestampNs metadata.primaryClockId value

/-! ### The overlay -/

structure OverlayLayout where
  sequenceId : Nat
  parentUuid : Nat
  trackUuids : List Nat
  rowCount : Nat
  mappedMinNs : Nat
  mappedMaxNs : Nat
  timestamps : List Nat
deriving DecidableEq, Repr

/-- The time of a sample in milliseconds, and its values. -/
abbrev CsvSample := Int × List Double

/-- `map_sample_timestamps`, where no timestamp is negative. -/
def mapSampleTimestamps (samples : List CsvSample) (offsetNs : Int) : Option (List Nat) :=
  samples.mapM fun sample => (sample.1 * 1000000 - offsetNs).toNat?

/-- `validate_overlay_range` passes. -/
def validateOverlayRange (metadata : TraceMetadata) (mappedMinNs mappedMaxNs : Nat) : Bool :=
  decide (metadata.traceMinNs ≤ mappedMaxNs ∧ mappedMinNs ≤ metadata.traceMaxNs)

/-- `track_uuids`: of equal columns the last one counts. -/
def trackUuid (parentUuid : Nat) (columns : List Bytes) (column : Bytes) : Nat :=
  parentUuid + (columns.zipIdx.reverse.lookup column).getD 0 + 1

/-- `f"{track_prefix}/{column}" if track_prefix else column`. -/
def csvTrackName (trackPrefix column : Bytes) : Bytes :=
  if trackPrefix = [] then column else trackPrefix ++ 0x2f :: column

section

variable (columns : List Bytes) (samples : List CsvSample) (metadata : TraceMetadata)
  (groupName trackPrefix unitName : Bytes) (timestamps : List Nat) (startNs : Nat)

/-- The descriptors, at the time of the first event. -/
def csvDescriptors : List (CsvPacket × Nat) :=
  (.descriptor metadata.nextUuid groupName none [] true, startNs) ::
    columns.map fun column =>
      (.descriptor (trackUuid metadata.nextUuid columns column) (csvTrackName trackPrefix column)
        (some metadata.nextUuid)
        unitName false, startNs)

/-- The events of one sample. -/
def sampleEvents (timestampNs : Nat) (values : List Double) : List (CsvPacket × Nat) :=
  (columns.zip values).map fun (column, value) =>
    (.counter (trackUuid metadata.nextUuid columns column) timestampNs value, timestampNs)

/-- The packets in the order in which they are made, each with its time. -/
def csvPackets : List (CsvPacket × Nat) :=
  csvDescriptors columns metadata groupName trackPrefix unitName startNs ++
    (timestamps.zip samples).flatMap fun (timestampNs, sample) =>
      sampleEvents columns metadata timestampNs sample.2

/-- Packets with their sort keys: a packet is sorted by its time, and among equal times by its place. -/
def csvEntries (packets : List (CsvPacket × Nat)) : List OverlayPacketEntry :=
  packets.zipIdx.map fun ((packet, timestampNs), order) => ⟨packet.rootBytes metadata, timestampNs, order⟩

/-- `build_overlay`. -/
def buildOverlay : Option (List OverlayPacketEntry × OverlayLayout) :=
  (mapSampleTimestamps samples metadata.offsetNs).bind fun timestamps =>
    (timestamps.min?).bind fun mappedMin => (timestamps.max?).bind fun mappedMax =>
      if validateOverlayRange metadata mappedMin mappedMax then
        some (csvEntries metadata
            (csvPackets columns samples metadata groupName trackPrefix unitName timestamps mappedMin),
          { sequenceId := metadata.overlaySequenceId
            parentUuid := metadata.nextUuid
            trackUuids := columns.dedup.map (trackUuid metadata.nextUuid columns)
            rowCount := samples.length
            mappedMinNs := mappedMin
            mappedMaxNs := mappedMax
            timestamps := timestamps })
      else none

end

/-! ### The check -/

/-- The local variables of `parse_counter_event`. -/
structure CounterEvent where
  trackUuid : Option Nat := none
  isCounter : Bool := false
  counterValue : Option CounterValue := none
deriving DecidableEq, Repr

/-- One field of an event. -/
def CounterEvent.read (event : CounterEvent) (field : WireField) : Option CounterEvent :=
  match field.number, field.value with
  | 9, .varint value => some { event with isCounter := value == counterEventType }
  | 11, .varint value => some { event with trackUuid := some value }
  | 30, .varint value => some { event with counterValue := some (.integer value) }
  | 44, .fixed64 bytes =>
      if eight : bytes.length = 8 then some { event with counterValue := some (.double ⟨bytes, eight⟩) }
        else none
  | _, _ => some event

/-- `parse_counter_event`. -/
def parseCounterEvent (payload : Bytes) : Option CounterEvent :=
  (iterFields payload).bind fun fields => fields.foldlM CounterEvent.read {}

/-- The value of an event that is a counter event with a value. -/
def CounterEvent.value? (event : CounterEvent) : Option CounterValue :=
  if event.isCounter then event.counterValue else none

/-- The local variables of the loop over the fields of a packet. -/
structure PacketReport where
  sequence : Option Nat := none
  clockId : Option Nat := none
  timestamp : Option Nat := none
  event : Option Bytes := none
  descriptors : List Nat := []
deriving DecidableEq, Repr

variable (layout : OverlayLayout)

/-- One field of a packet. Descriptors and events count once the sequence is known. -/
def PacketReport.read (report : PacketReport) (field : WireField) : Option PacketReport :=
  match field.number, field.value with
  | 8, .varint value => some { report with timestamp := some value }
  | 10, .varint value => some { report with sequence := some value }
  | 58, .varint value => some { report with clockId := some value }
  | 60, .len payload =>
      if report.sequence = some layout.sequenceId then
        (parseTrackUuid payload).map fun uuid =>
          { report with descriptors := report.descriptors ++
              uuid.toList.filter fun uuid => decide (uuid ∈ layout.parentUuid :: layout.trackUuids) }
      else some report
  | 11, .len payload =>
      if report.sequence = some layout.sequenceId then some { report with event := some payload }
        else some report
  | _, _ => some report

/-- What the check notes about a packet: the tracks it describes, its event with time and clock, and
whether it is a timestamped packet of the trace. -/
structure PacketNote where
  descriptors : List Nat
  event : Option (Nat × Nat × Option Nat × CounterValue)
  original : Bool
deriving DecidableEq, Repr

/-- The event of a packet on one of the tracks: track, time, clock and value. -/
def PacketReport.eventNote (report : PacketReport) :
    Option (Option (Nat × Nat × Option Nat × CounterValue)) :=
  match report.event.filter (· ≠ []), report.timestamp with
  | some payload, some timestamp =>
      (parseCounterEvent payload).map fun event =>
        event.value?.bind fun value => (event.trackUuid.filter (· ∈ layout.trackUuids)).map fun uuid =>
          (uuid, timestamp, report.clockId, value)
  | _, _ => some none

/-- One packet of the loop of `verify_overlay`. -/
def verifyPacket (packet : Bytes) : Option PacketNote :=
  (iterFields packet).bind fun fields => (fields.foldlM (PacketReport.read layout) {}).bind fun report =>
    (report.eventNote layout).map fun event =>
      { descriptors := report.descriptors
        event := event
        original := report.timestamp.isSome && decide (report.sequence ≠ some layout.sequenceId) }

/-- The positions of the packets that pass a test. -/
def positions (test : PacketNote → Bool) (notes : List PacketNote) : List Nat :=
  (notes.zipIdx.filter fun note => test note.1).map Prod.snd

/-- The events on a track are those of the rows, with the clock of the trace and their timestamps. -/
def trackVerified (primaryClockId : Nat)
    (events : List (Nat × Nat × Option Nat × CounterValue)) (uuid : Nat) : Bool :=
  let onTrack := events.filter fun event => event.1 == uuid
  decide (onTrack.length = layout.rowCount ∧ (∀ event ∈ onTrack, event.2.2.1 = some primaryClockId) ∧
    onTrack.map (fun event => event.2.1) = layout.timestamps)

/-- A late tail block: the last event is behind the last timestamped packet of the trace. -/
def lateTail (notes : List PacketNote) : Bool :=
  (positions (fun note => note.event.isSome) notes).max?.any fun lastEvent =>
    (positions PacketNote.original notes).max?.any fun lastOriginal => decide (lastOriginal < lastEvent)

/-- `verify_overlay`: how many tracks are described, and how many events there are. -/
def verifyOverlay (trace : Bytes) (layout : OverlayLayout) (primaryClockId : Nat) : Option (Nat × Nat) :=
  (iterTracePackets trace).bind fun packets => (packets.mapM (verifyPacket layout)).bind fun notes =>
    let seen := notes.flatMap PacketNote.descriptors
    let events := notes.filterMap PacketNote.event
    if ¬(∀ uuid ∈ layout.parentUuid :: layout.trackUuids, uuid ∈ seen) then none
    else if ¬(∀ uuid ∈ layout.trackUuids, trackVerified layout primaryClockId events uuid) then none
    else if lateTail notes then none
    else some (seen.dedup.length, (layout.trackUuids.map fun uuid =>
      (events.filter fun event => event.1 == uuid).length).sum)

end MallocHook
