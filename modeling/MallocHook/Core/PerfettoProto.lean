/-
Module: MallocHook.Core.PerfettoProto
Purpose: The protobuf base of the trace scripts: fields, packets, timestamps, the scan of a whole trace,
  and the merge of new packets by time.
Trusted boundary: translation of scripts/perfetto_proto.py; zlib is a parameter that inverts itself,
  nesting is bounded by a depth that a caller supplies, and texts are given as their UTF-8 bytes
Main exports: iterFields, iterTracePackets, decompressPackets
-/
import Mathlib.Algebra.GroupWithZero.Nat
import Mathlib.Data.List.Infix
import Mathlib.Data.List.Sort
import MallocHook.Lib.WireFormat

namespace MallocHook

open WireFormat

/-! ### Fields -/

/-- `iter_fields`, read to its end. -/
def iterFields (buf : Bytes) : Option (List WireField) := readAll readField buf

/-- A loop over `iter_fields` that returns at the first field it selects: `none` if it meets an unreadable
one before. -/
def firstFieldAux {β : Type*} (select : WireField → Option β) : Nat → Bytes → Option (Option β)
  | _, [] => some none
  | 0, _ :: _ => none
  | fuel + 1, byte :: later =>
      (readField (byte :: later)).bind fun (field, rest) =>
        (select field).elim (firstFieldAux select fuel rest) fun found => some (some found)

def firstField {β : Type*} (select : WireField → Option β) (buf : Bytes) : Option (Option β) :=
  firstFieldAux select buf.length buf

/-- The value of a field with this number and wire type 0. -/
def varintOf (number : Nat) (field : WireField) : Option Nat :=
  if field.number = number then
    match field.value with
    | .varint value => some value
    | _ => none
  else none

/-- The payload of a field with this number and wire type 2. -/
def lenOf (number : Nat) (field : WireField) : Option Bytes :=
  if field.number = number then
    match field.value with
    | .len payload => some payload
    | _ => none
  else none

/-- `encode_var_field`. -/
def encodeVarField (number value : Nat) : Bytes := (⟨number, .varint value⟩ : WireField).encode

/-- `encode_len_field`. -/
def encodeLenField (number : Nat) (payload : Bytes) : Bytes := (⟨number, .len payload⟩ : WireField).encode

/-! ### Trace packets -/

/-- One step of `iter_trace_packets`. -/
def readPacket (bytes : Bytes) : Option (Bytes × Bytes) :=
  (readVarint bytes).bind fun (key, rest) =>
    if key ≠ 10 then none
    else (readVarint rest).map fun (size, rest) => (rest.take size, rest.drop size)

/-- A packet is read as a field with number 1 and a length. -/
theorem readPacket_iff {bytes packet rest : Bytes} :
    readPacket bytes = some (packet, rest) ↔ readField bytes = some (⟨1, .len packet⟩, rest) := by
  cases readKey : readVarint bytes with
  | none => simp [readPacket, readField, readKey]
  | some found =>
      obtain ⟨key, afterKey⟩ := found
      by_cases packetKey : key = 10
      · subst packetKey
        cases size : readVarint afterKey with
        | none => simp [readPacket, readField, readValue, *]
        | some found => simp [readPacket, readField, readValue, *]
      · simp only [readPacket, readField, readKey, Option.bind_some, ne_eq, packetKey,
          not_false_eq_true, if_true,
          reduceCtorEq, false_iff]
        intro reads
        obtain ⟨⟨value, rest'⟩, readsValue, same⟩ := Option.map_eq_some_iff.1 reads
        obtain ⟨number, rfl⟩ : key / 8 = 1 ∧ value = .len packet := by simpa using (Prod.mk.inj same).1
        unfold readValue at readsValue
        -- only wire type 2 gives a value with a length, and the key is then 10 after all
        split at readsValue <;> simp at readsValue
        omega

theorem isReader_readPacket : IsReader readPacket where
  spec reads := by
    obtain ⟨used, same, ends, delimits⟩ := isReader_readField.spec (readPacket_iff.1 reads)
    exact ⟨used, same, ⟨ends.1, readPacket_iff.2 ends.2⟩,
      fun long => ⟨ends.1, fun tail => readPacket_iff.2 ((delimits long).2 tail)⟩⟩

theorem packet_delimits (packet : Bytes) : Delimits readPacket (encodeLenField 1 packet, packet) := by
  have delimits := encode_delimits (show (⟨1, .len packet⟩ : WireField).value.Complete from trivial)
  exact ⟨delimits.1, fun tail => readPacket_iff.2 (delimits.2 tail)⟩

/-- `iter_trace_packets`. -/
def iterTracePackets (trace : Bytes) : Option (List Bytes) := readAll readPacket trace

/-- `iter_trace_packet_entries`: each packet with the bytes of its entry in the root. -/
def iterTracePacketEntries (trace : Bytes) : Option (List (Bytes × Bytes)) :=
  readAll (withSpan readPacket) trace

/-- `parse_packet_timestamp`. -/
def parsePacketTimestamp (packet : Bytes) : Option (Option Nat) := firstField (varintOf 8) packet

/-- `wbits`: `MAX_WBITS` or `-MAX_WBITS`. -/
inductive Framing where
  | zlib
  | raw
deriving DecidableEq, Repr

/-- The part of zlib that is used. -/
structure Zlib where
  decompress : Framing → Bytes → Option Bytes
  deflate : Framing → Bytes → Bytes
  decompress_deflate : ∀ framing payload, decompress framing (deflate framing payload) = some payload
  raw_is_not_zlib : ∀ payload, decompress .zlib (deflate .raw payload) = none

/-- Data that is only stored, behind one byte that tells the framing. -/
def Zlib.stored : Zlib where
  decompress
    | .zlib, 0x78 :: payload => some payload
    | .raw, 0x01 :: payload => some payload
    | _, _ => none
  deflate
    | .zlib, payload => 0x78 :: payload
    | .raw, payload => 0x01 :: payload
  decompress_deflate framing payload := by cases framing <;> rfl
  raw_is_not_zlib _ := rfl

/-- `decompress_packets`. -/
def decompressPackets (zlib : Zlib) (payload : Bytes) : Option Bytes :=
  (zlib.decompress .zlib payload).or (zlib.decompress .raw payload)

/-! ### Clocks and tracks -/

/-- `REALTIME_CLOCK_ID`. -/
def realtimeClockId : Nat := 1

/-- `SEQ_INCREMENTAL_STATE_CLEARED`. -/
def seqIncrementalStateCleared : Nat := 1

/-- `SEQ_NEEDS_INCREMENTAL_STATE`. -/
def seqNeedsIncrementalState : Nat := 2

def offsetSpreadLimitNs : Int := 50000000

/-- The last field that is selected. -/
def lastField {β : Type*} (select : WireField → Option β) (fields : List WireField) : Option β :=
  fields.foldl (fun found field => (select field).or found) none

/-- One clock of a snapshot: its id and its time. -/
def parseClock (payload : Bytes) : Option (Option (Nat × Nat)) :=
  (iterFields payload).map fun fields =>
    (lastField (varintOf 1) fields).bind fun clockId =>
      (lastField (varintOf 2) fields).map fun timestamp =>
        let multiplier := (lastField (varintOf 4) fields).getD 0
        (clockId, timestamp * if multiplier = 0 then 1 else multiplier)

/-- The primary clock of a snapshot, and its clocks with the last one of an id first. -/
abbrev ClockSnapshot := Option Nat × List (Nat × Nat)

/-- One field of a snapshot. -/
def parseClockField (snapshot : ClockSnapshot) (field : WireField) : Option ClockSnapshot :=
  match lenOf 1 field, varintOf 2 field with
  | some clock, _ => (parseClock clock).map fun parsed => (snapshot.1, parsed.toList ++ snapshot.2)
  | none, some id => some (some id, snapshot.2)
  | none, none => some snapshot

/-- `parse_clock_snapshot`. -/
def parseClockSnapshot (payload : Bytes) : Option ClockSnapshot :=
  (iterFields payload).bind fun fields => fields.foldlM parseClockField (none, [])

/-- `parse_track_uuid`. -/
def parseTrackUuid (payload : Bytes) : Option (Option Nat) := firstField (varintOf 1) payload

/-! ### The scan of a trace -/

/-- The dictionary that `scan_trace_packet` fills. -/
structure ScanState where
  traceMinNs : Nat := 2 ^ 63
  traceMaxNs : Nat := 0
  sequenceIds : List Nat := []
  trackUuids : List Nat := []
  primaryIds : List Nat := []
  offsets : List Int := []
deriving DecidableEq, Repr

/-- The clocks of the last snapshot in a packet, once the packet is read. -/
def ScanState.addSnapshot (state : ScanState) (snapshot : Option ClockSnapshot) : ScanState :=
  (snapshot.bind fun (primary, clocks) =>
    (primary.filter (· != 0)).bind fun primary =>
      (clocks.lookup realtimeClockId).bind fun realtime =>
        (clocks.lookup primary).map fun value =>
          { state with
            primaryIds := state.primaryIds ++ [primary]
            offsets := state.offsets ++ [(realtime : Int) - value] }).getD state

section

variable (zlib : Zlib) (scanNested : Bytes → ScanState → Option ScanState)

/-- One field of a packet, with the snapshot found so far. -/
def scanField (state : ScanState) (snapshot : Option ClockSnapshot) (field : WireField) :
    Option (ScanState × Option ClockSnapshot) :=
  match field.number, field.value with
  | 8, .varint value =>
      some ({ state with
        traceMinNs := min state.traceMinNs value
        traceMaxNs := max state.traceMaxNs value }, snapshot)
  | 10, .varint value =>
      some (if value ≠ 0 then { state with sequenceIds := state.sequenceIds ++ [value] }
        else state, snapshot)
  | 60, .len payload =>
      (parseTrackUuid payload).map fun uuid =>
        ({ state with trackUuids := state.trackUuids ++ uuid.toList }, snapshot)
  | 6, .len payload => (parseClockSnapshot payload).map fun parsed => (state, some parsed)
  | 50, .len payload =>
      (decompressPackets zlib payload).bind fun nested => (scanNested nested state).map (·, snapshot)
  | _, _ => some (state, snapshot)

/-- The fields of a packet. -/
def scanFields (fields : List WireField) (scanned : ScanState × Option ClockSnapshot) :
    Option (ScanState × Option ClockSnapshot) :=
  fields.foldlM (fun scanned field => scanField zlib scanNested scanned.1 scanned.2 field) scanned

/-- `scan_trace_packet`. -/
def scanTracePacket (packet : Bytes) (state : ScanState) : Option ScanState :=
  (iterFields packet).bind fun fields =>
    (scanFields zlib scanNested fields (state, none)).map fun scanned => scanned.1.addSnapshot scanned.2

end

/-- The packets of a trace, one after the other; compressed packets are nested at most `depth` deep. -/
def scanTrace (zlib : Zlib) : Nat → Bytes → ScanState → Option ScanState
  | 0, _, _ => none
  | depth + 1, trace, state =>
      (iterTracePackets trace).bind fun packets =>
        packets.foldlM (fun state packet => scanTracePacket zlib (scanTrace zlib depth) packet state) state

structure TraceMetadata where
  primaryClockId : Nat
  offsetNs : Int
  traceMinNs : Nat
  traceMaxNs : Nat
  overlaySequenceId : Nat
  nextUuid : Nat
deriving DecidableEq, Repr

/-- `Counter(ids).most_common(1)[0][0]`: of the most frequent ones the first. -/
def mostCommon (ids : List Nat) : Option Nat :=
  ids.foldl (fun best id => if best.any fun best => ids.count id ≤ ids.count best then best
    else some id) none

/-- What `analyze_trace` makes of a scan. -/
def ScanState.metadata (state : ScanState) : Option TraceMetadata :=
  let offsets := state.offsets.insertionSort (· ≤ ·)
  (offsets.head?).bind fun lowest => (offsets.getLast?).bind fun highest =>
    if highest - lowest > offsetSpreadLimitNs then none
    else (mostCommon state.primaryIds).bind fun primary => (offsets[offsets.length / 2]?).map fun offset =>
      { primaryClockId := primary
        offsetNs := offset
        traceMinNs := state.traceMinNs
        traceMaxNs := state.traceMaxNs
        overlaySequenceId := state.sequenceIds.foldl max 0 + 1
        nextUuid := state.trackUuids.foldl max 0 + 1 }

/-- `analyze_trace`. -/
def analyzeTrace (zlib : Zlib) (depth : Nat) (trace : Bytes) : Option TraceMetadata :=
  (scanTrace zlib depth trace {}).bind ScanState.metadata

/-! ### New packets -/

/-- `make_packet`. -/
def makePacket (fields : List Bytes) (sequenceId : Nat) (flags : Option Nat) (firstPacket : Bool) : Bytes :=
  encodeLenField 1 (([encodeVarField 10 sequenceId] ++ (flags.map (encodeVarField 13)).toList ++
    (if firstPacket then [encodeVarField 87 1] else []) ++ fields).flatten)

structure OverlayPacketEntry where
  rootBytes : Bytes
  sortTimestampNs : Int
  sortOrder : Int
deriving DecidableEq, Repr

/-- The sort key of an overlay packet, compared as a tuple. -/
def OverlayPacketEntry.le (one two : OverlayPacketEntry) : Prop :=
  one.sortTimestampNs < two.sortTimestampNs ∨
    one.sortTimestampNs = two.sortTimestampNs ∧ one.sortOrder ≤ two.sortOrder

instance : DecidableRel OverlayPacketEntry.le := fun _ _ => inferInstanceAs (Decidable (_ ∨ _))

/-- The loop of `merge_overlay_packets`: before a packet with a timestamp go the pending packets that are
due. -/
def mergeEntries : List (Bytes × Bytes) → List OverlayPacketEntry → Option (List Bytes)
  | [], pending => some (pending.map OverlayPacketEntry.rootBytes)
  | (root, packet) :: later, pending =>
      (parsePacketTimestamp packet).bind fun timestamp =>
        let due := fun entry : OverlayPacketEntry => timestamp.any fun timestamp =>
          entry.sortTimestampNs ≤ timestamp
        (mergeEntries later (pending.dropWhile due)).map fun merged =>
          (pending.takeWhile due).map OverlayPacketEntry.rootBytes ++ root :: merged

/-- `merge_overlay_packets`. -/
def mergeOverlayPackets (trace : Bytes) (overlay : List OverlayPacketEntry) : Option Bytes :=
  (iterTracePacketEntries trace).bind fun entries =>
    (mergeEntries entries (overlay.insertionSort OverlayPacketEntry.le)).map List.flatten

end MallocHook
