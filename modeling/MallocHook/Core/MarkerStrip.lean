/-
Module: MallocHook.Core.MarkerStrip
Purpose: The removal of the allocation markers from a trace, field by field and inside compressed
  packets. Packets that cannot hold a marker are copied unread.
Trusted boundary: translation of _copy_field, _inflate, _deflate, _strip_packet and strip_alloc_markers
  of scripts/build_perfetto_alloc_track.py
Main exports: isStripped, inflate, cheapPath, stripEntry
-/
import MallocHook.Core.PerfettoProto

namespace MallocHook

open WireFormat

/-- The bytes of an ASCII text. -/
def asciiBytes (text : String) : Bytes := text.toList.map fun c => UInt8.ofNat c.toNat

/-- `ALLOC_MARKER_TAG`. -/
def allocMarkerTag : Bytes := asciiBytes "memory_"

/-- `PEAK_MARKER_TAG`. -/
def peakMarkerTag : Bytes := asciiBytes "malloc_hook_peak_snapshot"

/-- `FTRACE_BUNDLE_FIELD`. -/
def ftraceBundleField : Nat := 1

/-- `COMPRESSED_PACKETS_FIELD`. -/
def compressedPacketsField : Nat := 50

/-- `FTRACE_EVENT_FIELD`. -/
def ftraceEventField : Nat := 2

/-- `_COMPRESSED_KEY`. -/
def compressedKey : Bytes := encodeKey compressedPacketsField 2

/-- An event that is dropped. -/
def isMarker (event : Bytes) : Bool :=
  decide (allocMarkerTag <:+: event) && !decide (peakMarkerTag <:+: event)

/-- A field of a bundle that is dropped. -/
def isStripped (field : WireField) : Bool := (lenOf ftraceEventField field).any isMarker

/-- `_inflate`: the data, and the framing it was in. -/
def inflate (zlib : Zlib) (payload : Bytes) : Option (Bytes × Framing) :=
  ((zlib.decompress .zlib payload).map (·, .zlib)).or ((zlib.decompress .raw payload).map (·, .raw))

section

variable (zlib : Zlib) (strip : Bytes → Option (Bytes × Nat))

/-- The fields of a bundle that are kept, and how many are not. -/
def stripBundle (payload : Bytes) : Option (Bytes × Nat) :=
  (iterFields payload).map fun fields =>
    (((fields.filter fun field => !isStripped field).map WireField.encode).flatten, fields.countP isStripped)

/-- A compressed blob: deflated again only if something was dropped inside. -/
def stripBlob (payload : Bytes) : Option (Bytes × Nat) :=
  (inflate zlib payload).bind fun (inner, framing) =>
    (strip inner).map fun (newInner, dropped) =>
      (if dropped = 0 then payload else zlib.deflate framing newInner, dropped)

/-- One field of a packet, as it is written again. -/
def stripField (field : WireField) : Option (WireField × Nat) :=
  match lenOf ftraceBundleField field, lenOf compressedPacketsField field with
  | some payload, _ =>
      (stripBundle payload).map fun (kept, dropped) => (⟨ftraceBundleField, .len kept⟩, dropped)
  | none, some payload =>
      (stripBlob zlib strip payload).map fun (blob, dropped) =>
        (⟨compressedPacketsField, .len blob⟩, dropped)
  | none, none => some (field, 0)

/-- `_strip_packet`. -/
def stripPacket (packet : Bytes) : Option (Bytes × Nat) :=
  (iterFields packet).bind fun fields =>
    (fields.mapM (stripField zlib strip)).map fun parts =>
      let dropped := (parts.map Prod.snd).sum
      if dropped = 0 then (packet, 0) else ((parts.map fun part => part.1.encode).flatten, dropped)

/-- The test that saves taking a packet apart. -/
def cheapPath (packet : Bytes) : Bool :=
  !decide (allocMarkerTag <:+: packet) && !decide (compressedKey <:+: packet)

/-- One entry of the root. -/
def stripEntry (entry : Bytes × Bytes) : Option (Bytes × Nat) :=
  if cheapPath entry.2 then some (entry.1, 0)
  else (stripPacket zlib strip entry.2).map fun (newPacket, dropped) =>
    if dropped = 0 then (entry.1, 0) else (encodeLenField 1 newPacket, dropped)

end

/-- `strip_alloc_markers`: the new trace, and how many events were dropped. Compressed packets are nested
less than `depth` deep. -/
def stripAllocMarkers (zlib : Zlib) : Nat → Bytes → Option (Bytes × Nat)
  | 0, _ => none
  | depth + 1, trace =>
      (iterTracePacketEntries trace).bind fun entries =>
        (entries.mapM (stripEntry zlib (stripAllocMarkers zlib depth))).map fun parts =>
          ((parts.map Prod.fst).flatten, (parts.map Prod.snd).sum)

end MallocHook
