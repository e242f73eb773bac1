/-
Module: MallocHook.Proofs.OverlayMerge
Purpose: What the overlays rely on: what the scan of an accepted trace has found, and that the merge
  puts new packets between old ones and changes neither.
Trusted boundary: none
Main exports: mergeItems_eq_timedMerge, merge_accepted
-/
import Mathlib.Data.List.Fold
import Mathlib.Data.List.MinMax
import Mathlib.Order.Bounds.Defs
import MallocHook.Core.TrackOverlay
import MallocHook.Lib.TimedMerge
import MallocHook.Proofs.PacketReading

namespace MallocHook

open WireFormat List
open Option (bind_eq_some_iff bind_some isSome_iff_exists map_eq_some_iff)

/-! ### What a scan learns -/

/-- What a scan keeps of the fields: a sequence, a track, or that a timestamp is not after a time. -/
inductive TraceFact where
  | sequence (id : Nat)
  | track (uuid : Nat)
  | notAfter (time : Nat)

variable (field : WireField)

/-- The tracks that a field describes, as `parse_track_uuid` reads them. -/
def fieldTracks : List Nat :=
  (lenOf 60 field).elim [] fun payload => ((parseTrackUuid payload).getD none).toList

def fieldTells : TraceFact → Prop
  | .sequence id => varintOf 10 field = some id ∧ id ≠ 0
  | .track uuid => uuid ∈ fieldTracks field
  | .notAfter time => ∃ timestamp, varintOf 8 field = some timestamp ∧ timestamp ≤ time

variable (packet : Bytes)

def packetTells (fact : TraceFact) : Prop :=
  ∃ field ∈ (iterFields packet).getD [], fieldTells field fact

/-- The packet and its descriptors can be read. -/
def Readable : Prop :=
  ∃ fields, iterFields packet = some fields ∧
    ∀ field ∈ fields, ∀ payload, lenOf 60 field = some payload → (parseTrackUuid payload).isSome

namespace ScanState

def Knows (state : ScanState) : TraceFact → Prop
  | .sequence id => id ∈ state.sequenceIds
  | .track uuid => uuid ∈ state.trackUuids
  | .notAfter time => state.traceMinNs ≤ time

/-- The scan adds these facts and no others. -/
def Learns (state state' : ScanState) (facts : TraceFact → Prop) : Prop :=
  ∀ fact, state'.Knows fact ↔ state.Knows fact ∨ facts fact

theorem Learns.trans {one two three : ScanState} {facts facts' both : TraceFact → Prop}
    (first : one.Learns two facts) (second : two.Learns three facts')
    (same : ∀ fact, both fact ↔ facts fact ∨ facts' fact) : one.Learns three both :=
  fun fact => by rw [second fact, first fact, same, or_assoc]

/-- Nothing is learnt. -/
theorem learns_of_same {state state' : ScanState} {facts : TraceFact → Prop} (nothing : ∀ fact, ¬facts fact)
    (same : (state'.sequenceIds, state'.trackUuids, state'.traceMinNs) =
      (state.sequenceIds, state.trackUuids, state.traceMinNs)) : state.Learns state' facts := by
  simp only [Prod.mk.injEq] at same
  rintro (_ | _ | _) <;> simp [Knows, same, nothing]

end ScanState

/-- The scan reads the packets that the iteration finds, and learns what they tell. -/
def ScanSpec (scan : Bytes → ScanState → Option ScanState) (iterate : Bytes → Option (List Bytes)) : Prop :=
  ∀ bytes state state', scan bytes state = some state' → ∃ packets, iterate bytes = some packets ∧
    (∀ packet ∈ packets, Readable packet) ∧ state.Learns state' fun fact => ∃ packet ∈ packets,
      packetTells packet fact

section

variable {zlib : Zlib} {scan : Bytes → ScanState → Option ScanState} {iterate : Bytes → Option (List Bytes)}
  {state state' : ScanState} {snapshot snapshot' : Option ClockSnapshot}

/-- The packets in a field. -/
abbrev fieldPackets (zlib : Zlib) (iterate : Bytes → Option (List Bytes)) (field : WireField) :
    Option (List Bytes) :=
  (lenOf compressedPacketsField field).elim (some []) fun payload =>
    (decompressPackets zlib payload).bind iterate

theorem scanField_spec (nested : ScanSpec scan iterate) {field : WireField}
    (scanned : scanField zlib scan state snapshot field = some (state', snapshot')) :
    (∀ payload, lenOf 60 field = some payload → (parseTrackUuid payload).isSome) ∧
      ∃ packets, fieldPackets zlib iterate field = some packets ∧ (∀ packet ∈ packets, Readable packet) ∧
        state.Learns state' fun fact => fieldTells field fact ∨
        ∃ packet ∈ packets, packetTells packet fact := by
  obtain ⟨number, value⟩ := field
  unfold scanField at scanned
  split at scanned
  all_goals dsimp only at *
  case h_1 _ _ value isNumber isValue =>
    subst isNumber isValue
    cases scanned
    refine ⟨by simp [lenOf], [], rfl, by simp, ?_⟩
    rintro (_ | _ | _) <;> simp [ScanState.Knows, fieldTells, fieldTracks, varintOf, lenOf]
  case h_2 _ _ id isNumber isValue =>
    subst isNumber isValue
    cases scanned
    refine ⟨by simp [lenOf], [], rfl, by simp, ?_⟩
    rintro (other | _ | _) <;> split <;> simp [ScanState.Knows, fieldTells, fieldTracks, varintOf,
      lenOf] <;> grind
  case h_3 _ _ payload isNumber isValue =>
    subst isNumber isValue
    obtain ⟨uuid, parsed, ⟨⟩⟩ := map_eq_some_iff.1 scanned
    refine ⟨by simp [lenOf, parsed], [], rfl, by simp, ?_⟩
    rintro (_ | _ | _) <;> simp [ScanState.Knows, fieldTells, fieldTracks, varintOf, lenOf, parsed]
  case h_4 _ _ payload isNumber isValue =>
    subst isNumber isValue
    obtain ⟨parsed, _, ⟨⟩⟩ := map_eq_some_iff.1 scanned
    refine ⟨by simp [lenOf], [], rfl, by simp, ScanState.learns_of_same ?_ rfl⟩
    rintro (_ | _ | _) <;> simp [fieldTells, fieldTracks, varintOf, lenOf]
  case h_5 _ _ payload isNumber isValue =>
    subst isNumber isValue
    obtain ⟨inner, inflated, scanned⟩ := bind_eq_some_iff.1 scanned
    obtain ⟨state'', scannedInner, ⟨⟩⟩ := map_eq_some_iff.1 scanned
    obtain ⟨packets, iterated, readable, learns⟩ := nested inner state _ scannedInner
    refine ⟨by simp [lenOf], packets, by simp [fieldPackets, lenOf, compressedPacketsField,
      inflated, iterated],
      readable, fun fact => (learns fact).trans (or_congr_right (or_iff_right ?_).symm)⟩
    cases fact <;> simp [fieldTells, fieldTracks, varintOf, lenOf]
  case h_6 _ _ notTimestamp notSequence notTrack _ notCompressed =>
    cases scanned
    have noNumber {n value'} (other : ∀ value', number = n → value = .varint value' → False) :
        varintOf n ⟨number, value⟩ ≠ some value' := fun found => by
      cases varintOf_eq_some_iff.1 found
      exact other _ rfl rfl
    have noBytes {n payload'} (other : ∀ payload', number = n → value = .len payload' → False) :
        lenOf n ⟨number, value⟩ ≠ some payload' := fun found => by
      cases lenOf_eq_some_iff.1 found
      exact other _ rfl rfl
    have tracks : lenOf 60 ⟨number, value⟩ = none := Option.eq_none_iff_forall_ne_some.2 fun _ =>
      noBytes notTrack
    have inside : lenOf compressedPacketsField ⟨number, value⟩ = none :=
      Option.eq_none_iff_forall_ne_some.2 fun _ => noBytes notCompressed
    refine ⟨by simp [tracks], [], by simp [fieldPackets, inside], by simp, ScanState.learns_of_same ?_ rfl⟩
    rintro (_ | _ | _) <;> simp [fieldTells, fieldTracks, tracks, noNumber notTimestamp,
      noNumber notSequence]

theorem scanFields_spec (nested : ScanSpec scan iterate) {fields : List WireField}
    (scanned : scanFields zlib scan fields (state, snapshot) = some (state', snapshot')) :
    (∀ field ∈ fields, ∀ payload, lenOf 60 field = some payload → (parseTrackUuid payload).isSome) ∧
      ∃ lists, fields.mapM (fieldPackets zlib iterate) = some lists ∧
      (∀ packet ∈ lists.flatten, Readable packet) ∧
        state.Learns state' fun fact =>
          (∃ field ∈ fields, fieldTells field fact) ∨ ∃ packet ∈ lists.flatten, packetTells packet fact := by
  induction fields generalizing state snapshot with
  | nil =>
      cases scanned
      exact ⟨by simp, [], rfl, by simp, ScanState.learns_of_same (by simp) rfl⟩
  | cons field rest ih =>
      rw [scanFields, foldlM_cons] at scanned
      obtain ⟨⟨between, snapshot''⟩, here, later⟩ := bind_eq_some_iff.1 scanned
      obtain ⟨parses, packets, found, readable, learns⟩ := scanField_spec nested here
      obtain ⟨parsesLater, lists, foundLater, readableLater, learnsLater⟩ := ih later
      refine ⟨forall_mem_cons.2 ⟨parses, parsesLater⟩, packets :: lists, ?_, ?_,
        learns.trans learnsLater fun fact => ?_⟩
      · rw [mapM_cons, found, foundLater]
        rfl
      · rw [flatten_cons, forall_mem_append]
        exact ⟨readable, readableLater⟩
      · simp only [flatten_cons, exists_mem_cons_iff, mem_append, or_and_right, exists_or]
        exact or_or_or_comm

theorem learns_addSnapshot (state : ScanState) (snapshot : Option ClockSnapshot) :
    state.Learns (state.addSnapshot snapshot) fun _ => False := by
  unfold ScanState.addSnapshot
  cases found : snapshot.bind _ with
  | none => exact ScanState.learns_of_same (fun _ => id) rfl
  | some state' =>
      obtain ⟨⟨primary, clocks⟩, _, found⟩ := bind_eq_some_iff.1 found
      obtain ⟨primary, _, found⟩ := bind_eq_some_iff.1 found
      obtain ⟨realtime, _, found⟩ := bind_eq_some_iff.1 found
      obtain ⟨value, _, rfl⟩ := map_eq_some_iff.1 found
      exact ScanState.learns_of_same (fun _ => id) rfl

theorem scanTracePacket_spec (nested : ScanSpec scan iterate) {packet : Bytes}
    (scanned : scanTracePacket zlib scan packet state = some state') :
    ∃ packets, withNested zlib iterate packet = some packets ∧ (∀ packet ∈ packets, Readable packet) ∧
      state.Learns state' fun fact => ∃ packet ∈ packets, packetTells packet fact := by
  obtain ⟨fields, all, scanned⟩ := bind_eq_some_iff.1 scanned
  obtain ⟨⟨between, snapshot⟩, scannedFields, rfl⟩ := map_eq_some_iff.1 scanned
  obtain ⟨parses, lists, found, readable, learns⟩ := scanFields_spec nested scannedFields
  refine ⟨packet :: lists.flatten, ?_, forall_mem_cons.2 ⟨⟨fields, all, parses⟩, readable⟩,
    learns.trans (learns_addSnapshot between snapshot) fun fact => ?_⟩
  · simp [withNested, nestedPackets, all, found]
  · rw [exists_mem_cons_iff, packetTells, all, Option.getD_some, or_false]

theorem scanPackets_spec (nested : ScanSpec scan iterate) {packets : List Bytes}
    (scanned : packets.foldlM (fun state packet => scanTracePacket zlib scan packet state)
      state = some state') :
    ∃ lists, packets.mapM (withNested zlib iterate) = some lists ∧
      (∀ packet ∈ lists.flatten, Readable packet) ∧
      state.Learns state' fun fact => ∃ packet ∈ lists.flatten, packetTells packet fact := by
  induction packets generalizing state with
  | nil =>
      cases scanned
      exact ⟨[], rfl, by simp, ScanState.learns_of_same (by simp) rfl⟩
  | cons packet rest ih =>
      rw [foldlM_cons] at scanned
      obtain ⟨between, here, later⟩ := bind_eq_some_iff.1 scanned
      obtain ⟨inside, found, readable, learns⟩ := scanTracePacket_spec nested here
      obtain ⟨lists, foundLater, readableLater, learnsLater⟩ := ih later
      refine ⟨inside :: lists, ?_, ?_, learns.trans learnsLater fun fact => ?_⟩
      · rw [mapM_cons, found, foundLater]
        rfl
      · rw [flatten_cons, forall_mem_append]
        exact ⟨readable, readableLater⟩
      · simp only [flatten_cons, mem_append, or_and_right, exists_or]

end

theorem scanTrace_spec (zlib : Zlib) (depth : Nat) :
    ScanSpec (scanTrace zlib depth) (iterTracePacketsRecursive zlib depth) := by
  induction depth with
  | zero =>
      intro trace state state' scanned
      cases scanned
  | succ depth nested =>
      intro trace state state' scanned
      obtain ⟨packets, all, scanned⟩ := bind_eq_some_iff.1 scanned
      obtain ⟨lists, found, both⟩ := scanPackets_spec nested scanned
      exact ⟨lists.flatten, by simp [iterTracePacketsRecursive, all, found], both⟩

/-! ### Accepted traces -/

/-- The packet is on an earlier sequence and describes no new track. -/
def PacketBelow (metadata : TraceMetadata) (packet : Bytes) : Prop :=
  ∃ fields, iterFields packet = some fields ∧ ∀ field ∈ fields,
    (∀ id, varintOf 10 field = some id → id < metadata.overlaySequenceId) ∧
    ∀ payload, lenOf 60 field = some payload →
      ∃ uuid, parseTrackUuid payload = some uuid ∧ ∀ u ∈ uuid, u < metadata.nextUuid

theorem isGreatest_foldl_max (list : List Nat) : IsGreatest {n | n ∈ 0 :: list} (list.foldl max 0) := by
  constructor
  · induction list using List.reverseRecOn with
    | nil => simp
    | append_singleton list last ih =>
        rw [foldl_append, foldl_cons, foldl_nil]
        rcases max_choice (list.foldl max 0) last with same | same
        · grind
        · simp [same]
  · rintro n (_ | ⟨_, member⟩)
    · exact Nat.zero_le _
    · rw [foldl_eq_foldr]
      exact le_max_of_le' 0 member le_rfl

/-- The identifiers of the metadata. -/
theorem metadata_ids {state : ScanState} {metadata : TraceMetadata} (made : state.metadata = some metadata) :
    metadata.traceMinNs = state.traceMinNs ∧ metadata.overlaySequenceId = state.sequenceIds.foldl max 0 + 1 ∧
      metadata.nextUuid = state.trackUuids.foldl max 0 + 1 := by
  unfold ScanState.metadata at made
  obtain ⟨lowest, _, made⟩ := bind_eq_some_iff.1 made
  obtain ⟨highest, _, made⟩ := bind_eq_some_iff.1 made
  split at made
  · cases made
  · obtain ⟨primary, _, made⟩ := bind_eq_some_iff.1 made
    obtain ⟨offset, _, rfl⟩ := map_eq_some_iff.1 made
    exact ⟨rfl, rfl, rfl⟩

/-- The sequences that a packet names. -/
def packetSequences : List Nat := ((iterFields packet).getD []).filterMap (varintOf 10)

/-- The tracks that a packet describes. -/
def trackDescriptors : List Nat := ((iterFields packet).getD []).flatMap fieldTracks

/-- An accepted trace can be read to its innermost packets, the new identifiers are one above the largest,
and no timestamp is before the earliest. -/
theorem analyze_ids {zlib : Zlib} {depth : Nat} {trace : Bytes} {metadata : TraceMetadata}
    (accepted : analyzeTrace zlib depth trace = some metadata) :
    ∃ packets, iterTracePacketsRecursive zlib depth trace = some packets ∧
    (∀ packet ∈ packets, Readable packet) ∧
      (∃ largest, IsGreatest {id | id ∈ 0 :: packets.flatMap packetSequences} largest ∧
        metadata.overlaySequenceId = largest + 1) ∧
      (∃ largest, IsGreatest {uuid | uuid ∈ 0 :: packets.flatMap trackDescriptors} largest ∧
        metadata.nextUuid = largest + 1) ∧
      ∀ packet ∈ packets, ∀ last, parsePacketTimestamp packet = some (some last) →
      metadata.traceMinNs ≤ last := by
  obtain ⟨state, scanned, made⟩ := bind_eq_some_iff.1 accepted
  obtain ⟨packets, iterated, readable, learns⟩ := scanTrace_spec zlib depth trace {} state scanned
  obtain ⟨isMin, sequenceId, nextUuid⟩ := metadata_ids made
  have sequences (id : Nat) : id ∈ 0 :: packets.flatMap packetSequences ↔ id ∈ 0 :: state.sequenceIds := by
    have known := learns (.sequence id)
    simp only [ScanState.Knows, packetTells, fieldTells, not_mem_nil, false_or] at known
    simp only [mem_cons, known, mem_flatMap, packetSequences, mem_filterMap]
    by_cases zero : id = 0 <;> simp [zero]
  have tracks (uuid : Nat) : uuid ∈ 0 :: packets.flatMap trackDescriptors ↔
    uuid ∈ 0 :: state.trackUuids := by
    have known := learns (.track uuid)
    simp only [ScanState.Knows, packetTells, fieldTells, not_mem_nil, false_or] at known
    simp [known, trackDescriptors]
  refine ⟨packets, iterated, readable, ⟨_, ?_, sequenceId⟩,
    ⟨_, ?_, nextUuid⟩, fun packet member last timed => ?_⟩
  · simpa only [sequences] using isGreatest_foldl_max state.sequenceIds
  · simpa only [tracks] using isGreatest_foldl_max state.trackUuids
  · obtain ⟨fields, all, -⟩ := readable packet member
    rw [parsePacketTimestamp, firstField_eq all, Option.some_inj] at timed
    obtain ⟨field, there, found⟩ := exists_of_findSome?_eq_some timed
    rw [isMin]
    exact (learns (.notAfter last)).2 (.inr ⟨packet, member, field, by rwa [all], last, found, le_rfl⟩)

/-- The packets of an accepted trace use none of the new identifiers. -/
theorem analyze_below {zlib : Zlib} {depth : Nat} {trace : Bytes} {metadata : TraceMetadata}
    (accepted : analyzeTrace zlib depth trace = some metadata) :
    ∃ packets, iterTracePacketsRecursive zlib depth trace = some packets ∧
      ∀ packet ∈ packets, PacketBelow metadata packet := by
  obtain ⟨packets, iterated, readable, ⟨sequence, ⟨-, above⟩, isSequence⟩,
    ⟨track, ⟨-, above'⟩, isTrack⟩, -⟩ :=
    analyze_ids accepted
  refine ⟨packets, iterated, fun packet member => ?_⟩
  obtain ⟨fields, all, parses⟩ := readable packet member
  refine ⟨fields, all, fun field there => ⟨fun id found => ?_, fun payload found => ?_⟩⟩
  · refine isSequence ▸ Nat.lt_succ_of_le (above (mem_cons_of_mem _ (mem_flatMap.2 ⟨packet, member, ?_⟩)))
    rw [packetSequences, all]
    exact mem_filterMap.2 ⟨field, there, found⟩
  · obtain ⟨uuid, parsed⟩ := isSome_iff_exists.1 (parses field there payload found)
    refine ⟨uuid, parsed, fun u known => isTrack ▸ Nat.lt_succ_of_le ?_⟩
    refine above' (mem_cons_of_mem _ (mem_flatMap.2 ⟨packet, member, ?_⟩))
    rw [trackDescriptors, all]
    exact mem_flatMap.2 ⟨field, there, by simpa [fieldTracks, found, parsed] using known⟩

/-! ### Whole packets -/

/-- A byte behind the entry is not taken for a part of it. -/
def wholeEntry (entry : Bytes × Bytes) : Bool := decide (readPacket (entry.1 ++ [0]) = some (entry.2, [0]))

/-- No packet of the trace is cut short. -/
def wholePackets (trace : Bytes) : Bool := ((iterTracePacketEntries trace).getD []).all wholeEntry

theorem wholeEntry_iff {entry : Bytes × Bytes} : wholeEntry entry ↔ Delimits readPacket entry := by
  rw [wholeEntry, decide_eq_true_eq]
  constructor
  · intro reads
    obtain ⟨used, same, _, delimits⟩ := isReader_readPacket.spec reads
    obtain rfl := append_cancel_right same
    exact delimits (by simp)
  · intro delimits
    exact delimits.2 [0]

/-! ### The merge -/

/-- An old entry or a new one. -/
abbrev MergedItem := (Bytes × Bytes) ⊕ OverlayPacketEntry

/-- The new entry goes before an old packet with this timestamp. -/
def isDue (timestamp : Option Nat) (entry : OverlayPacketEntry) : Bool :=
  timestamp.any fun timestamp => entry.sortTimestampNs ≤ timestamp

/-- `mergeEntries`, without forgetting where the entries come from. -/
def mergeItems : List (Bytes × Bytes) → List OverlayPacketEntry → Option (List MergedItem)
  | [], pending => some (pending.map .inr)
  | entry :: later, pending =>
      (parsePacketTimestamp entry.2).bind fun timestamp =>
        (mergeItems later (pending.dropWhile (isDue timestamp))).map fun merged =>
          (pending.takeWhile (isDue timestamp)).map .inr ++ .inl entry :: merged

/-- The bytes of an item. -/
def itemRoot : MergedItem → Bytes := Sum.elim Prod.fst OverlayPacketEntry.rootBytes

/-- The timestamp of a packet of the trace. -/
def entryTime (entry : Bytes × Bytes) : Option Int :=
  ((parsePacketTimestamp entry.2).getD none).map Int.ofNat

/-- Every packet can be read up to its timestamp, or to its end if it has none. -/
def Timestamped (entries : List (Bytes × Bytes)) : Prop :=
  ∀ entry ∈ entries, (parsePacketTimestamp entry.2).isSome

instance (entries : List (Bytes × Bytes)) : Decidable (Timestamped entries) :=
  inferInstanceAs (Decidable (∀ entry ∈ entries, _))

section

variable {entries : List (Bytes × Bytes)} {pending : List OverlayPacketEntry} {items : List MergedItem}

theorem mergeEntries_eq (entries : List (Bytes × Bytes)) (pending : List OverlayPacketEntry) :
    mergeEntries entries pending = (mergeItems entries pending).map fun items => items.map itemRoot := by
  induction entries generalizing pending with
  | nil => simp [mergeEntries, mergeItems, itemRoot]
  | cons entry later ih =>
      obtain ⟨root, packet⟩ := entry
      rw [mergeEntries, mergeItems]
      cases parsePacketTimestamp packet with
      | none => rfl
      | some timestamp =>
          simp only [bind_some, ih, Option.map_map]
          congr 1
          funext merged
          simp only [itemRoot, map_append, map_map, map_cons, Sum.elim_inl, Function.comp_def, Sum.elim_inr]
          rfl

/-- The merge on a trace whose entries are known. -/
theorem mergeOverlayPackets_eq {trace : Bytes} (all : iterTracePacketEntries trace = some entries)
    (overlay : List OverlayPacketEntry) :
    mergeOverlayPackets trace overlay =
      (mergeItems entries (overlay.insertionSort OverlayPacketEntry.le)).map fun items =>
      (items.map itemRoot).flatten := by
  rw [mergeOverlayPackets, all, bind_some, mergeEntries_eq, Option.map_map]
  rfl

variable {entry : Bytes × Bytes}

/-- What a merge that gets past an old packet has done. -/
theorem mergeItems_cons (merged : mergeItems (entry :: entries) pending = some items) :
    ∃ timestamp rest, parsePacketTimestamp entry.2 = some timestamp ∧
      mergeItems entries (pending.dropWhile (isDue timestamp)) = some rest ∧
      items = (pending.takeWhile (isDue timestamp)).map .inr ++ .inl entry :: rest := by
  obtain ⟨timestamp, found, merged⟩ := bind_eq_some_iff.1 merged
  obtain ⟨rest, mergedRest, rfl⟩ := map_eq_some_iff.1 merged
  exact ⟨timestamp, rest, found, mergedRest, rfl⟩

theorem isDue_eq (timestamp : Option Nat) :
    isDue timestamp = dueAt OverlayPacketEntry.sortTimestampNs (timestamp.map Int.ofNat) := by
  funext entry
  cases timestamp <;> rfl

/-- The merge of packets that can all be searched for their timestamps. -/
theorem mergeItems_eq_timedMerge (readable : Timestamped entries) (pending : List OverlayPacketEntry) :
    mergeItems entries pending = some (timedMerge entryTime OverlayPacketEntry.sortTimestampNs
      entries pending) := by
  induction entries generalizing pending with
  | nil => rfl
  | cons entry later ih =>
      obtain ⟨here, there⟩ := forall_mem_cons.1 readable
      obtain ⟨timestamp, found⟩ := isSome_iff_exists.1 here
      have stamp : dueAt OverlayPacketEntry.sortTimestampNs (entryTime entry) = isDue timestamp := by
        rw [isDue_eq, entryTime, found]
        rfl
      rw [mergeItems, found, bind_some, ih there, timedMerge, stamp]
      rfl

/-- A packet that cannot be searched stops the merge. -/
theorem mergeItems_isSome_iff (entries : List (Bytes × Bytes)) (pending : List OverlayPacketEntry) :
    (mergeItems entries pending).isSome ↔ Timestamped entries := by
  refine ⟨fun succeeds => ?_, fun readable => by rw [mergeItems_eq_timedMerge readable]; rfl⟩
  induction entries generalizing pending with
  | nil => simp [Timestamped]
  | cons entry later ih =>
      obtain ⟨items, merged⟩ := isSome_iff_exists.1 succeeds
      obtain ⟨timestamp, rest, found, mergedRest, _⟩ := mergeItems_cons merged
      exact forall_mem_cons.2 ⟨by rw [found]; rfl, ih _ (by rw [mergedRest]; rfl)⟩

variable (merged : mergeItems entries pending = some items)
include merged

/-- What a merge that succeeds returns. -/
theorem eq_timedMerge_of_mergeItems :
    items = timedMerge entryTime OverlayPacketEntry.sortTimestampNs entries pending := by
  have readable : Timestamped entries := (mergeItems_isSome_iff _ _).1 (by rw [merged]; rfl)
  exact Option.some.inj (merged.symm.trans (mergeItems_eq_timedMerge readable pending))

/-- The merge keeps the old entries and the new ones, each in their order. -/
theorem mergeItems_sides : items.filterMap Sum.getLeft? = entries ∧
    items.filterMap Sum.getRight? = pending := by
  rw [eq_timedMerge_of_mergeItems merged]
  exact ⟨timedMerge_lefts, timedMerge_rights⟩

/-- Behind an old packet that is not before any new one there are no new ones. -/
theorem mergeItems_covered (there : entry ∈ entries) {last : Nat}
    (timed : parsePacketTimestamp entry.2 = some (some last))
    (covers : ∀ new ∈ pending, new.sortTimestampNs ≤ last) :
    ∃ front back, items = front ++ .inl entry :: back ∧ ∀ new, Sum.inr new ∉ back := by
  induction entries generalizing pending items with
  | nil => cases there
  | cons first later ih =>
      obtain ⟨timestamp, rest, found, mergedRest, rfl⟩ := mergeItems_cons merged
      obtain rfl | there := mem_cons.1 there
      · cases timed.symm.trans found
        refine ⟨_, rest, rfl, fun new inside => ?_⟩
        have due : ∀ new ∈ pending, isDue (some last) new := by simpa [isDue] using covers
        rw [dropWhile_eq_nil_iff.2 due] at mergedRest
        have rights := (mergeItems_sides mergedRest).2
        have absent : new ∈ rest.filterMap Sum.getRight? := mem_filterMap.2 ⟨_, inside, rfl⟩
        rw [rights] at absent
        cases absent
      · have covers' : ∀ new ∈ pending.dropWhile (isDue timestamp), new.sortTimestampNs ≤ last :=
          fun new inside => covers new ((dropWhile_suffix _).subset inside)
        obtain ⟨front, back, rfl, noNew⟩ := ih mergedRest there covers'
        exact ⟨_ ++ .inl first :: front, back, (append_assoc _ (.inl first :: front) _).symm, noNew⟩

/-- If an old packet is not before any new one, an old one is the last. -/
theorem mergeItems_last_of_covered (there : entry ∈ entries) {last : Nat}
    (timed : parsePacketTimestamp entry.2 = some (some last))
    (covers : ∀ new ∈ pending, new.sortTimestampNs ≤ last)
    (new : OverlayPacketEntry) : items.getLast? ≠ some (.inr new) := by
  obtain ⟨front, back, rfl, noNew⟩ := mergeItems_covered merged there timed covers
  intro isLast
  rw [List.getLast?_append, List.getLast?_cons, Option.some_or] at isLast
  cases found : back.getLast? with
  | none =>
      rw [found] at isLast
      cases isLast
  | some item =>
      rw [found] at isLast
      cases isLast
      exact noNew new (mem_of_getLast? found)

end

/-- A list of two kinds of items, of which one contributes nothing. -/
theorem flatMap_sides {α β γ : Type*} {old : α → List γ} {new : β → List γ} {items : List (α ⊕ β)}
    (nothing : ∀ item ∈ items.filterMap Sum.getLeft?, old item = []) :
    items.flatMap (Sum.elim old new) = (items.filterMap Sum.getRight?).flatMap new := by
  induction items with
  | nil => rfl
  | cons item rest ih =>
      cases item with
      | inl item =>
          obtain ⟨here, later⟩ := forall_mem_cons.1 nothing
          exact (congrArg (· ++ _) here).trans (ih later)
      | inr item => exact congrArg (new item ++ ·) (ih nothing)

theorem length_flatMap_sides {α β γ : Type*} (old : α → List γ) (new : β → List γ) (items : List (α ⊕ β)) :
    (items.flatMap (Sum.elim old new)).length =
      ((items.filterMap Sum.getLeft?).flatMap old).length +
      ((items.filterMap Sum.getRight?).flatMap new).length := by
  induction items with
  | nil => rfl
  | cons item rest ih =>
      cases item with
      | inl item =>
          change (old item ++ rest.flatMap (Sum.elim old new)).length =
            (old item ++ (rest.filterMap Sum.getLeft?).flatMap old).length + _
          rw [length_append, length_append, ih, Nat.add_assoc]
          rfl
      | inr item =>
          change (new item ++ rest.flatMap (Sum.elim old new)).length =
            _ + (new item ++ (rest.filterMap Sum.getRight?).flatMap new).length
          rw [length_append, length_append, ih]
          exact Nat.add_left_comm _ _ _

/-! ### Reading the merged trace -/

theorem mapM_eq_map {α β : Type*} {f : α → Option β} {g : α → β} {list : List α}
    (each : ∀ item ∈ list, f item = some (g item)) : list.mapM f = some (list.map g) :=
  mapM_eq_some_iff_forall₂.2 (forall₂_map_right_iff.2 (forall₂_same.2 each))

/-- The results of a `mapM` that succeeds are those of a map. -/
theorem eq_map_of_mapM {α β : Type*} {f : α → Option (List β)} {list : List α} {results : List (List β)}
    (all : list.mapM f = some results) :
    results = list.map (fun item => (f item).getD []) ∧ ∀ item ∈ list, f item = some ((f item).getD []) := by
  replace all := mapM_eq_some_iff_forall₂.1 all
  induction all with
  | nil => simp
  | cons here later ih =>
      obtain ⟨same, each⟩ := ih
      rw [map_cons, ← same, forall_mem_cons, here]
      exact ⟨rfl, rfl, each⟩

section

variable {zlib : Zlib} {depth : Nat} {trace : Bytes} {metadata : TraceMetadata}
  {entries : List (Bytes × Bytes)} {overlay : List OverlayPacketEntry} {items : List MergedItem}

/-- The packets of an entry, from the outside in. -/
def entryPackets (zlib : Zlib) (depth : Nat) (entry : Bytes × Bytes) : List Bytes :=
  (withNested zlib (iterTracePacketsRecursive zlib depth) entry.2).getD []

/-- The packet of a new entry. -/
def newPacket (new : OverlayPacketEntry) : Bytes := ((readPacket new.rootBytes).map Prod.fst).getD []

/-- The packet of an item. -/
def itemPacket : MergedItem → Bytes := Sum.elim Prod.snd newPacket

/-- The packets of an item, from the outside in. -/
def itemPackets (zlib : Zlib) (depth : Nat) : MergedItem → List Bytes :=
  Sum.elim (entryPackets zlib depth) fun new => [newPacket new]

/-- The new entries are packets without compressed ones in them. -/
def NewPackets (overlay : List OverlayPacketEntry) : Prop :=
  ∀ new ∈ overlay, new.rootBytes = encodeLenField 1 (newPacket new) ∧
    ∃ fields, iterFields (newPacket new) = some fields ∧
      ∀ field ∈ fields, lenOf compressedPacketsField field = none

theorem newPacket_eq {new : OverlayPacketEntry} {packet : Bytes}
    (root : new.rootBytes = encodeLenField 1 packet) : newPacket new = packet := by
  have reads := (packet_delimits packet).ends.2
  rw [newPacket, root, reads]
  rfl

theorem withNested_new {iterate : Bytes → Option (List Bytes)} {packet : Bytes} {fields : List WireField}
    (all : iterFields packet = some fields) (plain : ∀ field ∈ fields,
      lenOf compressedPacketsField field = none) : withNested zlib iterate packet = some [packet] := by
  have noNested : (fields.mapM fun field => (lenOf compressedPacketsField field).elim
    (some []) fun payload =>
      (decompressPackets zlib payload).bind iterate) = some (fields.map fun _ => ([] : List Bytes)) :=
    mapM_eq_map fun field member => by rw [plain field member]; rfl
  simp [withNested, nestedPackets, all, noNested]

/-- The entries of an accepted trace, and the packets down to the innermost ones. -/
theorem accepted_entries (accepted : analyzeTrace zlib (depth + 1) trace = some metadata) :
    ∃ entries, iterTracePacketEntries trace = some entries ∧
      iterTracePacketsRecursive zlib (depth + 1) trace = some (entries.flatMap (entryPackets zlib depth)) ∧
      ∀ entry ∈ entries,
        withNested zlib (iterTracePacketsRecursive zlib depth) entry.2 =
        some (entryPackets zlib depth entry) ∧
        ∀ packet ∈ entryPackets zlib depth entry, PacketBelow metadata packet := by
  obtain ⟨packets, iterated, below⟩ := analyze_below accepted
  obtain ⟨plain, all, found⟩ := bind_eq_some_iff.1 iterated
  obtain ⟨lists, each, rfl⟩ := map_eq_some_iff.1 found
  obtain ⟨entries, rfl, rfl, framed⟩ := framed_of_readAll isReader_readPacket all
  rw [mapM_map] at each
  obtain ⟨rfl, nested⟩ := eq_map_of_mapM each
  refine ⟨entries, readAll_withSpan_of_framed framed, iterated, fun entry member =>
    ⟨nested entry member, ?_⟩⟩
  intro packet inside
  exact below packet (mem_flatten.2 ⟨_, mem_map_of_mem member, inside⟩)

/-- The packets of an accepted trace are searched for their timestamps. -/
theorem accepted_timestamp (accepted : analyzeTrace zlib (depth + 1) trace = some metadata)
    (all : iterTracePacketEntries trace = some entries) :
    ∀ entry ∈ entries, entry.2 ∈ entryPackets zlib depth entry ∧
      ∃ fields, iterFields entry.2 = some fields ∧
        parsePacketTimestamp entry.2 = some (fields.findSome? (varintOf 8)) := by
  obtain ⟨_, all', _, each⟩ := accepted_entries accepted
  cases all.symm.trans all'
  intro entry member
  obtain ⟨nested, below⟩ := each entry member
  obtain ⟨inside, _, same⟩ := map_eq_some_iff.1 nested
  have first : entry.2 ∈ entryPackets zlib depth entry := same ▸ mem_cons_self
  obtain ⟨fields, allFields, _⟩ := below entry.2 first
  exact ⟨first, fields, allFields, firstField_eq allFields⟩

theorem traceMinNs_le (accepted : analyzeTrace zlib depth trace = some metadata) {outer : List Bytes}
    (root : iterTracePackets trace = some outer) {packet : Bytes} (member : packet ∈ outer) {last : Nat}
    (timed : parsePacketTimestamp packet = some (some last)) : metadata.traceMinNs ≤ last := by
  cases depth with
  | zero => cases accepted
  | succ depth =>
      obtain ⟨entries, all, reads, _⟩ := accepted_entries accepted
      obtain ⟨packets, reads', -, -, -, earliest⟩ := analyze_ids accepted
      cases reads.symm.trans reads'
      obtain ⟨_, _, plain⟩ := readAll_withSpan isReader_readPacket all
      cases root.symm.trans plain
      obtain ⟨entry, there, rfl⟩ := mem_map.1 member
      exact earliest entry.2 (mem_flatMap.2 ⟨entry, there,
        (accepted_timestamp accepted all entry there).1⟩) last timed

/-- The items of a merge are the old entries and the new ones. -/
theorem mergeItems_mem (merged : mergeItems entries
      (overlay.insertionSort OverlayPacketEntry.le) = some items) :
    (∀ entry, Sum.inl entry ∈ items → entry ∈ entries) ∧ ∀ new, Sum.inr new ∈ items → new ∈ overlay := by
  obtain ⟨lefts, rights⟩ := mergeItems_sides merged
  constructor
  · intro entry member
    rw [← lefts]
    exact mem_filterMap.2 ⟨_, member, rfl⟩
  · intro new member
    rw [← mem_insertionSort OverlayPacketEntry.le, ← rights]
    exact mem_filterMap.2 ⟨_, member, rfl⟩

/-- The items of a merge follow one another like packets if the old ones are whole, or if an old one is
the last. -/
theorem mergeItems_framed {pending : List OverlayPacketEntry}
    (merged : mergeItems entries pending = some items)
    (framed : Framed readPacket entries) (new : ∀ new ∈ pending,
      Delimits readPacket (new.rootBytes, newPacket new))
    (ends : (∀ entry ∈ entries, Delimits readPacket entry) ∨ ∀ new, items.getLast? ≠ some (.inr new)) :
    Framed readPacket (items.map fun item => (itemRoot item, itemPacket item)) := by
  induction entries generalizing pending items with
  | nil =>
      cases merged
      refine framed_of_delimits fun entry member => ?_
      simp only [map_map, mem_map] at member
      obtain ⟨fresh, there, rfl⟩ := member
      exact new fresh there
  | cons entry later ih =>
      obtain ⟨timestamp, rest, _, mergedRest, rfl⟩ := mergeItems_cons merged
      have framedLater : Framed readPacket later := by
        cases later with
        | nil => trivial
        | cons next later => exact framed.2
      have endsRest : (∀ old ∈ entry :: later, Delimits readPacket old) ∨
        ∀ new, rest.getLast? ≠ some (.inr new) := by
        refine ends.imp id fun notNew new last => notNew new ?_
        rw [List.getLast?_append, List.getLast?_cons, last]
        rfl
      have framedRest := ih mergedRest framedLater
        (fun fresh there => new fresh ((dropWhile_suffix _).subset there))
        (endsRest.imp_left fun whole entry member => whole entry (mem_cons_of_mem _ member))
      rw [map_append]
      refine .append (fun entry member => ?_) ?_
      · simp only [map_map, mem_map] at member
        obtain ⟨fresh, there, rfl⟩ := member
        exact new fresh ((takeWhile_sublist _).subset there)
      · cases rest with
        | nil => exact framed.ends entry mem_cons_self
        | cons item rest =>
            refine .cons ?_ framedRest
            cases later with
            | cons next later => exact framed.1
            | nil =>
                -- Something is behind the last old entry, and it is new.
                obtain whole | notNew := endsRest
                · exact whole entry mem_cons_self
                · rw [mergeItems, Option.some.injEq] at mergedRest
                  obtain ⟨last, isLast⟩ : ∃ last, (item :: rest).getLast? = some last :=
                    ⟨_, List.getLast?_eq_some_getLast (cons_ne_nil item rest)⟩
                  have member := mem_of_getLast? isLast
                  rw [← mergedRest] at member
                  obtain ⟨fresh, _, same⟩ := mem_map.1 member
                  exact (notNew fresh (isLast.trans (congrArg some same.symm))).elim

/-- Some packet is not before any of the times. -/
def Covered (outer : List Bytes) (timestamps : List Nat) : Prop :=
  ∃ packet ∈ outer, ∃ last, parsePacketTimestamp packet = some (some last) ∧
    ∀ timestampNs ∈ timestamps, timestampNs ≤ last

/-- The merge of an accepted trace whose packets are whole, or that has a packet not before any new one:
its items, its bytes, and its packets down to the innermost. -/
theorem merge_accepted (accepted : analyzeTrace zlib (depth + 1) trace = some metadata)
    (all : iterTracePacketEntries trace = some entries)
    (ends : wholePackets trace ∨ overlay = [] ∨ ∃ entry ∈ entries, ∃ last,
      parsePacketTimestamp entry.2 = some (some last) ∧ ∀ new ∈ overlay, new.sortTimestampNs ≤ last)
    (new : NewPackets overlay) :
    ∃ items, mergeItems entries (overlay.insertionSort OverlayPacketEntry.le) = some items ∧
      mergeOverlayPackets trace overlay = some (items.map itemRoot).flatten ∧
      iterTracePackets (items.map itemRoot).flatten = some (items.map itemPacket) ∧
      iterTracePacketsRecursive zlib (depth + 1) (items.map itemRoot).flatten =
        some (items.flatMap (itemPackets zlib depth)) := by
  have readable : Timestamped entries := by
    intro entry member
    obtain ⟨_, fields, _, found⟩ := accepted_timestamp accepted all entry member
    rw [found, Option.isSome_some]
  obtain ⟨items, merged⟩ := isSome_iff_exists.1
    ((mergeItems_isSome_iff entries (overlay.insertionSort OverlayPacketEntry.le)).2 readable)
  obtain ⟨old, fresh⟩ := mergeItems_mem merged
  have framed : Framed readPacket (items.map fun item => (itemRoot item, itemPacket item)) := by
    refine mergeItems_framed merged (readAll_withSpan isReader_readPacket all).2.1
      (fun entry member => ?_) ?_
    · rw [(new entry ((mem_insertionSort OverlayPacketEntry.le).1 member)).1]
      exact packet_delimits (newPacket entry)
    · refine ends.imp (fun whole entry member => ?_) ?_
      · rw [wholePackets, all, Option.getD_some, all_eq_true] at whole
        exact wholeEntry_iff.1 (whole entry member)
      rintro (rfl | ⟨entry, member, last, timed, covers⟩) new' isLast
      · cases fresh new' (mem_of_getLast? isLast)
      · refine mergeItems_last_of_covered merged member timed (fun new there => ?_) new' isLast
        exact covers new ((mem_insertionSort OverlayPacketEntry.le).1 there)
  have reads : iterTracePackets (items.map itemRoot).flatten = some (items.map itemPacket) := by
    have reads := readAll_of_framed framed
    simp only [spans, map_map, Function.comp_def] at reads
    exact reads
  obtain ⟨_, all', _, each⟩ := accepted_entries accepted
  cases all.symm.trans all'
  refine ⟨items, merged, ?_, reads, ?_⟩
  · rw [mergeOverlayPackets_eq all, merged, Option.map_some]
  · have nested : (items.map itemPacket).mapM (withNested zlib (iterTracePacketsRecursive zlib depth)) =
        some (items.map (itemPackets zlib depth)) := by
      rw [mapM_map]
      refine mapM_eq_map fun item member => ?_
      cases item with
      | inl entry => exact (each entry (old entry member)).1
      | inr entry =>
          obtain ⟨_, fields, allFields, plain⟩ := new entry (fresh entry member)
          exact withNested_new allFields plain
    rw [iterTracePacketsRecursive, reads, bind_some, nested]
    rfl

variable {γ : Type*}

theorem itemPackets_flatMap (contributes : Bytes → List γ) :
    (fun item => (itemPackets zlib depth item).flatMap contributes) =
      Sum.elim (fun entry => (entryPackets zlib depth entry).flatMap contributes)
        fun new => contributes (newPacket new) := by
  funext item
  cases item <;> simp [itemPackets]

variable (merged : mergeItems entries (overlay.insertionSort OverlayPacketEntry.le) = some items)
include merged

variable {contributes : Bytes → List γ}

/-- What the packets of a merged trace contribute, if the old ones contribute nothing. -/
theorem merged_flatMap
    (nothing : ∀ entry ∈ entries, ∀ packet ∈ entryPackets zlib depth entry, contributes packet = []) :
    (items.flatMap (itemPackets zlib depth)).flatMap contributes =
      (overlay.insertionSort OverlayPacketEntry.le).flatMap fun new => contributes (newPacket new) := by
  obtain ⟨lefts, rights⟩ := mergeItems_sides merged
  rw [flatMap_assoc, itemPackets_flatMap, flatMap_sides, rights]
  intro entry member
  rw [lefts] at member
  exact flatMap_eq_nil_iff.2 (nothing entry member)

/-- The packets of a merged trace contribute what the new ones do exactly if the old ones contribute
nothing. -/
theorem merged_flatMap_iff :
    ((items.flatMap (itemPackets zlib depth)).flatMap contributes =
      (overlay.insertionSort OverlayPacketEntry.le).flatMap fun new => contributes (newPacket new)) ↔
      ∀ packet ∈ entries.flatMap (entryPackets zlib depth), contributes packet = [] := by
  constructor
  · intro same packet member
    obtain ⟨lefts, rights⟩ := mergeItems_sides merged
    have lengths := congrArg List.length same
    rw [flatMap_assoc, itemPackets_flatMap, length_flatMap_sides, lefts, rights, Nat.add_eq_right,
      length_eq_zero_iff,
      ← flatMap_assoc] at lengths
    exact flatMap_eq_nil_iff.1 lengths packet member
  · intro nothing
    refine merged_flatMap merged fun entry member packet inside => ?_
    exact nothing packet (mem_flatMap.2 ⟨entry, member, inside⟩)

end

end MallocHook
