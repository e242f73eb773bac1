/-
Module: MallocHook.Proofs.CsvPackets
Purpose: The packets of the CSV overlay: what they say when they are read again, and that they are made
  in the order of their times.
Trusted boundary: none
Main exports: trackUuid_injective, columnRows, csvPackets_onTrack
-/
import MallocHook.Core.CsvOverlay
import MallocHook.Proofs.OverlayMerge

namespace MallocHook

open WireFormat List

/-! ### What a packet says about tracks -/

/-- The values of a track in a packet, with the time of the packet. -/
def counterValues (uuid : Nat) (packet : Bytes) : List (Option Nat × CounterValue) :=
  let fields := (iterFields packet).getD []
  fields.flatMap fun field => (lenOf 11 field).elim [] fun payload =>
    ((parseCounterEvent payload).bind fun event =>
      if event.trackUuid = some uuid then event.value?.map fun value =>
        (lastField (varintOf 8) fields, value)
      else none).toList

namespace CsvPacket

/-- The message of the packet, and what it is in. -/
def made : CsvPacket → MadePacket
  | .descriptor uuid name parentUuid unitName first =>
      .descriptor first ([⟨1, .varint uuid⟩, ⟨2, .len name⟩] ++
        (parentUuid.map fun parent => (⟨5, .varint parent⟩ : WireField)).toList ++
        if unitName = [] then [] else [⟨8, .len (encodeLenField 6 unitName)⟩])
  | .counter trackUuid timestampNs value =>
      .event timestampNs
        [⟨9, .varint counterEventType⟩, ⟨11, .varint trackUuid⟩,
          ⟨doubleCounterValueField, .fixed64 value.bytes⟩]

/-- The bytes of a packet. -/
def bytes (metadata : TraceMetadata) (packet : CsvPacket) : Bytes :=
  packet.made.bytes metadata.overlaySequenceId metadata.primaryClockId

variable (metadata : TraceMetadata) (packet : CsvPacket)

theorem rootBytes_eq : packet.rootBytes metadata = encodeLenField 1 (packet.bytes metadata) := by
  cases packet with
  | descriptor uuid name parentUuid unitName firstPacket =>
      rw [rootBytes, makeDescriptorPacket, bytes, made, MadePacket.bytes, MadePacket.fields, ← makePacket_eq]
      by_cases plain : unitName = [] <;> cases parentUuid <;>
        simp [MadePacket.payload, MadePacket.message, plain, encodeLenField, encodeVarField]
  | counter trackUuid timestampNs value =>
      rw [rootBytes, makeCounterPacket, bytes, made, MadePacket.bytes, MadePacket.fields, ← makePacket_eq]
      rfl

theorem iterFields_payload : iterFields packet.made.payload = some packet.made.message := by
  refine iterFields_encode ?_
  cases packet with
  | descriptor uuid name parentUuid unitName firstPacket =>
      by_cases plain : unitName = [] <;> cases parentUuid <;> simp [made, MadePacket.message, plain]
  | counter trackUuid timestampNs value => simp [made, MadePacket.message, WireValue.Complete, value.eight]

/-- The event of a counter packet. -/
theorem parseCounterEvent_payload (trackUuid timestampNs : Nat) (value : Double) :
    parseCounterEvent (counter trackUuid timestampNs value).made.payload =
      some ⟨some trackUuid, true, some (.double value)⟩ := by
  rw [parseCounterEvent, iterFields_payload, Option.bind_some]
  simp [made, MadePacket.message, CounterEvent.read, counterEventType, doubleCounterValueField, value.eight]

/-- The track of a descriptor. -/
theorem parseTrackUuid_payload (uuid : Nat) (name : Bytes) (parentUuid : Option Nat) (unitName : Bytes)
    (first : Bool) :
    parseTrackUuid (descriptor uuid name parentUuid unitName first).made.payload = some (some uuid) := by
  rw [parseTrackUuid, firstField_eq (iterFields_payload _)]
  simp [made, MadePacket.message, varintOf]

/-- The tracks that it describes. -/
def describes : CsvPacket → List Nat
  | .descriptor uuid _ _ _ _ => [uuid]
  | .counter _ _ _ => []

/-- What it has for a track: `row` is applied to a time and a value. -/
def onTrack {γ : Type*} (uuid : Nat) (row : Nat → Double → γ) : CsvPacket → List γ
  | .descriptor _ _ _ _ _ => []
  | .counter trackUuid timestampNs value => if trackUuid = uuid then [row timestampNs value] else []

/-- What the check notes about it. -/
def note (layout : OverlayLayout) (clockId : Nat) : CsvPacket → PacketNote
  | .descriptor uuid _ _ _ _ =>
      ⟨[uuid].filter fun uuid => decide (uuid ∈ layout.parentUuid :: layout.trackUuids), none, false⟩
  | .counter trackUuid timestampNs value =>
      ⟨[], if trackUuid ∈ layout.trackUuids then
        some (trackUuid, timestampNs, some clockId, .double value) else none,
        false⟩

theorem trackDescriptors_bytes : trackDescriptors (packet.bytes metadata) = packet.describes := by
  unfold trackDescriptors fieldTracks
  rw [bytes, MadePacket.flatMap_descriptors]
  cases packet with
  | descriptor uuid name parentUuid unitName first =>
      rw [parseTrackUuid_payload]
      rfl
  | counter trackUuid timestampNs value => rfl

theorem counterValues_bytes (uuid : Nat) : counterValues uuid (packet.bytes metadata) =
    packet.onTrack uuid fun timestampNs value => (some timestampNs, .double value) := by
  rw [counterValues, bytes, MadePacket.flatMap_events]
  cases packet with
  | descriptor uuid name parentUuid unitName first => rfl
  | counter trackUuid timestampNs value =>
      dsimp only [made]
      rw [show (MadePacket.event timestampNs _).payload =
        (counter trackUuid timestampNs value).made.payload from rfl,
        parseCounterEvent_payload, Option.bind_some]
      by_cases same : trackUuid = uuid
      · subst same
        simp [MadePacket.iterFields_bytes, MadePacket.fields, packetFields, lastField, varintOf,
          CounterEvent.value?,
          onTrack]
      · simp [same, onTrack]

theorem payload_ne_nil : packet.made.payload ≠ [] := by
  intro empty
  have read := packet.iterFields_payload
  rw [empty] at read
  cases packet <;> cases read

theorem verifyPacket_bytes {layout : OverlayLayout}
    (sequence : layout.sequenceId = metadata.overlaySequenceId) :
    verifyPacket layout (packet.bytes metadata) = some (packet.note layout metadata.primaryClockId) := by
  have nonempty := packet.payload_ne_nil
  rw [verifyPacket, bytes, MadePacket.iterFields_bytes, Option.bind_some]
  cases packet with
  | descriptor uuid name parentUuid unitName first =>
      have read := parseTrackUuid_payload uuid name parentUuid unitName first
      dsimp only [made, MadePacket.fields] at read ⊢
      generalize (MadePacket.descriptor first _).payload = payload at read
      cases first <;> simp [packetFields, PacketReport.read, sequence, read, PacketReport.eventNote, note]
  | counter trackUuid timestampNs value =>
      have read := parseCounterEvent_payload trackUuid timestampNs value
      dsimp only [made, MadePacket.fields] at read nonempty ⊢
      generalize (MadePacket.event timestampNs _).payload = payload at read nonempty
      by_cases known : trackUuid ∈ layout.trackUuids <;>
        simp [packetFields, PacketReport.read, sequence, PacketReport.eventNote, nonempty, read, note, known,
          CounterEvent.value?, Option.filter]

end CsvPacket

/-! ### Old packets -/

variable {layout : OverlayLayout}

/-- On another sequence, a field counts only if it is a timestamp. -/
theorem read_old {report : PacketReport} {field : WireField}
    (below : ∀ id, varintOf 10 field = some id → id < layout.sequenceId)
    (other : report.sequence ≠ some layout.sequenceId) :
    ∃ report', PacketReport.read layout report field = some report' ∧
      report'.sequence ≠ some layout.sequenceId ∧ report'.descriptors = report.descriptors ∧
      report'.event = report.event ∧
      report'.timestamp.isSome = (report.timestamp.isSome || (varintOf 8 field).isSome) := by
  obtain ⟨number, value⟩ := field
  unfold PacketReport.read
  split
  all_goals dsimp only at *
  case h_1 _ _ value isNumber isValue =>
    subst isNumber isValue
    exact ⟨_, rfl, other, rfl, rfl, by simp [varintOf]⟩
  case h_2 _ _ id isNumber isValue =>
    subst isNumber isValue
    have smaller := below id (by simp [varintOf])
    exact ⟨_, rfl, by simpa using Nat.ne_of_lt smaller, rfl, rfl, by simp [varintOf]⟩
  case h_3 _ _ value isNumber isValue =>
    subst isNumber isValue
    exact ⟨_, rfl, other, rfl, rfl, by simp [varintOf]⟩
  case h_4 _ _ payload isNumber isValue =>
    subst isNumber isValue
    exact ⟨report, if_neg other, other, rfl, rfl, by simp [varintOf]⟩
  case h_5 _ _ payload isNumber isValue =>
    subst isNumber isValue
    exact ⟨report, if_neg other, other, rfl, rfl, by simp [varintOf]⟩
  case h_6 _ _ notTimestamp _ _ _ _ =>
    refine ⟨report, rfl, other, rfl, rfl, ?_⟩
    cases found : varintOf 8 ⟨number, value⟩ with
    | none => simp
    | some timestamp =>
        cases varintOf_eq_some_iff.1 found
        exact (notTimestamp timestamp rfl rfl).elim

/-- On another sequence, the check only takes notice of timestamps. -/
theorem report_old {fields : List WireField}
    (below : ∀ field ∈ fields, ∀ id, varintOf 10 field = some id → id < layout.sequenceId)
    {report : PacketReport} (other : report.sequence ≠ some layout.sequenceId) :
    ∃ report', fields.foldlM (PacketReport.read layout) report = some report' ∧
      report'.sequence ≠ some layout.sequenceId ∧ report'.descriptors = report.descriptors ∧
      report'.event = report.event ∧
      report'.timestamp.isSome = (report.timestamp.isSome || fields.any fun field =>
      (varintOf 8 field).isSome) := by
  induction fields generalizing report with
  | nil => exact ⟨report, rfl, other, rfl, rfl, by simp⟩
  | cons field rest ih =>
      obtain ⟨here, later⟩ := forall_mem_cons.1 below
      obtain ⟨between, reads, otherBetween, descriptors, event, timestamp⟩ := read_old here other
      obtain ⟨report', readsRest, other', descriptors', event', timestamp'⟩ := ih later otherBetween
      refine ⟨report', ?_, other', descriptors'.trans descriptors, event'.trans event, ?_⟩
      · rw [foldlM_cons, reads]
        exact readsRest
      · rw [timestamp', timestamp, any_cons, Bool.or_assoc]

/-- The check notes whether an old packet has a timestamp, and nothing else. -/
theorem verifyPacket_old {metadata : TraceMetadata} {packet : Bytes}
    (sequence : layout.sequenceId = metadata.overlaySequenceId) (below : PacketBelow metadata packet) :
    ∃ timestamp, parsePacketTimestamp packet = some timestamp ∧
      verifyPacket layout packet = some ⟨[], none, timestamp.isSome⟩ := by
  obtain ⟨fields, all, each⟩ := below
  obtain ⟨report, reads, other, descriptors, event, timestamp⟩ :=
    report_old (fun field member => sequence ▸ (each field member).1)
      (show ({} : PacketReport).sequence ≠ _ by simp)
  refine ⟨_, firstField_eq all, ?_⟩
  have found : (fields.findSome? (varintOf 8)).isSome = report.timestamp.isSome := by
    rw [timestamp, Bool.eq_iff_iff, List.findSome?_isSome_iff]
    simp
  rw [verifyPacket, all, Option.bind_some, reads, Option.bind_some]
  simp [PacketReport.eventNote, event, descriptors, other, found]

/-- An old packet describes no new track. -/
theorem trackDescriptors_old {metadata : TraceMetadata} {packet : Bytes}
    (below : PacketBelow metadata packet) :
    ∀ uuid ∈ trackDescriptors packet, uuid < metadata.nextUuid := by
  obtain ⟨fields, all, each⟩ := below
  intro uuid member
  rw [trackDescriptors, all, Option.getD_some] at member
  obtain ⟨field, there, inside⟩ := mem_flatMap.1 member
  cases payload : lenOf 60 field with
  | none => simp [fieldTracks, payload] at inside
  | some payload' =>
      obtain ⟨found, parsed, small⟩ := (each field there).2 payload' payload
      simp only [fieldTracks, payload, Option.elim_some, parsed, Option.getD_some,
        Option.mem_toList] at inside
      exact small uuid inside

/-! ### The tracks of the columns -/

section

variable {columns : List Bytes} {samples : List CsvSample} {metadata : TraceMetadata} {timestamps : List Nat}
  {groupName trackPrefix unitName : Bytes} {startNs : Nat} {column : Bytes}

theorem lookup_zipIdx (member : column ∈ columns) :
    ∃ index, columns.zipIdx.reverse.lookup column = some index ∧ columns[index]? = some column := by
  have found : (columns.zipIdx.reverse.lookup column).isSome := by
    obtain ⟨index, inside, rfl⟩ := mem_iff_getElem.1 member
    refine lookup_isSome_iff.2 ⟨(columns[index], index), ?_, by simp⟩
    rw [mem_reverse, mem_zipIdx_iff_getElem?]
    exact List.getElem?_eq_getElem inside
  obtain ⟨index, found⟩ := Option.isSome_iff_exists.1 found
  obtain ⟨before, after, split, _⟩ := lookup_eq_some_iff.1 found
  have there : (column, index) ∈ columns.zipIdx := by
    rw [← mem_reverse, split]
    simp
  exact ⟨index, found, mem_zipIdx_iff_getElem?.1 there⟩

/-- Different columns have different tracks. -/
theorem trackUuid_injective {parentUuid : Nat} {column' : Bytes} (member : column ∈ columns)
    (member' : column' ∈ columns)
    (same : trackUuid parentUuid columns column = trackUuid parentUuid columns column') :
    column = column' := by
  obtain ⟨index, found, at_⟩ := lookup_zipIdx member
  obtain ⟨index', found', at'⟩ := lookup_zipIdx member'
  rw [trackUuid, trackUuid, found, found'] at same
  obtain rfl : index = index' := by simpa using same
  exact Option.some.inj (at_.symm.trans at')

theorem lt_trackUuid (parentUuid : Nat) (columns : List Bytes) (column : Bytes) :
    parentUuid < trackUuid parentUuid columns column := by
  unfold trackUuid
  omega

/-- The values of a column, with the times of their samples. -/
def columnRows (columns : List Bytes) (samples : List CsvSample) (timestamps : List Nat) (column : Bytes) :
    List (Nat × Double) :=
  (timestamps.zip samples).flatMap fun (timestampNs, sample) =>
    ((columns.zip sample.2).lookup column).toList.map fun value => (timestampNs, value)

/-- In a list whose keys are different, the values of a key are what a search finds. -/
theorem flatMap_eq_lookup {α β γ : Type*} [BEq α] [LawfulBEq α] [DecidableEq α] {list : List (α × β)}
    (distinct : (list.map Prod.fst).Nodup) (key : α) (row : β → γ) :
    (list.flatMap fun item => if item.1 = key then [row item.2] else []) =
    (list.lookup key).toList.map row := by
  induction list with
  | nil => rfl
  | cons item rest ih =>
      obtain ⟨key', value⟩ := item
      obtain ⟨absent, distinct⟩ := nodup_cons.1 distinct
      rw [flatMap_cons, ih distinct]
      by_cases same : key' = key
      · subst same
        have missing : rest.lookup key' = none := by
          rw [lookup_eq_none_iff]
          intro item member
          simp only [bne_iff_ne, ne_eq]
          intro same
          exact absent (mem_map.2 ⟨item, member, same.symm⟩)
        simp [missing]
      · have other : (key == key') = false := by simpa using Ne.symm same
        simp [lookup_cons, same, other]

/-- The rows of a track in the packets that are made. -/
theorem csvPackets_onTrack {γ : Type*} (distinct : columns.Nodup)
    (full : ∀ sample ∈ samples, sample.2.length = columns.length) (member : column ∈ columns)
    (row : Nat → Double → γ) :
    ((csvPackets columns samples metadata groupName trackPrefix unitName timestamps
      startNs).flatMap fun packet =>
      packet.1.onTrack (trackUuid metadata.nextUuid columns column) row) =
      (columnRows columns samples timestamps column).map fun pair => row pair.1 pair.2 := by
  have descriptors : ((csvDescriptors columns metadata groupName trackPrefix unitName
    startNs).flatMap fun packet =>
      packet.1.onTrack (trackUuid metadata.nextUuid columns column) row) = [] := by
    refine flatMap_eq_nil_iff.2 fun packet there => ?_
    obtain rfl | there := mem_cons.1 there
    · rfl
    · obtain ⟨column', _, rfl⟩ := mem_map.1 there
      rfl
  rw [csvPackets, flatMap_append, descriptors, nil_append, flatMap_assoc, columnRows, map_flatMap]
  refine flatMap_congr fun pair there => ?_
  obtain ⟨timestampNs, sample⟩ := pair
  have inside : sample ∈ samples := (of_mem_zip there).2
  have keys : (columns.zip sample.2).map Prod.fst = columns := map_fst_zip (full sample inside).ge
  simp only [sampleEvents, flatMap_map, map_map, Function.comp_def, CsvPacket.onTrack]
  rw [← flatMap_eq_lookup (keys.symm ▸ distinct)]
  refine flatMap_congr fun item there => ?_
  have known : item.1 ∈ columns := (of_mem_zip there).1
  by_cases same : item.1 = column
  · simp [same]
  · rw [if_neg same, if_neg fun equal => same (trackUuid_injective known member equal)]

/-- A column has a value at the time of every sample. -/
theorem columnRows_fst (full : ∀ sample ∈ samples, sample.2.length = columns.length)
    (rows : timestamps.length = samples.length) (member : column ∈ columns) :
    (columnRows columns samples timestamps column).map Prod.fst = timestamps := by
  calc (columnRows columns samples timestamps column).map Prod.fst
      = (timestamps.zip samples).flatMap fun pair => [pair.1] := by
        rw [columnRows, map_flatMap]
        refine flatMap_congr fun pair there => ?_
        obtain ⟨timestampNs, sample⟩ := pair
        have inside : sample ∈ samples := (of_mem_zip there).2
        have keys : (columns.zip sample.2).map Prod.fst = columns := map_fst_zip (full sample inside).ge
        have found : ((columns.zip sample.2).lookup column).isSome := by
          rw [← keys] at member
          obtain ⟨item, there, rfl⟩ := mem_map.1 member
          exact lookup_isSome_iff.2 ⟨item, there, beq_self_eq_true _⟩
        obtain ⟨value, found⟩ := Option.isSome_iff_exists.1 found
        simp [found]
    _ = (timestamps.zip samples).map Prod.fst := map_eq_flatMap.symm
    _ = timestamps := map_fst_zip rows.le

/-- The tracks that are described: the parent and the columns. -/
theorem csvPackets_describes :
    ((csvPackets columns samples metadata groupName trackPrefix unitName timestamps
      startNs).flatMap fun packet =>
      packet.1.describes) = metadata.nextUuid :: columns.map (trackUuid metadata.nextUuid columns) := by
  have events : (((timestamps.zip samples).flatMap fun pair =>
      sampleEvents columns metadata pair.1 pair.2.2).flatMap fun packet => packet.1.describes) = [] := by
    rw [flatMap_assoc]
    refine flatMap_eq_nil_iff.2 fun pair _ => flatMap_eq_nil_iff.2 fun packet there => ?_
    obtain ⟨item, _, rfl⟩ := mem_map.1 there
    rfl
  rw [csvPackets, flatMap_append, events, append_nil, csvDescriptors, flatMap_cons, flatMap_map]
  exact congrArg (metadata.nextUuid :: ·) map_eq_flatMap.symm

/-! ### The order of the packets -/

/-- A descriptor stands at the time of the first event, an event at the time of its sample. -/
theorem csvPackets_time {packet : CsvPacket × Nat}
    (made : packet ∈ csvPackets columns samples metadata groupName trackPrefix unitName timestamps startNs) :
    packet.2 = startNs ∨ packet.2 ∈ timestamps := by
  obtain made | made := mem_append.1 made
  · obtain rfl | made := mem_cons.1 made
    · exact Or.inl rfl
    · obtain ⟨column, _, rfl⟩ := mem_map.1 made
      exact Or.inl rfl
  · obtain ⟨pair, there, made⟩ := mem_flatMap.1 made
    obtain ⟨item, _, rfl⟩ := mem_map.1 made
    exact Or.inr (of_mem_zip there).1

/-- The packets are made in the order of their times. -/
theorem csvPackets_sorted (increasing : timestamps.Pairwise (· < ·))
    (rows : timestamps.length = samples.length)
    (first : ∀ timestampNs ∈ timestamps, startNs ≤ timestampNs) :
    (csvPackets columns samples metadata groupName trackPrefix unitName timestamps startNs).Pairwise
      fun one two => one.2 ≤ two.2 := by
  have descriptors : ∀ packet ∈ csvDescriptors columns metadata groupName trackPrefix unitName startNs,
      packet.2 = startNs := by
    simp [csvDescriptors]
  have events : ∀ pair : Nat × CsvSample, ∀ packet ∈ sampleEvents columns metadata pair.1 pair.2.2,
      packet.2 = pair.1 := by
    intro pair packet made
    obtain ⟨item, _, rfl⟩ := mem_map.1 made
    rfl
  refine pairwise_append.2 ⟨?_, pairwise_flatMap.2 ⟨?_, ?_⟩, ?_⟩
  · exact pairwise_of_forall_mem_list fun one madeOne two madeTwo =>
      ((descriptors one madeOne).trans (descriptors two madeTwo).symm).le
  · intro pair _
    exact pairwise_of_forall_mem_list fun one madeOne two madeTwo =>
      ((events pair one madeOne).trans (events pair two madeTwo).symm).le
  · have increasing : (timestamps.zip samples).Pairwise fun one two => one.1 < two.1 := by
      rw [← map_fst_zip rows.le] at increasing
      exact pairwise_map.1 increasing
    refine increasing.imp fun {one two} before packet made packet' made' => ?_
    rw [events one packet made, events two packet' made']
    exact before.le
  · intro packet made packet' made'
    obtain ⟨pair, there, made'⟩ := mem_flatMap.1 made'
    rw [descriptors packet made, events pair packet' made']
    exact first pair.1 (of_mem_zip there).1

variable (metadata groupName trackPrefix unitName startNs) in
/-- If there is a column, the last packet is an event at the last timestamp. -/
theorem csvPackets_last (increasing : timestamps.Pairwise (· < ·))
    (rows : timestamps.length = samples.length)
    (full : ∀ sample ∈ samples, sample.2.length = columns.length) (someColumn : columns ≠ [])
    (someTime : timestamps ≠ []) :
    ∃ front column value last, column ∈ columns ∧ (∀ timestampNs ∈ timestamps, timestampNs ≤ last) ∧
      csvPackets columns samples metadata groupName trackPrefix unitName timestamps startNs =
        front ++ [(.counter (trackUuid metadata.nextUuid columns column) last value, last)] := by
  have times : (timestamps.zip samples).map Prod.fst = timestamps := map_fst_zip rows.le
  obtain noPair | ⟨pairs, ⟨last, sample⟩, isLast⟩ := eq_nil_or_concat (timestamps.zip samples)
  · rw [noPair] at times
    exact (someTime times.symm).elim
  rw [concat_eq_append] at isLast
  have inside : sample ∈ samples := (of_mem_zip (isLast ▸ mem_concat_self)).2
  have keys : (columns.zip sample.2).map Prod.fst = columns := map_fst_zip (full sample inside).ge
  obtain noCell | ⟨cells, ⟨column, value⟩, isLastCell⟩ := eq_nil_or_concat (columns.zip sample.2)
  · rw [noCell] at keys
    exact (someColumn keys.symm).elim
  rw [concat_eq_append] at isLastCell
  have known : column ∈ columns := (of_mem_zip (isLastCell ▸ mem_concat_self)).1
  have above : ∀ timestampNs ∈ timestamps, timestampNs ≤ last := by
    intro timestampNs there
    rw [← times, isLast, map_append] at there increasing
    obtain there | there := mem_append.1 there
    · exact ((pairwise_append.1 increasing).2.2 timestampNs there last mem_cons_self).le
    · exact (mem_singleton.1 there).le
  have isLastEvent : ∃ events, sampleEvents columns metadata last sample.2 =
      events ++ [(.counter (trackUuid metadata.nextUuid columns column) last value, last)] := by
    rw [sampleEvents, isLastCell, map_append]
    exact ⟨_, rfl⟩
  obtain ⟨events, isLastEvent⟩ := isLastEvent
  refine ⟨csvDescriptors columns metadata groupName trackPrefix unitName startNs ++
    (pairs.flatMap fun pair =>
    sampleEvents columns metadata pair.1 pair.2.2) ++ events, column, value, last, known, above, ?_⟩
  rw [csvPackets, isLast, flatMap_append, flatMap_singleton, append_assoc, append_assoc, ← isLastEvent]

end

section

variable {metadata : TraceMetadata} {packets : List (CsvPacket × Nat)}

theorem mem_csvEntries {new : OverlayPacketEntry} (there : new ∈ csvEntries metadata packets) :
    ∃ packet ∈ packets, newPacket new = packet.1.bytes metadata ∧ new.sortTimestampNs = packet.2 ∧
      new.rootBytes = encodeLenField 1 (newPacket new) := by
  obtain ⟨⟨packet, order⟩, made, rfl⟩ := mem_map.1 there
  have member : packet ∈ packets := mem_of_getElem? (mem_zipIdx_iff_getElem?.1 made)
  have root := packet.1.rootBytes_eq metadata
  have same : newPacket ⟨packet.1.rootBytes metadata, packet.2, order⟩ = packet.1.bytes metadata :=
    newPacket_eq root
  exact ⟨packet, member, same, rfl, by rw [same, ← root]⟩

variable (metadata packets) in
theorem csvEntries_concat (packet : CsvPacket × Nat) :
    ∃ front new, csvEntries metadata (packets ++ [packet]) = front ++ [new] ∧
      newPacket new = packet.1.bytes metadata ∧ new.sortTimestampNs = packet.2 := by
  refine ⟨csvEntries metadata packets, ⟨packet.1.rootBytes metadata, packet.2, packets.length⟩, ?_,
    newPacket_eq (packet.1.rootBytes_eq metadata), rfl⟩
  rw [csvEntries, zipIdx_append, map_append, Nat.zero_add]
  rfl

theorem newPackets_csvEntries : NewPackets (csvEntries metadata packets) := by
  intro new there
  obtain ⟨packet, _, same, _, root⟩ := mem_csvEntries there
  rw [same] at root ⊢
  exact ⟨root, _, packet.1.made.iterFields_bytes _ _, packet.1.made.no_compressed _ _⟩

theorem map_newPacket_csvEntries :
    (csvEntries metadata packets).map newPacket = packets.map fun packet => packet.1.bytes metadata := by
  have each : ∀ pair : (CsvPacket × Nat) × Nat,
      newPacket ⟨pair.1.1.rootBytes metadata, pair.1.2, pair.2⟩ = pair.1.1.bytes metadata :=
    fun pair => newPacket_eq (pair.1.1.rootBytes_eq metadata)
  calc (csvEntries metadata packets).map newPacket
      = packets.zipIdx.map fun pair => pair.1.1.bytes metadata := by
        rw [csvEntries, map_map]
        exact map_congr_left fun pair _ => each pair
    _ = (packets.zipIdx.map Prod.fst).map fun packet => packet.1.bytes metadata := by
        rw [map_map]
        rfl
    _ = packets.map fun packet => packet.1.bytes metadata := by rw [zipIdx_map_fst]

/-- What the new entries contribute is what the packets do. -/
theorem csvEntries_flatMap {γ : Type*} (contributes : Bytes → List γ) :
    ((csvEntries metadata packets).flatMap fun new => contributes (newPacket new)) =
      packets.flatMap fun packet => contributes (packet.1.bytes metadata) := by
  rw [← flatMap_map newPacket contributes, map_newPacket_csvEntries, flatMap_map]

/-- Packets that are made in the order of their times are not moved by the sort. -/
theorem insertionSort_csvEntries (sorted : packets.Pairwise fun one two => one.2 ≤ two.2) :
    (csvEntries metadata packets).insertionSort OverlayPacketEntry.le = csvEntries metadata packets := by
  refine List.Pairwise.insertionSort_eq (pairwise_iff_getElem.2 fun i j inside inside' before => ?_)
  simp only [csvEntries, length_map, length_zipIdx] at inside inside'
  have times := pairwise_iff_getElem.1 sorted i j inside inside' before
  simp only [csvEntries, getElem_map, getElem_zipIdx, OverlayPacketEntry.le]
  omega

end

end MallocHook
