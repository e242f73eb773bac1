/-
Module: MallocHook.Proofs.CsvAcceptance
Purpose: Which samples the CSV overlay accepts. The range of a trace takes in compressed packets; the
  merge and the check for a late tail only look at the outer ones.
Trusted boundary: none
Main exports: lateTail_items_iff, csv_overlay_accepted_iff, csv_overlay_rejected
-/
import MallocHook.Proofs.CsvPackets

namespace MallocHook

open WireFormat List
open Option (bind_some getD_some isSome_iff_exists)

/-! ### Where the new packets end -/

section

variable {entries : List (Bytes × Bytes)} {items : List MergedItem}

/-- A last new packet that all old ones are before stays the last. -/
theorem mergeItems_tail {front : List OverlayPacketEntry} {last : OverlayPacketEntry}
    (merged : mergeItems entries (front ++ [last]) = some items)
    (before : ∀ entry ∈ entries, ∀ timestamp, parsePacketTimestamp entry.2 = some (some timestamp) →
      timestamp < last.sortTimestampNs) : ∃ items', items = items' ++ [.inr last] := by
  induction entries generalizing front items with
  | nil =>
      cases merged
      exact ⟨front.map .inr, by simp⟩
  | cons first later ih =>
      obtain ⟨here, there⟩ := forall_mem_cons.1 before
      obtain ⟨timestamp, rest, found, mergedRest, rfl⟩ := mergeItems_cons merged
      have notDue : isDue timestamp last = false := by
        cases timestamp with
        | none => rfl
        | some timestamp => simpa [isDue] using here timestamp found
      have stays : (front ++ [last]).dropWhile (isDue timestamp) =
        front.dropWhile (isDue timestamp) ++ [last] := by
        rw [dropWhile_append]
        split
        · next empty =>
            rw [isEmpty_iff.1 empty, dropWhile_cons_of_neg (by simp [notDue])]
            rfl
        · rfl
      rw [stays] at mergedRest
      obtain ⟨items', rfl⟩ := ih mergedRest there
      exact ⟨_ ++ .inl first :: items', (append_assoc _ (.inl first :: items') _).symm⟩

end

theorem mem_positions {test : PacketNote → Bool} {notes : List PacketNote} {index : Nat} :
    index ∈ positions test notes ↔ ∃ note, notes[index]? = some note ∧ test note := by
  simp [positions, mem_zipIdx_iff_getElem?]

/-- Some event is behind all timestamped packets of the trace, and there are such packets. -/
theorem lateTail_iff {notes : List PacketNote} : lateTail notes ↔
    (∃ note ∈ notes, note.original) ∧ ∃ index ∈ positions (fun note => note.event.isSome) notes,
      ∀ index' ∈ positions PacketNote.original notes, index' < index := by
  rw [lateTail, Option.any_eq_true]
  constructor
  · rintro ⟨last, isLast, behind⟩
    obtain ⟨lastOriginal, isLastOriginal, behind⟩ := (Option.any_eq_true _ _).1 behind
    obtain ⟨there, _⟩ := List.max?_eq_some_iff.1 isLast
    obtain ⟨thereOriginal, above⟩ := List.max?_eq_some_iff.1 isLastOriginal
    obtain ⟨note, found, original⟩ := mem_positions.1 thereOriginal
    refine ⟨⟨note, mem_of_getElem? found, original⟩, last, there, fun index inside => ?_⟩
    exact (above index inside).trans_lt (of_decide_eq_true behind)
  · rintro ⟨⟨note, there, original⟩, index, event, behind⟩
    obtain ⟨first, found⟩ := mem_iff_getElem?.1 there
    have someOriginal : first ∈ positions PacketNote.original notes :=
      mem_positions.2 ⟨note, found, original⟩
    obtain ⟨last, isLast⟩ := isSome_iff_exists.1 (isSome_max?_of_mem event)
    obtain ⟨lastOriginal, isLastOriginal⟩ := isSome_iff_exists.1 (isSome_max?_of_mem someOriginal)
    have below := (List.max?_eq_some_iff.1 isLast).2 index event
    have before := behind lastOriginal (List.max?_eq_some_iff.1 isLastOriginal).1
    exact ⟨last, isLast, (Option.any_eq_true _ _).2
      ⟨lastOriginal, isLastOriginal, decide_eq_true (before.trans_le below)⟩⟩

/-! ### The check of the merged trace -/

/-- What the check notes about an item of the merge. -/
def itemNote (layout : OverlayLayout) (item : MergedItem) : PacketNote :=
  (verifyPacket layout (itemPacket item)).getD ⟨[], none, false⟩

section

variable {zlib : Zlib} {depth : Nat} {trace : Bytes} {metadata : TraceMetadata}
  {entries : List (Bytes × Bytes)} {packets : List (CsvPacket × Nat)} {items : List MergedItem}
  {layout : OverlayLayout}

variable {entry : Bytes × Bytes}

/-- What the check notes about an old entry. -/
theorem itemNote_old (accepted : analyzeTrace zlib (depth + 1) trace = some metadata)
    (all : iterTracePacketEntries trace = some entries)
    (sequence : layout.sequenceId = metadata.overlaySequenceId) (there : entry ∈ entries) :
    ∃ timestamp, parsePacketTimestamp entry.2 = some timestamp ∧
      verifyPacket layout entry.2 = some ⟨[], none, timestamp.isSome⟩ ∧
      itemNote layout (.inl entry) = ⟨[], none, timestamp.isSome⟩ := by
  obtain ⟨_, all', _, each⟩ := accepted_entries accepted
  cases all.symm.trans all'
  have first := (accepted_timestamp accepted all entry there).1
  obtain ⟨timestamp, found, noted⟩ := verifyPacket_old sequence ((each entry there).2 entry.2 first)
  refine ⟨timestamp, found, noted, ?_⟩
  change (verifyPacket layout entry.2).getD _ = _
  rw [noted, getD_some]

/-- What the check notes about a new entry. -/
theorem itemNote_new (sequence : layout.sequenceId = metadata.overlaySequenceId) {new : OverlayPacketEntry}
    {packet : CsvPacket} (same : newPacket new = packet.bytes metadata) :
    verifyPacket layout (newPacket new) = some (packet.note layout metadata.primaryClockId) ∧
      itemNote layout (.inr new) = packet.note layout metadata.primaryClockId := by
  have noted := packet.verifyPacket_bytes metadata sequence
  rw [← same] at noted
  refine ⟨noted, ?_⟩
  change (verifyPacket layout (newPacket new)).getD _ = _
  rw [noted, getD_some]

theorem CsvPacket.note_original (packet : CsvPacket) (clockId : Nat) :
    (packet.note layout clockId).original = false := by
  cases packet <;> rfl

variable (accepted : analyzeTrace zlib (depth + 1) trace = some metadata)
  (all : iterTracePacketEntries trace = some entries)
  (merged : mergeItems entries (csvEntries metadata packets) = some items)
  (sequence : layout.sequenceId = metadata.overlaySequenceId)

include accepted all merged sequence

/-- The check gets through all packets. -/
theorem mapM_verifyPacket :
    (items.map itemPacket).mapM (verifyPacket layout) = some (items.map (itemNote layout)) := by
  obtain ⟨lefts, rights⟩ := mergeItems_sides merged
  rw [mapM_map]
  refine mapM_eq_map fun item there => ?_
  cases item with
  | inl entry =>
      have old : entry ∈ entries := lefts ▸ mem_filterMap.2 ⟨_, there, rfl⟩
      obtain ⟨_, _, noted, same⟩ := itemNote_old accepted all sequence old
      rw [same]
      exact noted
  | inr new =>
      have fresh : new ∈ csvEntries metadata packets := rights ▸ mem_filterMap.2 ⟨_, there, rfl⟩
      obtain ⟨packet, _, same, _⟩ := mem_csvEntries fresh
      obtain ⟨noted, same⟩ := itemNote_new sequence same
      rw [same]
      exact noted

/-- Apart from timestamps, what is noted is noted about the new packets. -/
theorem notes_flatMap {γ : Type*} {contributes : PacketNote → List γ}
    (nothing : ∀ original, contributes ⟨[], none, original⟩ = []) :
    (items.map (itemNote layout)).flatMap contributes =
      packets.flatMap fun packet => contributes (packet.1.note layout metadata.primaryClockId) := by
  obtain ⟨lefts, rights⟩ := mergeItems_sides merged
  have sides : (fun item => contributes (itemNote layout item)) =
      Sum.elim (fun entry => contributes (itemNote layout (.inl entry)))
        fun new => contributes ((verifyPacket layout (newPacket new)).getD ⟨[], none, false⟩) := by
    funext item
    cases item <;> rfl
  have old : ∀ entry ∈ items.filterMap Sum.getLeft?, contributes (itemNote layout (.inl entry)) = [] := by
    intro entry there
    rw [lefts] at there
    obtain ⟨timestamp, _, _, same⟩ := itemNote_old accepted all sequence there
    rw [same, nothing]
  calc (items.map (itemNote layout)).flatMap contributes
      = items.flatMap fun item => contributes (itemNote layout item) := flatMap_map ..
    _ = (csvEntries metadata packets).flatMap fun new =>
          contributes ((verifyPacket layout (newPacket new)).getD ⟨[], none, false⟩) := by
        rw [sides, flatMap_sides old, rights]
    _ = packets.flatMap fun packet =>
          contributes ((verifyPacket layout (packet.1.bytes metadata)).getD ⟨[], none, false⟩) :=
        csvEntries_flatMap fun packet => contributes ((verifyPacket layout packet).getD ⟨[], none, false⟩)
    _ = packets.flatMap fun packet => contributes (packet.1.note layout metadata.primaryClockId) := by
        simp only [CsvPacket.verifyPacket_bytes _ _ sequence, getD_some]

/-- The note at a place of the merged trace is about an old entry or a new one. -/
theorem notes_getElem? {index : Nat} {note : PacketNote}
    (found : (items.map (itemNote layout))[index]? = some note) :
    (∃ entry ∈ entries, items[index]? = some (.inl entry) ∧ ∃ timestamp,
      parsePacketTimestamp entry.2 = some timestamp ∧ note = ⟨[], none, timestamp.isSome⟩) ∨
    ∃ new, items[index]? = some (.inr new) ∧ ∃ packet ∈ packets, newPacket new = packet.1.bytes metadata ∧
      note = packet.1.note layout metadata.primaryClockId := by
  obtain ⟨lefts, rights⟩ := mergeItems_sides merged
  rw [List.getElem?_map] at found
  obtain ⟨item, there, rfl⟩ := Option.map_eq_some_iff.1 found
  have member := mem_of_getElem? there
  cases item with
  | inl entry =>
      have old : entry ∈ entries := lefts ▸ mem_filterMap.2 ⟨_, member, rfl⟩
      obtain ⟨timestamp, searched, _, same⟩ := itemNote_old accepted all sequence old
      exact Or.inl ⟨entry, old, there, timestamp, searched, same⟩
  | inr new =>
      have fresh : new ∈ csvEntries metadata packets := rights ▸ mem_filterMap.2 ⟨_, member, rfl⟩
      obtain ⟨packet, made, same, _⟩ := mem_csvEntries fresh
      exact Or.inr ⟨new, there, packet, made, same, (itemNote_new sequence same).2⟩

/-- A place of the merged trace counts as timestamped exactly if an old packet with a timestamp is there. -/
theorem mem_positions_original {index : Nat} : index ∈ positions PacketNote.original
    (items.map (itemNote layout)) ↔
    ∃ entry ∈ entries, items[index]? = some (.inl entry) ∧ ∃ timestamp,
      parsePacketTimestamp entry.2 = some (some timestamp) := by
  rw [mem_positions]
  constructor
  · rintro ⟨note, found, original⟩
    obtain ⟨entry, old, there, timestamp, searched, rfl⟩ | ⟨_, _, packet, _, _, rfl⟩ :=
      notes_getElem? accepted all merged sequence found
    · obtain ⟨timestamp, rfl⟩ := isSome_iff_exists.1 original
      exact ⟨entry, old, there, timestamp, searched⟩
    · rw [CsvPacket.note_original] at original
      cases original
  · rintro ⟨entry, old, there, timestamp, searched⟩
    obtain ⟨_, searched', _, same⟩ := itemNote_old accepted all sequence old
    cases searched.symm.trans searched'
    exact ⟨_, by rw [List.getElem?_map, there, Option.map_some, same], rfl⟩

/-- If no old packet has a timestamp, the new ones are not late. -/
theorem not_lateTail_of_untimed (untimed : ∀ entry ∈ entries, parsePacketTimestamp entry.2 = some none) :
    ¬lateTail (items.map (itemNote layout)) := by
  intro late
  obtain ⟨⟨note, there, original⟩, _⟩ := lateTail_iff.1 late
  obtain ⟨index, found⟩ := mem_iff_getElem?.1 there
  obtain ⟨entry, old, _, timestamp, searched⟩ :=
    (mem_positions_original accepted all merged sequence).1 (mem_positions.2 ⟨note, found, original⟩)
  cases (untimed entry old).symm.trans searched

/-- If there are no tracks, there are no late events. -/
theorem not_lateTail_of_no_tracks (noTrack : layout.trackUuids = []) :
    ¬lateTail (items.map (itemNote layout)) := by
  intro late
  obtain ⟨_, index, event, _⟩ := lateTail_iff.1 late
  obtain ⟨note, found, isEvent⟩ := mem_positions.1 event
  obtain ⟨_, _, _, _, _, rfl⟩ | ⟨_, _, ⟨packet, _⟩, _, _, rfl⟩ :=
    notes_getElem? accepted all merged sequence found
  · cases isEvent
  · cases packet <;> simp [CsvPacket.note, noTrack] at isEvent

/-- If an old packet is not before any new one, the new ones are not late. -/
theorem not_lateTail_of_covered (old : entry ∈ entries) {last : Nat}
    (timed : parsePacketTimestamp entry.2 = some (some last))
    (covers : ∀ packet ∈ packets, packet.2 ≤ last) : ¬lateTail (items.map (itemNote layout)) := by
  have covers' : ∀ new ∈ csvEntries metadata packets, new.sortTimestampNs ≤ last := by
    intro new there
    obtain ⟨packet, made, _, time, _⟩ := mem_csvEntries there
    exact time ▸ Int.ofNat_le.2 (covers packet made)
  obtain ⟨front, back, rfl, noNew⟩ := mergeItems_covered merged old timed covers'
  intro late
  obtain ⟨_, index, event, behind⟩ := lateTail_iff.1 late
  have here : (front ++ Sum.inl entry :: back)[front.length]? = some (Sum.inl entry) := by simp
  have after := behind front.length
    ((mem_positions_original accepted all merged sequence).2 ⟨entry, old, here, last, timed⟩)
  obtain ⟨note, found, isEvent⟩ := mem_positions.1 event
  obtain ⟨_, _, _, _, _, rfl⟩ | ⟨new, there, _⟩ := notes_getElem? accepted all merged sequence found
  · cases isEvent
  · rw [List.getElem?_append_right after.le, List.getElem?_cons,
      if_neg (Nat.sub_ne_zero_of_lt after)] at there
    exact noNew new (mem_of_getElem? there)

/-- If the last new packet is an event behind all old timestamps, it is late. -/
theorem lateTail_of_behind {front : List (CsvPacket × Nat)} {trackUuid last : Nat} {value : Double}
    (ends : packets = front ++ [(.counter trackUuid last value, last)])
    (known : trackUuid ∈ layout.trackUuids) (old : entry ∈ entries) {timestamp : Nat}
    (timed : parsePacketTimestamp entry.2 = some (some timestamp))
    (before : ∀ entry ∈ entries, ∀ timestamp, parsePacketTimestamp entry.2 = some (some timestamp) →
      timestamp < last) : lateTail (items.map (itemNote layout)) := by
  obtain ⟨front', new, isLast, isNew, time⟩ := csvEntries_concat metadata front
    (.counter trackUuid last value, last)
  have merged' := merged
  rw [ends, isLast] at merged'
  obtain ⟨items', rfl⟩ := mergeItems_tail merged' fun entry old timestamp timed =>
    time ▸ Int.ofNat_lt.2 (before entry old timestamp timed)
  have here : (items' ++ [Sum.inr new])[items'.length]? = some (Sum.inr new) := List.getElem?_concat_length
  have event : items'.length ∈ positions (fun note => note.event.isSome)
      ((items' ++ [Sum.inr new]).map (itemNote layout)) := by
    refine mem_positions.2 ⟨_, by rw [List.getElem?_map, here, Option.map_some], ?_⟩
    rw [(itemNote_new sequence isNew).2]
    simp [CsvPacket.note, known]
  have original : ∃ note ∈ (items' ++ [Sum.inr new]).map (itemNote layout), note.original := by
    obtain ⟨_, searched, _, same⟩ := itemNote_old accepted all sequence old
    cases timed.symm.trans searched
    rw [← (mergeItems_sides merged).1] at old
    obtain ⟨item, there, isEntry⟩ := mem_filterMap.1 old
    obtain rfl := Sum.getLeft?_eq_some_iff.1 isEntry
    exact ⟨_, mem_map_of_mem there, by rw [same]; rfl⟩
  refine lateTail_iff.2 ⟨original, items'.length, event, fun index there => ?_⟩
  obtain ⟨entry, _, found, _⟩ := (mem_positions_original accepted all merged sequence).1 there
  have inside : index < (items' ++ [Sum.inr new]).length := List.getElem?_eq_some_iff.1 found |>.1
  have notLast : index ≠ items'.length := by
    rintro rfl
    cases here.symm.trans found
  rw [length_append, length_singleton] at inside
  omega

end

/-! ### Acceptance -/

/-- The layout that belongs to distinct columns. -/
structure LayoutOf (columns : List Bytes) (samples : List CsvSample) (metadata : TraceMetadata)
    (timestamps : List Nat) (layout : OverlayLayout) : Prop where
  sequence : layout.sequenceId = metadata.overlaySequenceId
  parent : layout.parentUuid = metadata.nextUuid
  tracks : layout.trackUuids = columns.map (trackUuid metadata.nextUuid columns)
  rows : layout.rowCount = samples.length
  times : layout.timestamps = timestamps

section

variable {columns : List Bytes} {samples : List CsvSample} {metadata : TraceMetadata} {timestamps : List Nat}
  {groupName trackPrefix unitName : Bytes}

variable (groupName trackPrefix unitName) in
/-- Samples in the range of the trace get an overlay. -/
theorem buildOverlay_eq (someSample : samples ≠ []) (distinct : columns.Nodup)
    (mapped : mapSampleTimestamps samples metadata.offsetNs = some timestamps)
    (range : ∀ timestampNs ∈ timestamps, metadata.traceMinNs ≤ timestampNs ∧
      timestampNs ≤ metadata.traceMaxNs) :
    ∃ startNs layout, startNs ∈ timestamps ∧ (∀ timestampNs ∈ timestamps, startNs ≤ timestampNs) ∧
      LayoutOf columns samples metadata timestamps layout ∧
      buildOverlay columns samples metadata groupName trackPrefix unitName = some (csvEntries metadata
        (csvPackets columns samples metadata groupName trackPrefix unitName timestamps startNs),
        layout) := by
  have rows : timestamps.length = samples.length := (mapM_eq_some_iff_forall₂.1 mapped).length_eq.symm
  have someTime : timestamps ≠ [] := by
    rintro rfl
    exact someSample (length_eq_zero_iff.1 rows.symm)
  obtain ⟨mappedMin, isMin⟩ := Option.ne_none_iff_exists'.1 (mt List.min?_eq_none_iff.1 someTime)
  obtain ⟨mappedMax, isMax⟩ := Option.ne_none_iff_exists'.1 (mt List.max?_eq_none_iff.1 someTime)
  obtain ⟨minThere, below⟩ := List.min?_eq_some_iff.1 isMin
  obtain ⟨maxThere, _⟩ := List.max?_eq_some_iff.1 isMax
  have valid : validateOverlayRange metadata mappedMin mappedMax :=
    decide_eq_true ⟨(range mappedMax maxThere).1, (range mappedMin minThere).2⟩
  refine ⟨mappedMin, ⟨metadata.overlaySequenceId, metadata.nextUuid,
      columns.dedup.map (trackUuid metadata.nextUuid columns), samples.length, mappedMin,
        mappedMax, timestamps⟩,
    minThere, below, ⟨rfl, rfl, ?_, rfl, rfl⟩, ?_⟩
  · dsimp only
    rw [distinct.dedup]
  · rw [buildOverlay, mapped, bind_some, isMin, bind_some, isMax, bind_some, if_pos valid]

variable {zlib : Zlib} {depth : Nat} {trace : Bytes} {entries : List (Bytes × Bytes)}
  {items : List MergedItem} {layout : OverlayLayout} {startNs : Nat}
  (accepted : analyzeTrace zlib (depth + 1) trace = some metadata)
  (all : iterTracePacketEntries trace = some entries)
  (merged : mergeItems entries (csvEntries metadata (csvPackets columns samples metadata groupName
    trackPrefix unitName timestamps startNs)) = some items)
  (isLayout : LayoutOf columns samples metadata timestamps layout)

include accepted all merged isLayout

/-- The check sees all descriptors. -/
theorem seen_descriptors : (items.map (itemNote layout)).flatMap PacketNote.descriptors =
    metadata.nextUuid :: columns.map (trackUuid metadata.nextUuid columns) := by
  rw [notes_flatMap accepted all merged isLayout.sequence fun _ => rfl, ← csvPackets_describes]
  refine flatMap_congr fun packet made => ?_
  have known : ∀ uuid ∈ packet.1.describes, uuid ∈ layout.parentUuid :: layout.trackUuids := by
    intro uuid there
    rw [isLayout.parent, isLayout.tracks, ← csvPackets_describes]
    exact mem_flatMap.2 ⟨packet, made, there⟩
  obtain ⟨packet, time⟩ := packet
  cases packet with
  | descriptor uuid name parentUuid unitName first =>
      simpa [CsvPacket.note, CsvPacket.describes] using known uuid mem_cons_self
  | counter trackUuid timestampNs value => rfl

/-- The check sees the rows of a column as the events on its track. -/
theorem seen_events (distinct : columns.Nodup) (full : ∀ sample ∈ samples, sample.2.length = columns.length)
    {column : Bytes} (member : column ∈ columns) :
    (((items.map (itemNote layout)).filterMap PacketNote.event).filter fun event =>
      event.1 == trackUuid metadata.nextUuid columns column) =
      (columnRows columns samples timestamps column).map fun row =>
        (trackUuid metadata.nextUuid columns column, row.1, some metadata.primaryClockId,
        .double row.2) := by
  rw [filterMap_eq_flatMap_toList, filter_flatMap,
    notes_flatMap accepted all merged isLayout.sequence fun _ => rfl]
  refine Eq.trans (flatMap_congr fun packet _ => ?_) (csvPackets_onTrack distinct full member
    fun timestampNs value => (trackUuid metadata.nextUuid columns column, timestampNs,
      some metadata.primaryClockId,
      CounterValue.double value))
  have known : trackUuid metadata.nextUuid columns column ∈ layout.trackUuids :=
    isLayout.tracks ▸ mem_map_of_mem member
  obtain ⟨packet, time⟩ := packet
  cases packet with
  | descriptor uuid name parentUuid unitName first => rfl
  | counter track timestampNs value =>
      by_cases same : track = trackUuid metadata.nextUuid columns column
      · subst same
        simp [CsvPacket.note, CsvPacket.onTrack, known]
      · by_cases there : track ∈ layout.trackUuids <;> simp [CsvPacket.note, CsvPacket.onTrack, there, same]

/-- The check passes exactly if the events are no late tail. -/
theorem verifyOverlay_iff (reads : iterTracePackets (items.map itemRoot).flatten =
      some (items.map itemPacket))
    (distinct : columns.Nodup) (full : ∀ sample ∈ samples, sample.2.length = columns.length)
    (rows : timestamps.length = samples.length) :
    (∃ counts, verifyOverlay (items.map itemRoot).flatten layout metadata.primaryClockId = some counts) ↔
      ¬lateTail (items.map (itemNote layout)) := by
  have seen : ∀ uuid ∈ layout.parentUuid :: layout.trackUuids,
      uuid ∈ (items.map (itemNote layout)).flatMap PacketNote.descriptors := by
    rw [seen_descriptors accepted all merged isLayout, isLayout.parent, isLayout.tracks]
    exact fun _ there => there
  have verified : ∀ uuid ∈ layout.trackUuids, trackVerified layout metadata.primaryClockId
      ((items.map (itemNote layout)).filterMap PacketNote.event) uuid := by
    intro uuid there
    rw [isLayout.tracks] at there
    obtain ⟨column, member, rfl⟩ := mem_map.1 there
    have times := columnRows_fst full rows member
    rw [trackVerified, seen_events accepted all merged isLayout distinct full member]
    refine decide_eq_true ⟨?_, ?_, ?_⟩
    · rw [isLayout.rows, ← rows, length_map]
      exact length_map _ ▸ congrArg List.length times
    · intro event inside
      obtain ⟨row, _, rfl⟩ := mem_map.1 inside
      rfl
    · rw [isLayout.times, map_map]
      exact times
  rw [verifyOverlay, reads, bind_some, mapM_verifyPacket accepted all merged isLayout.sequence, bind_some]
  dsimp only
  rw [if_neg (not_not_intro seen), if_neg (not_not_intro verified)]
  cases lateTail (items.map (itemNote layout)) <;> simp

/-- The events are no late tail exactly if there are none, there is nothing to be behind of, or some
packet is not before the last of them. -/
theorem lateTail_items_iff (increasing : timestamps.Pairwise (· < ·))
    (full : ∀ sample ∈ samples, sample.2.length = columns.length) (rows : timestamps.length = samples.length)
    (start : startNs ∈ timestamps) :
    ¬lateTail (items.map (itemNote layout)) ↔
      columns = [] ∨ (∀ packet ∈ entries.map Prod.snd, parsePacketTimestamp packet = some none) ∨
        Covered (entries.map Prod.snd) timestamps := by
  constructor
  · intro onTime
    by_contra neither
    obtain ⟨someColumn, timed, notCovered⟩ := by simpa only [not_or] using neither
    rw [forall_mem_map] at timed
    push Not at timed
    obtain ⟨entry, old, timed⟩ := timed
    obtain ⟨timestamp, searched, _⟩ := itemNote_old accepted all isLayout.sequence old
    obtain ⟨timestamp, rfl⟩ := Option.ne_none_iff_exists'.1 fun untimed => timed (untimed ▸ searched)
    obtain ⟨front, column, value, last, member, above, ends⟩ :=
      csvPackets_last metadata groupName trackPrefix
      unitName startNs increasing rows full someColumn (ne_nil_of_mem start)
    refine onTime (lateTail_of_behind accepted all merged isLayout.sequence ends
      (isLayout.tracks ▸ mem_map_of_mem member) old searched fun entry old timestamp timed => ?_)
    by_contra notBefore
    exact notCovered ⟨entry.2, mem_map_of_mem old, timestamp, timed, fun timestampNs there =>
      (above timestampNs there).trans (not_lt.1 notBefore)⟩
  · rintro (rfl | untimed | ⟨_, there, last, timed, covers⟩)
    · exact not_lateTail_of_no_tracks accepted all merged isLayout.sequence isLayout.tracks
    · exact not_lateTail_of_untimed accepted all merged isLayout.sequence (forall_mem_map.1 untimed)
    · obtain ⟨entry, old, rfl⟩ := mem_map.1 there
      refine not_lateTail_of_covered accepted all merged isLayout.sequence old timed fun packet made => ?_
      obtain time | time := csvPackets_time made
      · exact time ▸ covers startNs start
      · exact covers packet.2 time

omit isLayout in
/-- In the merged trace the track of a column is described once. -/
theorem descriptors_once (distinct : columns.Nodup)
    (sorted : (csvPackets columns samples metadata groupName trackPrefix unitName timestamps
      startNs).Pairwise
      fun one two => one.2 ≤ two.2) {column : Bytes} (member : column ∈ columns) :
    ((items.flatMap (itemPackets zlib depth)).flatMap trackDescriptors).count
      (trackUuid metadata.nextUuid columns column) = 1 := by
  obtain ⟨_, all', _, each⟩ := accepted_entries accepted
  cases all.symm.trans all'
  have old : ∀ entry ∈ entries, ∀ packet ∈ entryPackets zlib depth entry,
      ((trackDescriptors packet).filter fun uuid => uuid == trackUuid metadata.nextUuid columns column) =
        [] := by
    intro entry there packet inside
    refine filter_eq_nil_iff.2 fun uuid described => ?_
    have below := trackDescriptors_old ((each entry there).2 packet inside) uuid described
    have above := lt_trackUuid metadata.nextUuid columns column
    simpa using Nat.ne_of_lt (below.trans above)
  have distinctTracks : (metadata.nextUuid :: columns.map (trackUuid metadata.nextUuid columns)).Nodup := by
    refine nodup_cons.2 ⟨fun there => ?_, distinct.map_on fun one isOne two isTwo =>
      trackUuid_injective isOne isTwo⟩
    obtain ⟨column, _, same⟩ := mem_map.1 there
    exact (lt_trackUuid metadata.nextUuid columns column).ne same.symm
  rw [← insertionSort_csvEntries sorted] at merged
  rw [count_eq_length_filter, filter_flatMap, merged_flatMap merged old,
    insertionSort_csvEntries sorted,
    csvEntries_flatMap fun packet => (trackDescriptors packet).filter fun uuid =>
      uuid == trackUuid metadata.nextUuid columns column]
  simp only [CsvPacket.trackDescriptors_bytes]
  rw [← filter_flatMap, csvPackets_describes, ← count_eq_length_filter]
  exact count_eq_one_of_mem distinctTracks (mem_cons_of_mem _ (mem_map_of_mem member))

omit accepted all isLayout in
/-- In the merged trace the track of a column has the rows of the column exactly if the old packets have
nothing on it. -/
theorem counterValues_iff (distinct : columns.Nodup)
    (full : ∀ sample ∈ samples, sample.2.length = columns.length)
    (sorted : (csvPackets columns samples metadata groupName trackPrefix unitName timestamps
      startNs).Pairwise
      fun one two => one.2 ≤ two.2) {column : Bytes} (member : column ∈ columns) :
    ((items.flatMap (itemPackets zlib depth)).flatMap
      (counterValues (trackUuid metadata.nextUuid columns column)) =
      (columnRows columns samples timestamps column).map fun row => (some row.1, .double row.2)) ↔
      ∀ packet ∈ entries.flatMap (entryPackets zlib depth),
        counterValues (trackUuid metadata.nextUuid columns column) packet = [] := by
  rw [← insertionSort_csvEntries sorted] at merged
  rw [← merged_flatMap_iff merged, insertionSort_csvEntries sorted, csvEntries_flatMap]
  simp only [CsvPacket.counterValues_bytes]
  rw [csvPackets_onTrack distinct full member]

end

/-- The overlay is built, merged and verified, and in the merged trace the track of each column is
described once and has the column's values at the times of the samples. -/
def OverlayPlaced (zlib : Zlib) (depth : Nat) (trace : Bytes) (metadata : TraceMetadata)
    (columns : List Bytes)
    (samples : List CsvSample) (timestamps : List Nat) (groupName trackPrefix unitName : Bytes) : Prop :=
  ∃ overlay layout merged counts packets,
    buildOverlay columns samples metadata groupName trackPrefix unitName = some (overlay, layout) ∧
    mergeOverlayPackets trace overlay = some merged ∧
    verifyOverlay merged layout metadata.primaryClockId = some counts ∧
    iterTracePacketsRecursive zlib depth merged = some packets ∧
    ∀ column ∈ columns,
      (packets.flatMap trackDescriptors).count (trackUuid metadata.nextUuid columns column) = 1 ∧
      packets.flatMap (counterValues (trackUuid metadata.nextUuid columns column)) =
        (columnRows columns samples timestamps column).map fun row => (some row.1, .double row.2)

/-- Samples inside the range of a trace are placed exactly if there is no column, no outer packet has a
timestamp, or some outer packet is not before any of them, and no packet has values on the new tracks. In
a trace that is cut short, nothing may be appended. -/
theorem csv_overlay_accepted_iff {zlib : Zlib} {depth : Nat} {trace : Bytes} {metadata : TraceMetadata}
    {columns : List Bytes} {samples : List CsvSample} {timestamps : List Nat} {outer packets : List Bytes}
    (groupName trackPrefix unitName : Bytes) (accepted : analyzeTrace zlib depth trace = some metadata)
    (outside : iterTracePackets trace = some outer)
    (inside : iterTracePacketsRecursive zlib depth trace = some packets) (someSample : samples ≠ [])
    (distinct : columns.Nodup) (full : ∀ sample ∈ samples, sample.2.length = columns.length)
    (mapped : mapSampleTimestamps samples metadata.offsetNs = some timestamps)
    (increasing : timestamps.Pairwise (· < ·))
    (range : ∀ timestampNs ∈ timestamps, metadata.traceMinNs ≤ timestampNs ∧
      timestampNs ≤ metadata.traceMaxNs) (ends : wholePackets trace ∨ Covered outer timestamps) :
    OverlayPlaced zlib depth trace metadata columns samples timestamps groupName trackPrefix unitName ↔
      (columns = [] ∨ (∀ packet ∈ outer, parsePacketTimestamp packet = some none) ∨
      Covered outer timestamps) ∧
      ∀ packet ∈ packets, ∀ column ∈ columns,
        counterValues (trackUuid metadata.nextUuid columns column) packet = [] := by
  cases depth with
  | zero => cases accepted
  | succ depth =>
      obtain ⟨startNs, layout, start, first, isLayout, built⟩ :=
        buildOverlay_eq groupName trackPrefix unitName someSample distinct
        mapped range
      have rows : timestamps.length = samples.length := (mapM_eq_some_iff_forall₂.1 mapped).length_eq.symm
      have sorted : (csvPackets columns samples metadata groupName trackPrefix unitName timestamps
        startNs).Pairwise fun one two => one.2 ≤ two.2 := csvPackets_sorted increasing rows first
      obtain ⟨entries, all, inside', _⟩ := accepted_entries accepted
      cases inside.symm.trans inside'
      cases outside.symm.trans (readAll_withSpan isReader_readPacket all).2.2
      have covers : Covered (entries.map Prod.snd) timestamps → ∃ entry ∈ entries, ∃ last,
          parsePacketTimestamp entry.2 = some (some last) ∧
            ∀ new ∈ csvEntries metadata (csvPackets columns samples
            metadata groupName trackPrefix unitName timestamps startNs), new.sortTimestampNs ≤ last := by
        rintro ⟨_, there, last, timed, above⟩
        obtain ⟨entry, old, rfl⟩ := mem_map.1 there
        refine ⟨entry, old, last, timed, fun new fresh => ?_⟩
        obtain ⟨packet, made, _, time, _⟩ := mem_csvEntries fresh
        obtain atStart | atSample := csvPackets_time made
        · exact time ▸ atStart ▸ Int.ofNat_le.2 (above startNs start)
        · exact time ▸ Int.ofNat_le.2 (above packet.2 atSample)
      obtain ⟨items, merged, mergedBytes, reads, nested⟩ :=
        merge_accepted accepted all (ends.imp_right fun covered => .inr (covers covered))
          newPackets_csvEntries
      rw [insertionSort_csvEntries sorted] at merged
      have late := lateTail_items_iff accepted all merged isLayout increasing full rows start
      have verified := verifyOverlay_iff accepted all merged isLayout reads distinct full rows
      rw [late] at verified
      constructor
      · rintro ⟨_, _, _, counts, _, built', mergedBytes', passes, nested', each⟩
        cases built.symm.trans built'
        cases mergedBytes.symm.trans mergedBytes'
        cases nested.symm.trans nested'
        refine ⟨verified.1 ⟨counts, passes⟩, fun packet there column member => ?_⟩
        exact (counterValues_iff merged distinct full sorted member).1 (each column member).2 packet there
      · rintro ⟨onTime, nothing⟩
        obtain ⟨counts, passes⟩ := verified.2 onTime
        refine ⟨_, layout, _, counts, _, built, mergedBytes, passes, nested, fun column member =>
          ⟨descriptors_once accepted all merged distinct sorted member, ?_⟩⟩
        exact (counterValues_iff merged distinct full sorted member).2 fun packet there =>
          nothing packet there column member

/-- A trace that begins at the time 100 and ends at 2000000, with its last packet compressed or not. -/
def rangeTrace (compressed : Bool) : Bytes :=
  let last := encodeLenField 1 (encodeVarField 8 2000000)
  encodeLenField 1 clockPacket ++ encodeLenField 1 (encodeVarField 8 100) ++
    if compressed then encodeLenField 1 (encodeLenField compressedPacketsField
      (Zlib.stored.deflate .zlib last)) else last

/-- One value, one millisecond after the epoch. -/
def oneSample : CsvSample := (1, [⟨[0, 0, 0, 0, 0, 0, 0xf0, 0x3f], rfl⟩])

/-- A sample between two outer packets is placed. -/
theorem csv_overlay_accepted_outer :
    ∃ metadata, analyzeTrace .stored 2 (rangeTrace false) = some metadata ∧
      OverlayPlaced .stored 2 (rangeTrace false) metadata [[0x61]] [oneSample] [999500] [] [] [] := by
  generalize isTrace : rangeTrace false = trace
  obtain ⟨metadata, accepted, outer, outside, packets, inside, mapped, low, high, whole, covered, nothing⟩ :
      ∃ metadata ∈ analyzeTrace .stored 2 trace, ∃ outer ∈ iterTracePackets trace,
        ∃ packets ∈ iterTracePacketsRecursive .stored 2 trace,
        mapSampleTimestamps [oneSample] metadata.offsetNs = some [999500] ∧
        metadata.traceMinNs ≤ 999500 ∧ 999500 ≤ metadata.traceMaxNs ∧ wholePackets trace ∧
        outer.any (fun packet => parsePacketTimestamp packet == some (some 2000000)) ∧
        packets.all fun packet => counterValues (trackUuid metadata.nextUuid [[0x61]] [0x61])
          packet = [] := by
    rw [← isTrace]
    decide +kernel
  obtain ⟨packet, there, timed⟩ := any_eq_true.1 covered
  refine ⟨metadata, accepted, (csv_overlay_accepted_iff [] [] [] accepted outside inside (by simp) (by simp)
    (by simp [oneSample]) mapped (by simp) (by simpa using ⟨low, high⟩) (Or.inl whole)).2
    ⟨Or.inr (Or.inr ⟨packet, there, 2000000, by simpa using timed, by simp⟩),
      fun packet there column member => ?_⟩⟩
  cases mem_singleton.1 member
  simpa using all_eq_true.1 nothing packet there

/-- A sample behind the last outer packet is inside the range of the trace, and yet the check rejects it. -/
theorem csv_overlay_rejected :
    ∃ metadata, analyzeTrace .stored 2 (rangeTrace true) = some metadata ∧ wholePackets (rangeTrace true) ∧
      mapSampleTimestamps [oneSample] metadata.offsetNs = some [999500] ∧
      metadata.traceMinNs ≤ 999500 ∧ 999500 ≤ metadata.traceMaxNs ∧
      ¬OverlayPlaced .stored 2 (rangeTrace true) metadata [[0x61]] [oneSample] [999500] [] [] [] := by
  generalize isTrace : rangeTrace true = trace
  obtain ⟨metadata, accepted, ⟨overlay, layout⟩, built, merged, mergedBytes, whole, mapped, low,
    high, rejects⟩ :
      ∃ metadata ∈ analyzeTrace .stored 2 trace,
        ∃ built ∈ buildOverlay [[0x61]] [oneSample] metadata [] [] [],
        ∃ merged ∈ mergeOverlayPackets trace built.1, wholePackets trace ∧
          mapSampleTimestamps [oneSample] metadata.offsetNs = some [999500] ∧
          metadata.traceMinNs ≤ 999500 ∧ 999500 ≤ metadata.traceMaxNs ∧
          verifyOverlay merged built.2 metadata.primaryClockId = none := by
    rw [← isTrace]
    decide +kernel
  refine ⟨metadata, accepted, whole, mapped, low, high, ?_⟩
  rintro ⟨_, _, _, counts, _, built', mergedBytes', passes, _⟩
  cases built.symm.trans built'
  cases mergedBytes.symm.trans mergedBytes'
  cases rejects.symm.trans passes

end MallocHook
