/-
Module: MallocHook.Proofs.FreshTracks
Purpose: The identifiers that `build_tracks` hands out: consecutive and new, but nothing keeps them
  below the width of their fields.
Trusted boundary: none
Main exports: GroupPieces.describes, build_tracks_ids_iff
-/
import Mathlib.Data.List.Range
import MallocHook.Proofs.OverlayOrder

namespace MallocHook

open WireFormat List Option

/-! ### The uuids that are assigned -/

/-- The uuids of the tracks that the new packets describe. -/
def assignedUuids (packets : List Placed) : List Nat := packets.flatMap fun placed => placed.packet.describes

/-- The tracks of all groups: each group has one, each of its lifetimes has one, and the peaks have one. -/
def trackCount {φ ι : Type*} (timings : List Lifetime) (snaps : List (PeakSnapshot φ))
    (groups : List (TrackGroup ι)) : Nat :=
  (groups.map fun group => 1 + (usableTimings timings group.2).length).sum +
    if groups.isEmpty || snaps.isEmpty then 0 else 1

/-- The track that a piece describes. -/
def Piece.describes : Piece → List Nat
  | .track uuid _ _ _ _ => [uuid]
  | .slice _ _ _ _ => []

theorem assignedUuids_placePieces (traceMinNs order : Nat) (pieces : List Piece) :
    assignedUuids (placePieces traceMinNs order pieces) = pieces.flatMap Piece.describes := by
  fun_induction placePieces traceMinNs order pieces with
  | case1 => rfl
  | case2 _ _ _ _ _ _ _ ih | case3 _ _ _ _ _ _ ih =>
      simpa [assignedUuids, OverlayPacket.describes, Piece.describes] using ih

section

variable {φ ι : Type*} {format : OverlayFormat φ ι}

theorem peaks_describes {uuid : Nat} {snaps : List (PeakSnapshot φ)} {pieces : List Piece}
    (each : List.Forall₂ (PeakPiece format uuid) snaps pieces) : pieces.flatMap Piece.describes = [] := by
  induction each with
  | nil => rfl
  | cons peak _ ih =>
      obtain ⟨_, rfl⟩ := peak
      exact ih

theorem AllocationPieces.describes {parent rank : Nat} {hashMap : List (Nat × ι)} {usable : List Lifetime}
    {pieces : List Piece} (each : AllocationPieces format parent hashMap rank usable pieces) :
    pieces.flatMap Piece.describes = List.range' (parent + 1 + rank) usable.length := by
  induction each with
  | nil => rfl
  | cons _ _ _ ih => simp [Piece.describes, ih, range'_succ, Nat.add_assoc]

/-- All groups: one block of consecutive uuids. -/
theorem GroupPieces.describes {timings : List Lifetime} {last next : Nat} {snaps : List (PeakSnapshot φ)}
    {groups : List (TrackGroup ι)} {pieces : List Piece}
    (made : GroupPieces format timings last next snaps groups pieces) :
    (pieces.flatMap Piece.describes).Perm (List.range' next (trackCount timings snaps groups)) := by
  induction made with
  | nil => exact .nil
  | @cons next peak snaps group later peaks allocations rest isPeak eachPeak eachAllocation _ ih =>
      have peakRange : (peakTrack next peak snaps).flatMap Piece.describes =
          List.range' peak (if snaps.isEmpty then 0 else 1) := by
        unfold peakTrack
        split <;> rfl
      have count : trackCount timings snaps (group :: later) = (usableTimings timings group.2).length +
          ((if snaps.isEmpty then 0 else 1) + trackCount timings ([] : List (PeakSnapshot φ))
            later) + 1 := by
        simp only [trackCount, map_cons, sum_cons, isEmpty_cons, isEmpty_nil, Bool.false_or,
          Bool.or_true, if_true]
        omega
      rw [count, range'_succ, ← range'_append_1, ← range'_append_1, ← isPeak]
      simp only [flatMap_cons, flatMap_append, peakRange, peaks_describes eachPeak, eachAllocation.describes,
        append_nil, Nat.add_zero]
      exact ((perm_append_comm_assoc _ _ _).trans ((ih.append_left _).append_left _)).cons _

end

/-! ### Fresh identifiers -/

/-- New identifiers of tracks and of a sequence: they fit in their fields, and no packet has them. -/
structure FreshIds (packets : List Bytes) (sequenceId : Nat) (uuids : List Nat) : Prop where
  distinct : uuids.Nodup
  fits : ∀ uuid ∈ uuids, uuid < 2 ^ 64
  nonzero : ∀ uuid ∈ uuids, uuid ≠ 0
  fresh : ∀ uuid ∈ uuids, ∀ packet ∈ packets, uuid ∉ describedTracks packet
  sequenceFits : sequenceId < 2 ^ 32
  sequenceFresh : ∀ packet ∈ packets, ¬onSequence sequenceId packet

/-- No descriptor in the packet has more than one uuid. -/
def SingleUuids (packet : Bytes) : Prop :=
  ∀ field ∈ (iterFields packet).getD [], ∀ payload, lenOf 60 field = some payload →
    (((iterFields payload).getD []).filterMap (varintOf 1)).length ≤ 1

/-- Of an accepted trace, the descriptors with one uuid are below the new ones. -/
theorem describedTracks_lt {metadata : TraceMetadata} {packet : Bytes} (below : PacketBelow metadata packet)
    (single : SingleUuids packet) : ∀ uuid ∈ describedTracks packet, uuid < metadata.nextUuid := by
  obtain ⟨fields, all, each⟩ := below
  intro uuid member
  rw [describedTracks, packetValues, all, getD_some] at member
  obtain ⟨field, there, member⟩ := mem_flatMap.1 member
  have few := single field (by rwa [all, getD_some])
  cases isLen : lenOf 60 field with
  | none =>
      rw [isLen] at member
      cases member
  | some payload =>
      rw [isLen, elim_some] at member
      obtain ⟨first, parsed, known⟩ := (each field there).2 payload isLen
      replace few := few payload isLen
      cases read : iterFields payload with
      | none =>
          rw [read] at member
          cases member
      | some message =>
          rw [read, getD_some] at member few
          obtain ⟨only, isOnly⟩ := length_eq_one_iff.1 (Nat.le_antisymm few (length_pos_of_mem member))
          rw [isOnly, mem_singleton] at member
          have isFirst : message.findSome? (varintOf 1) = some uuid := by
            rw [← List.head?_filterMap, isOnly, member]
            rfl
          have parsed' : parseTrackUuid payload = _ := firstField_eq read
          cases parsed.symm.trans parsed'
          exact known uuid isFirst

/-- The identifiers are fresh exactly if every sequence id of the trace is below `2 ^ 32 - 1` and, where
there is a group, every uuid that comes first in its descriptor leaves room for the new tracks below `2 ^
64`, and every other uuid keeps out of that room. -/
theorem build_tracks_ids_iff {φ ι : Type*} {format : OverlayFormat φ ι} {zlib : Zlib} {depth : Nat}
    {trace out : Bytes} {groups : List (TrackGroup ι)} {stripMarkers : Bool}
    {stats : List (Bytes × Nat × Nat)} {stripped : Nat} {metadata : TraceMetadata}
    {timings : List Lifetime} {snaps : List (PeakSnapshot φ)}
    (accepted : analyzeTrace zlib depth trace = some metadata)
    (timed : extractTimings zlib depth trace = some timings)
    (peaked : extractPeakSnapshots format zlib depth trace = some snaps)
    (built : buildTracks format zlib depth trace groups stripMarkers = some (out, stats, stripped)) :
    ∃ packets overlay, iterTracePacketsRecursive zlib depth trace = some packets ∧
      addGroups format metadata.traceMinNs timings snaps groups
      { nextUuid := metadata.nextUuid } = some overlay ∧
      (FreshIds packets metadata.overlaySequenceId (assignedUuids overlay.packets) ↔
        (∀ packet ∈ packets, ∀ id ∈ packetSequences packet, id < 2 ^ 32 - 1) ∧
        (groups ≠ [] →
          (∀ first ∈ 0 :: packets.flatMap trackDescriptors,
            first + trackCount timings snaps groups < 2 ^ 64) ∧
          ∀ packet ∈ packets, ∀ uuid ∈ describedTracks packet,
            (∃ first ∈ 0 :: packets.flatMap trackDescriptors, uuid ≤ first) ∨
            ∀ first ∈ 0 :: packets.flatMap trackDescriptors,
              first + trackCount timings snaps groups < uuid)) ∧
      ∀ packet ∈ packets, SingleUuids packet → ∀ uuid ∈ describedTracks packet,
        uuid < metadata.nextUuid := by
  obtain ⟨kept, metadata', overlay, keeps, analyzed, added, _⟩ := buildTracks_cases timed peaked built
  have same : analyzeTrace zlib depth kept = some metadata := by
    split at keeps
    · exact (analyzeTrace_strip keeps).trans accepted
    · cases keeps
      exact accepted
  cases same.symm.trans analyzed
  obtain ⟨packets, reads, below⟩ := analyze_below accepted
  obtain ⟨packets', reads', -, ⟨sequence, ⟨named, highest⟩, isSequence⟩,
    ⟨largest, ⟨known, above⟩, isNext⟩, -⟩ :=
    analyze_ids accepted
  cases reads.symm.trans reads'
  obtain ⟨pieces, made, gains⟩ := addGroups_gains added
  have isPlaced : overlay.packets = placePieces metadata.traceMinNs 0 pieces := gains.packets
  have assigned : (assignedUuids overlay.packets).Perm
    (List.range' metadata.nextUuid (trackCount timings snaps groups)) := by
    rw [isPlaced, assignedUuids_placePieces]
    exact made.describes
  have uuids : ∀ uuid, uuid ∈ assignedUuids overlay.packets ↔
      largest < uuid ∧ uuid ≤ largest + trackCount timings snaps groups := fun uuid => by
    rw [assigned.mem_iff, mem_range'_1, isNext]
    omega
  refine ⟨packets, overlay, reads, added, ?_, fun packet member => describedTracks_lt (below packet member)⟩
  constructor
  · intro fresh
    refine ⟨fun packet member id there => ?_, fun nonempty => ⟨fun first there => ?_, ?_⟩⟩
    · have := highest (mem_cons_of_mem _ (mem_flatMap.2 ⟨packet, member, there⟩))
      have := fresh.sequenceFits
      omega
    · have count : 0 < trackCount timings snaps groups := by
        obtain ⟨group, later, rfl⟩ := exists_cons_of_ne_nil nonempty
        simp only [trackCount, map_cons, sum_cons]
        omega
      have last := fresh.fits (largest + trackCount timings snaps groups) ((uuids _).2 (by omega))
      have := above there
      omega
    · intro packet member uuid described
      have old : ¬(largest < uuid ∧ uuid ≤ largest + trackCount timings snaps groups) :=
        fun isNew => fresh.fresh uuid ((uuids uuid).2 isNew) packet member described
      by_cases small : uuid ≤ largest
      · exact .inl ⟨largest, known, small⟩
      · refine .inr fun first there => ?_
        have := above there
        omega
  · rintro ⟨sequenceFits, fits⟩
    have someGroup : ∀ uuid ∈ assignedUuids overlay.packets, groups ≠ [] := by
      rintro uuid member rfl
      have := (uuids uuid).1 member
      simp [trackCount] at this
      omega
    exact
      { distinct := assigned.nodup_iff.2 nodup_range'
        fits := fun uuid member => by
          have := (fits (someGroup uuid member)).1 largest known
          have := (uuids uuid).1 member
          omega
        nonzero := fun uuid member => by
          have := (uuids uuid).1 member
          omega
        fresh := fun uuid member packet there described => by
          have := (uuids uuid).1 member
          rcases (fits (someGroup uuid member)).2 packet there uuid
            described with ⟨first, there, small⟩ | large
          · have := above there
            omega
          · have := large largest known
            omega
        sequenceFits := by
          rcases mem_cons.1 named with zero | there
          · omega
          · obtain ⟨packet, member, there⟩ := mem_flatMap.1 there
            have := sequenceFits packet member _ there
            omega
        sequenceFresh := fun packet member => by simp [not_onSequence (below packet member)] }

/-- A packet on a sequence that describes a track. -/
def describedOn (sequenceId uuid : Nat) : Bytes :=
  encodeLenField 1 clockPacket ++
    encodeLenField 1 (encodeVarField 10 sequenceId ++ encodeLenField 60 (encodeVarField 1 uuid))

/-- The track 7 and the sequence 3 are taken. -/
theorem build_tracks_ids_small :
    ∃ metadata packets overlay, analyzeTrace .stored 1 (describedOn 3 7) = some metadata ∧
      iterTracePacketsRecursive .stored 1 (describedOn 3 7) = some packets ∧
      addGroups plainFormat metadata.traceMinNs [] [] [([], [])]
      { nextUuid := metadata.nextUuid } = some overlay ∧
      metadata.overlaySequenceId = 4 ∧ assignedUuids overlay.packets = [8] ∧
      FreshIds packets metadata.overlaySequenceId (assignedUuids overlay.packets) := by
  generalize isTrace : describedOn 3 7 = trace
  obtain ⟨metadata, accepted, overlay, added, ⟨out, stats, stripped⟩, built, timed, snaps,
    peaked, rfl, sequence,
      assigned⟩ :
      ∃ metadata ∈ analyzeTrace .stored 1 trace,
        ∃ overlay ∈ addGroups plainFormat metadata.traceMinNs [] [] [([], [])]
          { nextUuid := metadata.nextUuid },
        ∃ _ ∈ buildTracks plainFormat .stored 1 trace [([], [])] false,
          extractTimings .stored 1 trace = some [] ∧
        ∃ snaps ∈ extractPeakSnapshots plainFormat .stored 1 trace, snaps = [] ∧
          metadata.overlaySequenceId = 4 ∧ assignedUuids overlay.packets = [8] := by
    rw [← isTrace]
    decide +kernel
  obtain ⟨packets, reads, sequences, firsts, described⟩ :
    ∃ packets ∈ iterTracePacketsRecursive .stored 1 trace,
      packets.flatMap packetSequences = [3] ∧ packets.flatMap trackDescriptors = [7] ∧
      packets.flatMap describedTracks = [7] := by
    rw [← isTrace]
    decide +kernel
  obtain ⟨packets', overlay', reads', added', exactly, _⟩ := build_tracks_ids_iff accepted timed peaked built
  cases reads.symm.trans reads'
  cases added.symm.trans added'
  refine ⟨metadata, packets, overlay, accepted, reads, added, sequence, assigned,
    exactly.2 ⟨?_, fun _ => ⟨?_, ?_⟩⟩⟩
  · intro packet member id there
    have known : id ∈ packets.flatMap packetSequences := mem_flatMap.2 ⟨packet, member, there⟩
    rw [sequences, mem_singleton] at known
    omega
  · rw [firsts]
    decide
  · intro packet member uuid there
    have known : uuid ∈ packets.flatMap describedTracks := mem_flatMap.2 ⟨packet, member, there⟩
    rw [described, mem_singleton] at known
    exact .inl ⟨7, by simp [firsts], known.le⟩

/-- The largest uuid and the largest sequence id are taken: the new ones do not fit in their fields. -/
theorem build_tracks_ids_largest :
    ∃ metadata overlay, analyzeTrace .stored 1 (describedOn (2 ^ 32 - 1) (2 ^ 64 - 1)) = some metadata ∧
      extractTimings .stored 1 (describedOn (2 ^ 32 - 1) (2 ^ 64 - 1)) = some [] ∧
      addGroups plainFormat metadata.traceMinNs [] [] [([], [])]
      { nextUuid := metadata.nextUuid } = some overlay ∧
      (buildTracks plainFormat .stored 1 (describedOn (2 ^ 32 - 1) (2 ^ 64 - 1)) [([], [])] false).isSome ∧
      assignedUuids overlay.packets = [2 ^ 64] ∧ metadata.overlaySequenceId = 2 ^ 32 := by
  generalize isTrace : describedOn (2 ^ 32 - 1) (2 ^ 64 - 1) = trace
  obtain ⟨metadata, accepted, overlay, added, timed, others⟩ : ∃ metadata ∈ analyzeTrace .stored 1 trace,
      ∃ overlay ∈ addGroups plainFormat metadata.traceMinNs [] [] [([], [])]
        { nextUuid := metadata.nextUuid },
        extractTimings .stored 1 trace = some [] ∧
          (buildTracks plainFormat .stored 1 trace [([], [])] false).isSome ∧
          assignedUuids overlay.packets = [2 ^ 64] ∧ metadata.overlaySequenceId = 2 ^ 32 := by
    rw [← isTrace]
    decide +kernel
  exact ⟨metadata, overlay, accepted, timed, added, others⟩

end MallocHook
