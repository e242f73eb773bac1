/-
Module: MallocHook.Proofs.MergeOrder
Purpose: `merge_overlay_packets` is a merge by time that keeps the order of the trace and of the new
  packets.
Trusted boundary: none
Main exports: merge_overlay_packets_spec
-/
import MallocHook.Proofs.OverlayMerge

namespace MallocHook

open WireFormat

instance : Std.Total OverlayPacketEntry.le := ⟨fun one two => by unfold OverlayPacketEntry.le; omega⟩

instance : IsTrans OverlayPacketEntry OverlayPacketEntry.le :=
  ⟨fun one two three => by unfold OverlayPacketEntry.le; omega⟩

/-- The merge returns exactly if every packet can be read up to its timestamp. The entries of the trace
keep their order; the new packets are sorted by time and order; each goes directly before the first packet
that is at its time or behind it, or to the end; and if the timestamps of the trace are in order, so are
those of the result. -/
theorem merge_overlay_packets_spec {trace : Bytes} {entries : List (Bytes × Bytes)}
    (accepted : iterTracePacketEntries trace = some entries) (overlay : List OverlayPacketEntry) :
    ((mergeOverlayPackets trace overlay).isSome ↔ Timestamped entries) ∧
    ∀ out, mergeOverlayPackets trace overlay = some out → ∃ items : List MergedItem,
      out = (items.map itemRoot).flatten ∧
      items.filterMap Sum.getLeft? = entries ∧ (entries.map Prod.fst).flatten = trace ∧
      (items.filterMap Sum.getRight?).Perm overlay ∧
      (items.filterMap Sum.getRight?).Pairwise OverlayPacketEntry.le ∧
      (∀ front new back, items = front ++ .inr new :: back →
        (∀ entry, .inl entry ∈ front → ∀ time ∈ entryTime entry, time < new.sortTimestampNs) ∧
        ∃ others : List OverlayPacketEntry, back = others.map .inr ∨
          ∃ entry rest, back = others.map .inr ++ .inl entry :: rest ∧
            ∃ time ∈ entryTime entry, new.sortTimestampNs ≤ time) ∧
      ((entries.filterMap entryTime).Pairwise (· ≤ ·) →
        (items.filterMap (Sum.elim entryTime fun new => some new.sortTimestampNs)).Pairwise (· ≤ ·)) := by
  rw [mergeOverlayPackets_eq accepted]
  refine ⟨by rw [Option.isSome_map, mergeItems_isSome_iff], fun out returned => ?_⟩
  obtain ⟨items, merged, rfl⟩ := Option.map_eq_some_iff.1 returned
  obtain rfl := eq_timedMerge_of_mergeItems merged
  have sorted := List.pairwise_insertionSort OverlayPacketEntry.le overlay
  have inTime : (overlay.insertionSort OverlayPacketEntry.le).Pairwise fun one two =>
      one.sortTimestampNs ≤ two.sortTimestampNs := sorted.imp fun {one two} below => by
    unfold OverlayPacketEntry.le at below
    omega
  refine ⟨_, rfl, timedMerge_lefts, ?_, ?_, ?_, fun front new back => timedMerge_placed inTime,
    timedMerge_sorted inTime⟩
  · exact (readAll_withSpan isReader_readPacket accepted).1
  · rw [timedMerge_rights]
    exact List.perm_insertionSort _ _
  · rw [timedMerge_rights]
    exact sorted

/-- A packet at time five, one without a timestamp, and one at time ten. -/
def threePackets : Bytes := [0x0a, 2, 0x40, 5] ++ [0x0a, 2, 0x50, 1] ++ [0x0a, 2, 0x40, 10]

/-- Three new packets, of which the last is at the time of the first old one. -/
def threeNew : List OverlayPacketEntry := [⟨[1], 11, 0⟩, ⟨[2], 7, 1⟩, ⟨[3], 5, 2⟩]

theorem merge_overlay_packets_three :
    (mergeOverlayPackets threePackets threeNew).isSome ∧
      mergeOverlayPackets threePackets threeNew =
        some ([3] ++ [0x0a, 2, 0x40, 5] ++ [0x0a, 2, 0x50, 1] ++ [2] ++ [0x0a, 2, 0x40, 10] ++ [1]) := by
  have accepted : iterTracePacketEntries threePackets =
      some [([0x0a, 2, 0x40, 5], [0x40, 5]), ([0x0a, 2, 0x50, 1], [0x50, 1]),
        ([0x0a, 2, 0x40, 10], [0x40, 10])] := by
    decide +kernel
  exact ⟨(merge_overlay_packets_spec accepted threeNew).1.2 (by decide +kernel), by decide +kernel⟩

/-- The root can be read, but the packet in it begins with a group, which `iter_fields` rejects. -/
theorem merge_overlay_packets_group :
    iterTracePacketEntries [0x0a, 1, 0x03] = some [([0x0a, 1, 0x03], [0x03])] ∧
      mergeOverlayPackets [0x0a, 1, 0x03] [] = none := by
  decide +kernel

end MallocHook
