/-
Module: MallocHook.Proofs.OverlayOrder
Purpose: The order of the packets that `build_tracks` adds, also behind a last packet that is cut short.
  It is usable exactly if no slice begins before the earliest packet.
Trusted boundary: none
Main exports: usable_iff, build_tracks_order_iff, slice_before_descriptor
-/
import MallocHook.Proofs.TrackPieces
import MallocHook.Proofs.StripAnalysis

namespace MallocHook

open WireFormat List

/-! ### Usable orders -/

/-- The numbers in a field of the messages with a number. -/
def packetValues (message number : Nat) (packet : Bytes) : List Nat :=
  ((iterFields packet).getD []).flatMap fun field => (lenOf message field).elim [] fun payload =>
    ((iterFields payload).getD []).filterMap (varintOf number)

/-- The tracks that a packet describes. -/
def describedTracks : Bytes → List Nat := packetValues 60 1

/-- The tracks that a packet names as parents. -/
def parentTracks : Bytes → List Nat := packetValues 60 5

/-- The tracks of the events of a packet. -/
def eventTracks : Bytes → List Nat := packetValues 11 11

/-- The packet has a field with this number and value. -/
def hasValue (number value : Nat) (packet : Bytes) : Bool :=
  ((iterFields packet).getD []).any fun field => decide (varintOf number field = some value)

def onSequence (sequenceId : Nat) : Bytes → Bool := hasValue 10 sequenceId

def clearsState : Bytes → Bool := hasValue 13 seqIncrementalStateCleared

/-- The first packet of a sequence clears the incremental state, and no other; what a packet refers to was
described before. -/
structure UsableOrder (packets : List Bytes) : Prop where
  cleared : ∀ first later, packets = first :: later → clearsState first ∧
    ∀ packet ∈ later, ¬clearsState packet
  described : ∀ before packet after, packets = before ++ packet :: after →
    ∀ uuid ∈ eventTracks packet ++ parentTracks packet, ∃ earlier ∈ before, uuid ∈ describedTracks earlier

/-! ### The packets that are added -/

namespace OverlayPacket

/-- The packet clears the incremental state. -/
def isFirst : OverlayPacket → Bool
  | .descriptor _ _ first _ _ _ => first
  | .slice _ _ _ _ => false

/-- The tracks that it describes. -/
def describes : OverlayPacket → List Nat
  | .descriptor uuid _ _ _ _ _ => [uuid]
  | .slice _ _ _ _ => []

/-- The tracks that it refers to. -/
def refersTo : OverlayPacket → List Nat
  | .descriptor _ _ _ parent _ _ => parent.toList
  | .slice trackUuid _ _ _ => [trackUuid]

/-- The message of the packet, and what it is in. -/
def made : OverlayPacket → MadePacket
  | .descriptor uuid name first parent childOrdering siblingOrderRank =>
      .descriptor first ([⟨1, .varint uuid⟩, ⟨2, .len name⟩] ++
        (parent.map fun parent => (⟨5, .varint parent⟩ : WireField)).toList ++
        (childOrdering.map fun ordering => (⟨11, .varint ordering⟩ : WireField)).toList ++
        (siblingOrderRank.map fun rank => (⟨12, .varint rank⟩ : WireField)).toList)
  | .slice trackUuid ts etype name =>
      .event ts ([⟨9, .varint etype⟩, ⟨11, .varint trackUuid⟩] ++
        (name.map fun name => (⟨23, .len name⟩ : WireField)).toList)

/-- The bytes of a packet. -/
def bytes (seq clockId : Nat) (packet : OverlayPacket) : Bytes := packet.made.bytes seq clockId

variable (seq clockId : Nat) (packet : OverlayPacket)

theorem rootBytes_eq : packet.rootBytes seq clockId = encodeLenField 1 (packet.bytes seq clockId) := by
  cases packet with
  | descriptor uuid name first parent childOrdering siblingOrderRank =>
      rw [rootBytes, makeTrackDescriptor, bytes, made, MadePacket.bytes, MadePacket.fields, ← makePacket_eq]
      cases parent <;> cases childOrdering <;> cases siblingOrderRank <;> rfl
  | slice trackUuid ts etype name =>
      rw [rootBytes, makeSlicePacket, bytes, made, MadePacket.bytes, MadePacket.fields, ← makePacket_eq]
      cases name <;> rfl

theorem iterFields_payload : iterFields packet.made.payload = some packet.made.message := by
  refine iterFields_encode ?_
  cases packet with
  | descriptor uuid name first parent childOrdering siblingOrderRank =>
      cases parent <;> cases childOrdering <;> cases siblingOrderRank <;> simp [made, MadePacket.message]
  | slice trackUuid ts etype name => cases name <;> simp [made, MadePacket.message]

theorem onSequence_bytes : onSequence seq (packet.bytes seq clockId) := by
  cases packet <;> simp [onSequence, hasValue, bytes, MadePacket.iterFields_bytes, made,
    MadePacket.fields, packetFields,
    varintOf]

theorem clearsState_bytes : clearsState (packet.bytes seq clockId) = packet.isFirst := by
  cases packet with
  | descriptor uuid name first parent childOrdering siblingOrderRank =>
      cases first <;> simp [clearsState, hasValue, bytes, MadePacket.iterFields_bytes, made,
        MadePacket.fields,
        packetFields, varintOf, isFirst, seqIncrementalStateCleared, seqNeedsIncrementalState]
  | slice trackUuid ts etype name =>
      simp [clearsState, hasValue, bytes, MadePacket.iterFields_bytes, made, MadePacket.fields,
        packetFields, varintOf,
        isFirst, seqIncrementalStateCleared, seqNeedsIncrementalState]

theorem describedTracks_bytes : describedTracks (packet.bytes seq clockId) = packet.describes := by
  rw [describedTracks, packetValues, bytes, MadePacket.flatMap_descriptors, iterFields_payload]
  cases packet with
  | descriptor uuid name first parent childOrdering siblingOrderRank =>
      cases parent <;> cases childOrdering <;> cases siblingOrderRank <;>
        simp [describes, made, MadePacket.message, varintOf]
  | slice trackUuid ts etype name => rfl

theorem refersTo_bytes :
    eventTracks (packet.bytes seq clockId) ++ parentTracks (packet.bytes seq clockId) = packet.refersTo := by
  rw [eventTracks, parentTracks, packetValues, packetValues, bytes, MadePacket.flatMap_events,
    MadePacket.flatMap_descriptors, iterFields_payload]
  cases packet with
  | descriptor uuid name first parent childOrdering siblingOrderRank =>
      cases parent <;> cases childOrdering <;> cases siblingOrderRank <;>
        simp [made, MadePacket.message, varintOf, refersTo]
  | slice trackUuid ts etype name => cases name <;> simp [made, MadePacket.message, varintOf, refersTo]

variable {packet} in
/-- Only a descriptor clears the state. -/
theorem describes_of_isFirst (first : packet.isFirst) : packet.describes ≠ [] := by
  cases packet with
  | descriptor uuid name isFirst parent childOrdering siblingOrderRank => exact cons_ne_nil _ _
  | slice trackUuid ts etype name => cases first

end OverlayPacket

/-! ### Arranged packets -/

/-- The order of the sort keys. -/
def Placed.le (one two : Placed) : Prop := one.ts < two.ts ∨ one.ts = two.ts ∧ one.order ≤ two.order

instance : DecidableRel Placed.le := fun _ _ => inferInstanceAs (Decidable (_ ∨ _))

/-- The entries of placed packets are compared in the same way. -/
theorem Placed.entry_le (sequenceId clockId : Nat) (one two : Placed) :
    (one.entry sequenceId clockId).le (two.entry sequenceId clockId) ↔ one.le two := by
  simp only [OverlayPacketEntry.le, Placed.le, Placed.entry]
  omega

instance : Std.Total Placed.le := ⟨fun one two => by unfold Placed.le; omega⟩

instance : IsTrans Placed Placed.le := ⟨fun one two three => by unfold Placed.le; omega⟩

/-- `UsableOrder`, before the packets are encoded. -/
structure PlacedUsable (sorted : List Placed) : Prop where
  cleared : ∀ first later, sorted = first :: later →
    first.packet.isFirst ∧ ∀ placed ∈ later, ¬placed.packet.isFirst
  described : ∀ before placed after, sorted = before ++ placed :: after →
    ∀ uuid ∈ placed.packet.refersTo, ∃ earlier ∈ before, uuid ∈ earlier.packet.describes

theorem usableOrder_iff (seq clockId : Nat) (sorted : List Placed) :
    UsableOrder (sorted.map fun placed => placed.packet.bytes seq clockId) ↔ PlacedUsable sorted := by
  constructor
  · intro usable
    constructor
    · rintro first later rfl
      obtain ⟨clears, others⟩ := usable.cleared _ _ rfl
      refine ⟨by rwa [OverlayPacket.clearsState_bytes] at clears, fun placed member => ?_⟩
      have other := others _ (mem_map_of_mem member)
      rwa [OverlayPacket.clearsState_bytes] at other
    · rintro before placed after rfl uuid refers
      rw [← placed.packet.refersTo_bytes seq clockId] at refers
      obtain ⟨_, member, describes⟩ := usable.described _ _ _ (by rw [map_append, map_cons]) uuid refers
      obtain ⟨earlier, there, rfl⟩ := mem_map.1 member
      rw [OverlayPacket.describedTracks_bytes] at describes
      exact ⟨earlier, there, describes⟩
  · intro usable
    constructor
    · intro first later same
      obtain ⟨first, later, rfl, rfl, rfl⟩ := map_eq_cons_iff.1 same
      obtain ⟨clears, others⟩ := usable.cleared _ _ rfl
      refine ⟨by rwa [OverlayPacket.clearsState_bytes], fun packet member => ?_⟩
      obtain ⟨placed, there, rfl⟩ := mem_map.1 member
      rw [OverlayPacket.clearsState_bytes]
      exact others placed there
    · intro before packet after same uuid refers
      obtain ⟨before, rest, rfl, rfl, sameRest⟩ := map_eq_append_iff.1 same
      obtain ⟨placed, after, rfl, rfl, rfl⟩ := map_eq_cons_iff.1 sameRest
      rw [OverlayPacket.refersTo_bytes] at refers
      obtain ⟨earlier, there, describes⟩ := usable.described _ _ _ rfl uuid refers
      refine ⟨_, mem_map_of_mem there, ?_⟩
      rwa [OverlayPacket.describedTracks_bytes]

/-- The track is described at the earliest timestamp. -/
def Known (traceMinNs : Nat) (packets : List Placed) (uuid : Nat) : Prop :=
  ∃ placed ∈ packets, uuid ∈ placed.packet.describes ∧ placed.ts = traceMinNs

/-- Packets in the order they were added: the first clears the state, descriptors are at the earliest
timestamp, and what is referred to is known. -/
inductive Arranged (traceMinNs : Nat) : List Placed → Prop
  | nil : Arranged traceMinNs []
  | add {packets : List Placed} {packet : OverlayPacket} {ts : Nat} : Arranged traceMinNs packets →
      (packet.isFirst = true ↔ packets = []) → (packet.describes ≠ [] → ts = traceMinNs) →
      (∀ uuid ∈ packet.refersTo, Known traceMinNs packets uuid) →
      Arranged traceMinNs (packets ++ [⟨packet, ts, packets.length⟩])

namespace Arranged

variable {traceMinNs : Nat} {packets : List Placed} (arranged : Arranged traceMinNs packets)
include arranged

theorem order_lt : ∀ placed ∈ packets, placed.order < packets.length := by
  induction arranged with
  | nil => simp
  | add _ _ _ _ ih =>
      simp only [forall_mem_append, forall_mem_singleton, length_append, length_singleton]
      exact ⟨fun placed member => Nat.lt_succ_of_lt (ih placed member), Nat.lt_succ_self _⟩

/-- Packets are numbered in the order they were added. -/
theorem order_increasing : packets.Pairwise fun one two => one.order < two.order := by
  induction arranged with
  | nil => exact .nil
  | add arranged _ _ _ ih =>
      rw [pairwise_append]
      refine ⟨ih, pairwise_singleton _ _, fun placed member last there => ?_⟩
      obtain rfl := mem_singleton.1 there
      exact arranged.order_lt placed member

theorem isFirst_iff : ∀ placed ∈ packets, (placed.packet.isFirst = true ↔ placed.order = 0) := by
  induction arranged with
  | nil => simp
  | add _ first _ _ ih =>
      simp only [forall_mem_append, forall_mem_singleton]
      exact ⟨ih, first.trans length_eq_zero_iff.symm⟩

theorem ts_of_describes : ∀ placed ∈ packets, placed.packet.describes ≠ [] → placed.ts = traceMinNs := by
  induction arranged with
  | nil => simp
  | add _ _ described _ ih =>
      simp only [forall_mem_append, forall_mem_singleton]
      exact ⟨ih, described⟩

/-- What a packet refers to was described at an earlier place. -/
theorem earlier : ∀ placed ∈ packets, ∀ uuid ∈ placed.packet.refersTo,
    ∃ earlier ∈ packets, uuid ∈ earlier.packet.describes ∧ earlier.ts = traceMinNs ∧
    earlier.order < placed.order := by
  induction arranged with
  | nil => simp
  | add arranged _ _ known ih =>
      simp only [forall_mem_append, forall_mem_singleton]
      constructor
      · intro placed member uuid refers
        obtain ⟨earlier, there, facts⟩ := ih placed member uuid refers
        exact ⟨earlier, mem_append_left _ there, facts⟩
      · intro uuid refers
        obtain ⟨earlier, there, describes, atMin⟩ := known uuid refers
        exact ⟨earlier, mem_append_left _ there, describes, atMin, arranged.order_lt earlier there⟩

theorem exists_first (nonempty : packets ≠ []) : ∃ placed ∈ packets, placed.order = 0 := by
  induction arranged with
  | nil => exact absurd rfl nonempty
  | @add packets packet ts _ _ _ _ ih =>
      by_cases empty : packets = []
      · subst empty
        exact ⟨_, mem_singleton_self _, rfl⟩
      · obtain ⟨placed, there, zero⟩ := ih empty
        exact ⟨placed, mem_append_left _ there, zero⟩

theorem eq_of_order_eq {one two : Placed} (memberOne : one ∈ packets) (memberTwo : two ∈ packets)
    (same : one.order = two.order) : one = two := by
  have distinct : (packets.map Placed.order).Nodup :=
    pairwise_map.2 (arranged.order_increasing.imp fun below => Nat.ne_of_lt below)
  exact inj_on_of_nodup_map distinct memberOne memberTwo same

/-- Once sorted, arranged packets are in a usable order exactly if none is before the earliest timestamp. -/
theorem usable_iff : PlacedUsable (packets.insertionSort Placed.le) ↔
    ∀ placed ∈ packets, traceMinNs ≤ placed.ts := by
  have sorted := pairwise_insertionSort Placed.le packets
  have same (placed : Placed) : placed ∈ packets.insertionSort Placed.le ↔ placed ∈ packets :=
    mem_insertionSort Placed.le
  constructor
  · -- a packet that is too early is not a descriptor, and neither is the first one, which is no later
    intro usable placed member
    by_contra tooEarly
    cases split : packets.insertionSort Placed.le with
    | nil =>
        rw [← same, split] at member
        cases member
    | cons first later =>
        have firstMember : first ∈ packets := by rw [← same, split]; exact mem_cons_self
        have firstLe : first.ts ≤ placed.ts := by
          rw [← same, split] at member
          rw [split, pairwise_cons] at sorted
          rcases mem_cons.1 member with rfl | member
          · exact Nat.le_refl _
          · have below := sorted.1 placed member
            unfold Placed.le at below
            omega
        have describes := OverlayPacket.describes_of_isFirst (usable.cleared first later split).1
        have atMin := arranged.ts_of_describes first firstMember describes
        omega
  · intro late
    constructor
    · intro first later split
      have firstMember : first ∈ packets := by rw [← same, split]; exact mem_cons_self
      obtain ⟨zeroth, there, zero⟩ := arranged.exists_first (ne_nil_of_mem firstMember)
      have atMin := arranged.ts_of_describes zeroth there
        (OverlayPacket.describes_of_isFirst ((arranged.isFirst_iff zeroth there).2 zero))
      have firstZero : first.order = 0 := by
        rw [← same, split] at there
        rw [split, pairwise_cons] at sorted
        rcases mem_cons.1 there with rfl | there
        · exact zero
        · have below := sorted.1 zeroth there
          have notBefore := late first firstMember
          unfold Placed.le at below
          omega
      refine ⟨(arranged.isFirst_iff first firstMember).2 firstZero, fun placed member clears => ?_⟩
      have placedMember : placed ∈ packets := by rw [← same, split]; exact mem_cons_of_mem _ member
      have placedZero := (arranged.isFirst_iff placed placedMember).1 clears
      obtain rfl := arranged.eq_of_order_eq firstMember placedMember (firstZero.trans placedZero.symm)
      have distinct : (first :: later).Nodup := split ▸
        (perm_insertionSort Placed.le packets).nodup_iff.2
          (arranged.order_increasing.imp fun below same => by
          rw [same] at below
          exact Nat.lt_irrefl _ below)
      exact (nodup_cons.1 distinct).1 member
    · intro before placed after split uuid refers
      have member : placed ∈ packets := by rw [← same, split]; simp
      obtain ⟨earlier, there, describes, atMin, below⟩ := arranged.earlier placed member uuid refers
      refine ⟨earlier, ?_, describes⟩
      rw [← same, split, mem_append, mem_cons] at there
      rcases there with there | rfl | there
      · exact there
      · omega
      · -- behind the packet there are only later ones
        rw [split, pairwise_append, pairwise_cons] at sorted
        have above := sorted.2.1.1 earlier there
        have notBefore := late placed member
        unfold Placed.le at above
        omega

end Arranged

namespace Known

variable {traceMinNs uuid : Nat} {packets : List Placed}

theorem append (known : Known traceMinNs packets uuid) (more : List Placed) :
    Known traceMinNs (packets ++ more) uuid := by
  obtain ⟨placed, member, facts⟩ := known
  exact ⟨placed, mem_append_left _ member, facts⟩

theorem ne_nil (known : Known traceMinNs packets uuid) : packets ≠ [] := by
  obtain ⟨_, member, _⟩ := known
  exact ne_nil_of_mem member

end Known

/-! ### The groups -/

/-- The track is described, or the slice is drawn, below one of the known tracks or those before it. -/
inductive Grounded : List Nat → List Piece → Prop
  | nil {known : List Nat} : Grounded known []
  | track {known : List Nat} {uuid : Nat} {name : Bytes} {parent ordering rank : Option Nat}
    {rest : List Piece} :
      (∀ above ∈ parent, above ∈ known) → Grounded (uuid :: known) rest →
      Grounded known (.track uuid name parent ordering rank :: rest)
  | slice {known : List Nat} {uuid start stop : Nat} {label : Bytes} {rest : List Piece} : uuid ∈ known →
      Grounded known rest → Grounded known (.slice uuid start stop label :: rest)

namespace Grounded

variable {known known' : List Nat} {front back pieces : List Piece}

theorem mono (grounded : Grounded known pieces) (more : known ⊆ known') : Grounded known' pieces := by
  induction grounded generalizing known' with
  | nil => exact .nil
  | track above _ ih =>
      exact .track (fun uuid member => more (above uuid member)) (ih (cons_subset_cons _ more))
  | slice there _ ih => exact .slice (more there) (ih more)

theorem append (first : Grounded known front) (second : Grounded known back) :
    Grounded known (front ++ back) := by
  induction first with
  | nil => exact second
  | track above _ ih => exact .track above (ih (second.mono (subset_cons_self _ _)))
  | slice there _ ih => exact .slice there (ih second)

/-- Grounded pieces are added in arranged order. -/
theorem arranged {traceMinNs : Nat} (grounded : Grounded known pieces) {packets : List Placed}
    (arranged : Arranged traceMinNs packets) (knows : ∀ uuid ∈ known, Known traceMinNs packets uuid) :
    Arranged traceMinNs (packets ++ placePieces traceMinNs packets.length pieces) := by
  induction grounded generalizing packets with
  | nil => rwa [placePieces, append_nil]
  | @track known uuid name parent ordering rank rest above _ ih =>
      have added : Arranged traceMinNs (packets ++
        [⟨.descriptor uuid name (parent.isNone && packets.length == 0) parent
          ordering rank, traceMinNs, packets.length⟩]) := by
        refine .add arranged ?_ (fun _ => rfl) fun other member =>
          knows other (above other (Option.mem_toList.1 member))
        cases parent with
        | none => simp [OverlayPacket.isFirst]
        | some parent => simp [OverlayPacket.isFirst, (knows parent (above parent rfl)).ne_nil]
      have later := ih added (forall_mem_cons.2 ⟨⟨_, mem_append_right _ mem_cons_self, by
        simp [OverlayPacket.describes]⟩, fun other member => (knows other member).append _⟩)
      rwa [append_assoc, length_append] at later
  | @slice known uuid start stop label rest there _ ih =>
      have slice {packets : List Placed} (arranged : Arranged traceMinNs packets)
        (known : Known traceMinNs packets uuid)
          (ts etype : Nat) (name : Option Bytes) :
          Arranged traceMinNs (packets ++ [⟨.slice uuid ts etype name, ts, packets.length⟩]) :=
        .add arranged (by simp [OverlayPacket.isFirst, known.ne_nil]) (by simp [OverlayPacket.describes])
          (by simpa [OverlayPacket.refersTo] using known)
      have begun := slice arranged (knows uuid there) start typeSliceBegin (some label)
      have later := ih (slice begun ((knows uuid there).append _) stop typeSliceEnd none) fun other member =>
        ((knows other member).append _).append _
      simp only [append_assoc, length_append] at later
      exact later

end Grounded

section

variable {φ ι : Type*} {format : OverlayFormat φ ι} {traceMinNs : Nat}
  {pieces : List Piece} {snaps : List (PeakSnapshot φ)}

theorem Grounded.peaks {known : List Nat} {parent uuid : Nat}
    (each : List.Forall₂ (PeakPiece format uuid) snaps pieces) (there : parent ∈ known) :
    Grounded known (peakTrack parent uuid snaps ++ pieces) := by
  have slices : Grounded (uuid :: known) pieces := by
    induction each with
    | nil => exact .nil
    | cons peak _ ih =>
        obtain ⟨_, rfl⟩ := peak
        exact .slice mem_cons_self ih
  cases each with
  | nil => exact .nil
  | cons => exact .track (by simpa) slices

variable {hashMap : List (Nat × ι)}

theorem AllocationPieces.grounded {parent rank : Nat} {usable : List Lifetime}
    (each : AllocationPieces format parent hashMap rank usable pieces) {known : List Nat}
    (there : parent ∈ known) : Grounded known pieces := by
  induction each generalizing known with
  | nil => exact .nil
  | cons _ _ _ ih => exact .track (by simpa) (.slice mem_cons_self (ih (mem_cons_of_mem _ there)))

variable {timings : List Lifetime} {groups : List (TrackGroup ι)}

theorem GroupPieces.grounded {last next : Nat} (made : GroupPieces format timings last next snaps
      groups pieces) : Grounded [] pieces := by
  induction made with
  | nil => exact .nil
  | cons _ eachPeak eachAllocation _ ih =>
      exact .track (by simp) ((Grounded.peaks eachPeak mem_cons_self).append
        ((eachAllocation.grounded mem_cons_self).append (ih.mono (nil_subset _))))

theorem GroupPieces.arranged {last next : Nat} (made : GroupPieces format timings last next snaps
      groups pieces) : Arranged traceMinNs (placePieces traceMinNs 0 pieces) :=
  made.grounded.arranged .nil (by simp)

/-- Where a slice begins and ends. -/
def Piece.spans : Piece → List (Nat × Nat)
  | .track _ _ _ _ _ => []
  | .slice _ start stop _ => [(start, stop)]

/-- The times of the packets are those of the slices, apart from the earliest timestamp. -/
theorem placePieces_times {traceMinNs : Nat} {P : Nat → Prop} (atMin : P traceMinNs) (order : Nat)
    (pieces : List Piece) :
    (∀ placed ∈ placePieces traceMinNs order pieces, P placed.ts) ↔
      ∀ span ∈ pieces.flatMap Piece.spans, P span.1 ∧ P span.2 := by
  fun_induction placePieces traceMinNs order pieces with
  | case1 => simp
  | case2 _ _ _ _ _ _ _ ih | case3 _ _ _ _ _ _ ih =>
      rw [flatMap_cons, forall_mem_append, ← ih]
      simp [Piece.spans, atMin, and_assoc]

/-- The lifetimes of a group: those it knows the stack of. -/
theorem mem_usableTimings {timing : Lifetime} :
    timing ∈ usableTimings timings hashMap ↔ timing ∈ timings ∧
    (hashMap.lookup timing.hashIndex).isSome := by
  rw [usableTimings, mem_insertionSort, mem_filter]

/-- The slice of a peak. -/
def PeakSnapshot.span (snap : PeakSnapshot φ) : Nat × Nat := (snap.ts, snap.ts + 2000000)

/-- The slice of a lifetime. -/
def Lifetime.span (timing : Lifetime) : Nat × Nat :=
  (timing.ts, timing.ts + if timing.dur > 0 then timing.dur else 1000000)

/-- The slices of the groups: the peaks, if there is a group, and the lifetimes whose stack it knows. -/
def groupSpans (timings : List Lifetime) (snaps : List (PeakSnapshot φ)) (groups : List (TrackGroup ι)) :
    List (Nat × Nat) :=
  (if groups = [] then [] else snaps.map PeakSnapshot.span) ++
    groups.flatMap fun group => (usableTimings timings group.2).map Lifetime.span

theorem forall_groupSpans {P : Nat × Nat → Prop} : (∀ span ∈ groupSpans timings snaps groups, P span) ↔
    (groups ≠ [] → ∀ snap ∈ snaps, P snap.span) ∧ ∀ group ∈ groups, ∀ timing ∈ timings,
      (group.2.lookup timing.hashIndex).isSome → P timing.span := by
  rw [groupSpans, forall_mem_append]
  refine and_congr ?_ ?_
  · split <;> simp [*]
  · simp only [forall_mem_flatMap, forall_mem_map, mem_usableTimings, and_imp]

theorem peaks_spans {uuid : Nat} (each : List.Forall₂ (PeakPiece format uuid) snaps pieces) :
    pieces.flatMap Piece.spans = snaps.map PeakSnapshot.span := by
  induction each with
  | nil => rfl
  | cons peak _ ih =>
      obtain ⟨_, rfl⟩ := peak
      rw [flatMap_cons, ih]
      rfl

theorem AllocationPieces.spans {parent rank : Nat} {usable : List Lifetime}
    (each : AllocationPieces format parent hashMap rank usable pieces) :
    pieces.flatMap Piece.spans = usable.map Lifetime.span := by
  induction each with
  | nil => rfl
  | cons _ _ _ ih =>
      rw [flatMap_cons, flatMap_cons, ih]
      rfl

theorem GroupPieces.spans {last next : Nat} (made : GroupPieces format timings last next snaps
      groups pieces) : pieces.flatMap Piece.spans = groupSpans timings snaps groups := by
  induction made with
  | nil => rfl
  | @cons next peak snaps group later peaks allocations rest _ eachPeak eachAllocation _ ih =>
      have track : (peakTrack next peak snaps).flatMap Piece.spans = [] := by
        unfold peakTrack
        split <;> rfl
      simp only [flatMap_cons, flatMap_append, track, peaks_spans eachPeak, eachAllocation.spans, ih]
      simp [Piece.spans, groupSpans]

end

/-! ### The result -/

theorem placed_new (seq clockId : Nat) (placed : Placed) :
    newPacket (placed.entry seq clockId) = placed.packet.bytes seq clockId :=
  newPacket_eq (placed.packet.rootBytes_eq seq clockId)

theorem placed_newPackets (seq clockId : Nat) (packets : List Placed) :
    NewPackets (packets.map (Placed.entry seq clockId)) := by
  intro new member
  obtain ⟨placed, _, rfl⟩ := mem_map.1 member
  rw [placed_new]
  exact ⟨placed.packet.rootBytes_eq seq clockId, _, placed.packet.made.iterFields_bytes seq clockId,
    placed.packet.made.no_compressed seq clockId⟩

/-- A packet of the trace is not on the new sequence. -/
theorem not_onSequence {metadata : TraceMetadata} {packet : Bytes} (below : PacketBelow metadata packet) :
    onSequence metadata.overlaySequenceId packet = false := by
  obtain ⟨fields, all, each⟩ := below
  rw [onSequence, hasValue, all, Option.getD_some, any_eq_false]
  intro field member same
  exact Nat.lt_irrefl _ ((each field member).1 _ (of_decide_eq_true same))

/-- The entries are sorted like the packets. -/
theorem insertionSort_entries (seq clockId : Nat) (packets : List Placed) :
    (packets.map (Placed.entry seq clockId)).insertionSort OverlayPacketEntry.le =
      (packets.insertionSort Placed.le).map (Placed.entry seq clockId) :=
  (map_insertionSort _ _ _ _ fun one _ two _ => (Placed.entry_le seq clockId one two).symm).symm

/-- The packets of the new sequence in a merged trace are the new ones, sorted. -/
theorem merged_onSequence {zlib : Zlib} {depth : Nat} {trace merged : Bytes} {metadata : TraceMetadata}
    {packets : List Placed} {outer : List Bytes} (accepted : analyzeTrace zlib depth trace = some metadata)
    (root : iterTracePackets trace = some outer)
    (ends : wholePackets trace ∨ packets = [] ∨ Covered outer (packets.map Placed.ts))
    (isMerged : mergeOverlayPackets trace (packets.map
      (Placed.entry metadata.overlaySequenceId metadata.primaryClockId)) = some merged) :
    ∃ all, iterTracePacketsRecursive zlib depth merged = some all ∧
      all.filter (onSequence metadata.overlaySequenceId) =
      (packets.insertionSort Placed.le).map fun placed =>
        placed.packet.bytes metadata.overlaySequenceId metadata.primaryClockId := by
  cases depth with
  | zero => cases accepted
  | succ depth =>
      obtain ⟨entries, allEntries, _, each⟩ := accepted_entries accepted
      obtain ⟨_, _, plain⟩ := readAll_withSpan isReader_readPacket allEntries
      cases root.symm.trans plain
      have covers : Covered (entries.map Prod.snd) (packets.map Placed.ts) → ∃ entry ∈ entries, ∃ last,
          parsePacketTimestamp entry.2 = some (some last) ∧ ∀ new ∈ packets.map
            (Placed.entry metadata.overlaySequenceId metadata.primaryClockId),
              new.sortTimestampNs ≤ last := by
        rintro ⟨_, member, last, timed, above⟩
        obtain ⟨entry, there, rfl⟩ := mem_map.1 member
        exact ⟨entry, there, last, timed, forall_mem_map.2 fun placed member =>
          Int.ofNat_le.2 (above placed.ts (mem_map_of_mem member))⟩
      obtain ⟨items, mergedItems, isMerged', _, reads⟩ := merge_accepted accepted allEntries
        (ends.imp_right (Or.imp (fun noPacket => by rw [noPacket]; rfl) covers))
        (placed_newPackets metadata.overlaySequenceId metadata.primaryClockId packets)
      cases isMerged.symm.trans isMerged'
      refine ⟨_, reads, ?_⟩
      have chosen : ∀ list : List Bytes, list.filter (onSequence metadata.overlaySequenceId) =
          list.flatMap fun packet => if onSequence metadata.overlaySequenceId packet then
            [packet] else [] := by
        intro list
        induction list with
        | nil => rfl
        | cons packet rest ih =>
            cases here : onSequence metadata.overlaySequenceId packet <;> simp [here, ih]
      rw [chosen, merged_flatMap mergedItems fun entry member packet inside => by
        rw [not_onSequence ((each entry member).2 packet inside)]; rfl]
      rw [insertionSort_entries, flatMap_map]
      simp [placed_new, OverlayPacket.onSequence_bytes, ← map_eq_flatMap]

/-- What `build_tracks` has done when it returns. -/
theorem buildTracks_cases {φ ι : Type*} {format : OverlayFormat φ ι} {zlib : Zlib} {depth : Nat}
    {trace out : Bytes} {groups : List (TrackGroup ι)} {stripMarkers : Bool}
    {stats : List (Bytes × Nat × Nat)} {stripped : Nat} {timings : List Lifetime}
    {snaps : List (PeakSnapshot φ)} (timed : extractTimings zlib depth trace = some timings)
    (peaked : extractPeakSnapshots format zlib depth trace = some snaps)
    (built : buildTracks format zlib depth trace groups stripMarkers = some (out, stats, stripped)) :
    ∃ kept metadata overlay,
      (if stripMarkers then stripAllocMarkers zlib depth trace else some (trace, 0)) =
      some (kept, stripped) ∧
      analyzeTrace zlib depth kept = some metadata ∧
      addGroups format metadata.traceMinNs timings snaps groups
      { nextUuid := metadata.nextUuid } = some overlay ∧
      mergeOverlayPackets kept (overlay.packets.map
        (Placed.entry metadata.overlaySequenceId metadata.primaryClockId)) = some out := by
  unfold buildTracks at built
  rw [timed, Option.bind_some, peaked, Option.bind_some] at built
  obtain ⟨⟨kept, count⟩, keeps, built⟩ := Option.bind_eq_some_iff.1 built
  obtain ⟨metadata, analyzed, built⟩ := Option.bind_eq_some_iff.1 built
  obtain ⟨overlay, added, built⟩ := Option.bind_eq_some_iff.1 built
  obtain ⟨merged, isMerged, ⟨⟩⟩ := Option.map_eq_some_iff.1 built
  exact ⟨kept, metadata, overlay, keeps, analyzed, added, isMerged⟩

/-- The packets of the new sequence are in a usable order exactly if no lifetime that a group uses and,
where there is a group, no peak begins before the earliest timestamp. A last packet that is cut short
takes in what is put behind it; so the packets are whole, there is no group, or some packet is not before
the end of any slice. -/
theorem build_tracks_order_iff {φ ι : Type*} {format : OverlayFormat φ ι} {zlib : Zlib} {depth : Nat}
    {trace out : Bytes}
    {groups : List (TrackGroup ι)} {stripMarkers : Bool} {stats : List (Bytes × Nat × Nat)} {stripped : Nat}
    {metadata : TraceMetadata} {timings : List Lifetime} {snaps : List (PeakSnapshot φ)} {outer : List Bytes}
    (accepted : analyzeTrace zlib depth trace = some metadata) (root : iterTracePackets trace = some outer)
    (timed : extractTimings zlib depth trace = some timings)
    (peaked : extractPeakSnapshots format zlib depth trace = some snaps)
    (ends : wholePackets trace ∨ groups = [] ∨ Covered outer
      ((groupSpans timings snaps groups).map Prod.snd))
    (built : buildTracks format zlib depth trace groups stripMarkers = some (out, stats, stripped)) :
    (∃ packets, iterTracePacketsRecursive zlib depth out = some packets ∧
      UsableOrder (packets.filter (onSequence metadata.overlaySequenceId))) ↔
    (groups ≠ [] → ∀ snap ∈ snaps, metadata.traceMinNs ≤ snap.ts) ∧
      ∀ group ∈ groups, ∀ timing ∈ timings, (group.2.lookup timing.hashIndex).isSome →
        metadata.traceMinNs ≤ timing.ts := by
  obtain ⟨kept, metadata', overlay, keeps, analyzed, added, isMerged⟩ := buildTracks_cases timed peaked built
  obtain ⟨same, outer', root', ends'⟩ : analyzeTrace zlib depth kept = some metadata ∧ ∃ outer',
      iterTracePackets kept = some outer' ∧ (wholePackets kept ∨ groups = [] ∨
        Covered outer' ((groupSpans timings snaps groups).map Prod.snd)) := by
    split at keeps
    · obtain ⟨outer', root', covered⟩ := covered_strip keeps root
      exact ⟨(analyzeTrace_strip keeps).trans accepted, outer', root',
        ends.imp (wholePackets_strip keeps) (Or.imp_right (covered _))⟩
    · cases keeps
      exact ⟨accepted, outer, root, ends⟩
  cases same.symm.trans analyzed
  obtain ⟨pieces, made, gains⟩ := addGroups_gains added
  have isPlaced : overlay.packets = placePieces metadata.traceMinNs 0 pieces := gains.packets
  have covers : wholePackets kept ∨ overlay.packets = [] ∨
    Covered outer' (overlay.packets.map Placed.ts) := by
    refine ends'.imp_right (Or.imp ?_ ?_)
    · rintro rfl
      cases added
      rfl
    · rintro ⟨packet, member, last, timed, covers⟩
      refine ⟨packet, member, last, timed, forall_mem_map.2 ?_⟩
      rw [isPlaced, placePieces_times (P := (· ≤ last)) (traceMinNs_le same root' member timed), made.spans]
      intro span there
      have := covers span.2 (mem_map_of_mem there)
      have forward : span.1 ≤ span.2 :=
        (forall_groupSpans (P := fun span => span.1 ≤ span.2)).2
          ⟨fun _ _ _ => Nat.le_add_right _ _, fun _ _ _ _ _ => Nat.le_add_right _ _⟩ span there
      exact ⟨forward.trans this, this⟩
  obtain ⟨packets, reads, chosen⟩ := merged_onSequence same root' covers isMerged
  have condition := placePieces_times (le_refl metadata.traceMinNs) 0 pieces
  have starts (ts length : Nat) : metadata.traceMinNs ≤ ts ∧ metadata.traceMinNs ≤ ts + length ↔
      metadata.traceMinNs ≤ ts := by omega
  simp only [made.spans, forall_groupSpans, PeakSnapshot.span, Lifetime.span, starts] at condition
  rw [← condition, ← made.arranged.usable_iff, ← usableOrder_iff metadata.overlaySequenceId
    metadata.primaryClockId,
    ← isPlaced, ← chosen]
  constructor
  · rintro ⟨packets', reads', usable⟩
    cases reads.symm.trans reads'
    exact usable
  · intro usable
    exact ⟨packets, reads, usable⟩

/-- Labels without a text. -/
def plainFormat : OverlayFormat Unit Unit where
  float _ := some ()
  toMiB := id
  le _ _ := true
  peakSliceName _ _ _ _ := []
  sliceName _ _ _ := some []

/-- An allocation of a known stack, in a trace without the timestamp of a packet. -/
def untimedTrace : Bytes :=
  encodeLenField 1 clockPacket ++ encodeLenField 1 (printPacket
    [(10, "S|7|memory_host@0x100.h42.s4096|256"), (70, "F|7|memory_host@0x100.h42.s4096|256")])

/-- With a packet at the time 5 before it, and one at the time 100 behind it that is cut short. -/
def cutTrace : Bytes := encodeLenField 1 (encodeVarField 8 5) ++ untimedTrace ++ [0x0a, 3, 0x40, 100]

/-- The order is usable. -/
theorem build_tracks_order_timed :
    ∃ metadata out stats stripped packets, analyzeTrace .stored 1 cutTrace = some metadata ∧
    ¬wholePackets cutTrace ∧
      buildTracks plainFormat .stored 1 cutTrace [([], [(42, ())])] true = some (out, stats, stripped) ∧
      iterTracePacketsRecursive .stored 1 out = some packets ∧
      UsableOrder (packets.filter (onSequence metadata.overlaySequenceId)) := by
  generalize isTrace : cutTrace = trace
  obtain ⟨metadata, accepted, timings, timed, snaps, peaked, ⟨out, stats, stripped⟩, built, peaks, slices⟩ :
      ∃ metadata ∈ analyzeTrace .stored 1 trace, ∃ timings ∈ extractTimings .stored 1 trace,
        ∃ snaps ∈ extractPeakSnapshots plainFormat .stored 1 trace,
        ∃ _ ∈ buildTracks plainFormat .stored 1 trace [([], [(42, ())])] true,
          (∀ snap ∈ snaps, metadata.traceMinNs ≤ snap.ts) ∧
            ∀ timing ∈ timings, metadata.traceMinNs ≤ timing.ts := by
    rw [← isTrace]
    decide +kernel
  obtain ⟨outer, root, timings', timed', snaps', peaked', cut, packet, member, stamp, stops⟩ :
      ∃ outer ∈ iterTracePackets trace, ∃ timings ∈ extractTimings .stored 1 trace,
        ∃ snaps ∈ extractPeakSnapshots plainFormat .stored 1 trace, ¬wholePackets trace ∧
        ∃ packet ∈ outer, parsePacketTimestamp packet = some (some 100) ∧
          ∀ stop ∈ (groupSpans timings snaps [(([], [(42, ())]) : TrackGroup Unit)]).map Prod.snd,
            stop ≤ 100 := by
    rw [← isTrace]
    decide +kernel
  cases timed.symm.trans timed'
  cases peaked.symm.trans peaked'
  obtain ⟨packets, reads, usable⟩ := (build_tracks_order_iff accepted root timed peaked
    (.inr (.inr ⟨packet, member, 100, stamp, stops⟩)) built).2
      ⟨fun _ => peaks, fun _ _ timing there _ => slices timing there⟩
  exact ⟨metadata, out, stats, stripped, packets, accepted, cut, built, reads, usable⟩

/-- Without the timestamp of a packet, the first packet of the new sequence is a slice on a track not yet
described. -/
theorem slice_before_descriptor :
    ∃ metadata out stats stripped packets, analyzeTrace .stored 1 untimedTrace = some metadata ∧
      wholePackets untimedTrace ∧
      buildTracks plainFormat .stored 1 untimedTrace [([], [(42, ())])] true = some (out, stats, stripped) ∧
      iterTracePacketsRecursive .stored 1 out = some packets ∧
      ¬UsableOrder (packets.filter (onSequence metadata.overlaySequenceId)) := by
  generalize isTrace : untimedTrace = trace
  obtain ⟨metadata, accepted, ⟨out, stats, stripped⟩, built, packets, reads, whole, first, isHead, clears⟩ :
      ∃ metadata ∈ analyzeTrace .stored 1 trace,
        ∃ result ∈ buildTracks plainFormat .stored 1 trace [([], [(42, ())])] true,
        ∃ packets ∈ iterTracePacketsRecursive .stored 1 result.1, wholePackets trace ∧
          ∃ first ∈ (packets.filter (onSequence metadata.overlaySequenceId)).head?,
            clearsState first = false := by
    rw [← isTrace]
    decide +kernel
  refine ⟨metadata, out, stats, stripped, packets, accepted, whole, built, reads, fun usable => ?_⟩
  obtain ⟨later, split⟩ := List.head?_eq_some_iff.1 isHead
  rw [(usable.cleared first later split).1] at clears
  cases clears

end MallocHook
