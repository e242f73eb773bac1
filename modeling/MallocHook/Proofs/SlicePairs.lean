/-
Module: MallocHook.Proofs.SlicePairs
Purpose: The slices that are drawn on the tracks of `build_tracks`. All peaks are on one track, each for
  2 ms, so peaks that are closer are matched with the wrong ends.
Trusted boundary: none
Main exports: placePieces_made, build_tracks_slices_iff
-/
import MallocHook.Lib.SliceStack
import MallocHook.Proofs.FreshTracks

namespace MallocHook

open WireFormat List Option

/-! ### Slices on a track -/

/-- What a packet is on a track: the begin of a slice, the end of one, or neither. -/
def sliceMark (uuid : Nat) (placed : Placed) : Option (Placed ⊕ Placed) :=
  match placed.packet with
  | .slice trackUuid _ etype _ =>
      if trackUuid = uuid then
        if etype = typeSliceBegin then some (.inl placed)
          else if etype = typeSliceEnd then some (.inr placed) else none
      else none
  | .descriptor _ _ _ _ _ _ => none

/-- The slices that are drawn on a track. -/
def renderedOn (uuid : Nat) (output : List Placed) : List (Placed × Placed) :=
  matchSlices [] (output.filterMap (sliceMark uuid))

/-- The slices that were made for a track: a begin and the end that was made directly after it. -/
def madeOn (uuid : Nat) (packets : List Placed) : List (Placed × Placed) :=
  (packets.zip packets.tail).filter fun pair =>
    decide (sliceMark uuid pair.1 = some (.inl pair.1) ∧ sliceMark uuid pair.2 = some (.inr pair.2))

/-- A begin and the end that is made for it. -/
def slicePair (order uuid start stop : Nat) (label : Bytes) : Placed × Placed :=
  (⟨.slice uuid start typeSliceBegin (some label), start, order⟩,
    ⟨.slice uuid stop typeSliceEnd none, stop, order + 1⟩)

/-- The label of a slice. -/
def Placed.label (placed : Placed) : Option Bytes :=
  match placed.packet with
  | .slice _ _ _ name => name
  | .descriptor _ _ _ _ _ _ => none

/-- The start, the end and the label of a slice. -/
def drawnSlice : Placed × Placed → Nat × Nat × Option Bytes := drawn Placed.ts Placed.ts Placed.label

theorem sliceMark_elim {uuid : Nat} {placed : Placed} {mark : Placed ⊕ Placed}
    (isMark : sliceMark uuid placed = some mark) : mark.elim id id = placed := by
  unfold sliceMark at isMark
  split at isMark
  · split_ifs at isMark <;> cases isMark <;> rfl
  · cases isMark

/-- Packets that were added together: no slice is left open, and the begins and ends are those of the
slices. -/
structure Complete (packets : List Placed) : Prop where
  last : ∀ placed ∈ packets.getLast?, ∀ uuid, sliceMark uuid placed ≠ some (.inl placed)
  marks : ∀ uuid, packets.filterMap (sliceMark uuid) = sliceMarks (madeOn uuid packets)

theorem madeOn_append {front : List Placed} {uuid : Nat}
    (last : ∀ placed ∈ front.getLast?, sliceMark uuid placed ≠ some (.inl placed)) (back : List Placed) :
    madeOn uuid (front ++ back) = madeOn uuid front ++ madeOn uuid back := by
  induction front with
  | nil => rfl
  | cons placed rest ih =>
      cases rest with
      | nil =>
          have notBegin : sliceMark uuid placed ≠ some (.inl placed) := last placed rfl
          cases back with
          | nil => simp [madeOn]
          | cons next back => simp [madeOn, notBegin]
      | cons next rest =>
          have later := ih (by simpa [List.getLast?_cons_cons] using last)
          simp only [madeOn, cons_append, tail_cons, zip_cons_cons, filter_cons] at later ⊢
          split
          · rw [later, cons_append]
          · exact later

namespace Complete

theorem nil : Complete [] := ⟨by simp, fun _ => rfl⟩

theorem append {front back : List Placed} (first : Complete front) (second : Complete back) :
    Complete (front ++ back) where
  last placed isLast := by
    rw [List.getLast?_append] at isLast
    cases found : back.getLast? with
    | none =>
        rw [found] at isLast
        exact first.last placed isLast
    | some placed' =>
        rw [found] at isLast
        cases isLast
        exact second.last placed found
  marks uuid := by
    rw [filterMap_append, first.marks, second.marks,
      madeOn_append (fun placed isLast => first.last placed isLast uuid),
      sliceMarks, sliceMarks, sliceMarks, flatMap_append]

theorem madeOn_append {front : List Placed} (first : Complete front) (uuid : Nat) (back : List Placed) :
    madeOn uuid (front ++ back) = madeOn uuid front ++ madeOn uuid back :=
  MallocHook.madeOn_append (fun placed isLast => first.last placed isLast uuid) back

end Complete

/-! ### The packets of the groups -/

/-- The piece is a slice on a track. -/
def Piece.isOn (uuid : Nat) : Piece → Bool
  | .track _ _ _ _ _ => false
  | .slice own _ _ _ => own = uuid

/-- The slices of pieces that are on a track. -/
def slicesOn (uuid : Nat) (pieces : List Piece) : List Piece := pieces.filter (Piece.isOn uuid)

theorem slicesOn_slice (track uuid start stop : Nat) (label : Bytes) (rest : List Piece) :
    slicesOn track (.slice uuid start stop label :: rest) =
      (if track = uuid then [.slice uuid start stop label] else []) ++ slicesOn track rest := by
  by_cases same : track = uuid
  · simp [slicesOn, Piece.isOn, same]
  · simp [slicesOn, Piece.isOn, same, Ne.symm same]

theorem slicesOn_track (track uuid : Nat) (name : Bytes) (parent ordering rank : Option Nat)
    (rest : List Piece) :
    slicesOn track (.track uuid name parent ordering rank :: rest) = slicesOn track rest := rfl

theorem slicesOn_append (uuid : Nat) (front back : List Piece) :
    slicesOn uuid (front ++ back) = slicesOn uuid front ++ slicesOn uuid back :=
  filter_append ..

/-- The packets of a slice. -/
def Piece.IsPair (piece : Piece) (pair : Placed × Placed) : Prop :=
  ∃ order uuid start stop label, piece = .slice uuid start stop label ∧
    pair = slicePair order uuid start stop label

theorem madeOn_slicePair (track order uuid start stop : Nat) (label : Bytes) :
    let pair := slicePair order uuid start stop label
    Complete [pair.1, pair.2] ∧ madeOn track [pair.1, pair.2] = if track = uuid then [pair] else [] := by
  have made (track : Nat) : madeOn track [(slicePair order uuid start stop label).1,
    (slicePair order uuid start stop label).2] =
      if track = uuid then [slicePair order uuid start stop label] else [] := by
    by_cases same : track = uuid
    · subst same
      simp [madeOn, sliceMark, slicePair, typeSliceBegin, typeSliceEnd]
    · simp [madeOn, sliceMark, slicePair, same, Ne.symm same]
  refine ⟨⟨by simp [sliceMark, slicePair, typeSliceBegin, typeSliceEnd], fun track => ?_⟩, made track⟩
  rw [made track]
  by_cases same : track = uuid
  · subst same
    simp [sliceMark, slicePair, typeSliceBegin, typeSliceEnd, sliceMarks]
  · simp [sliceMark, slicePair, same, Ne.symm same, sliceMarks]

/-- The packets of pieces are complete, and have the slices of the pieces on each track. -/
theorem placePieces_made (traceMinNs order : Nat) (pieces : List Piece) :
    Complete (placePieces traceMinNs order pieces) ∧
    ∀ uuid, List.Forall₂ Piece.IsPair (slicesOn uuid pieces)
    (madeOn uuid (placePieces traceMinNs order pieces)) := by
  fun_induction placePieces traceMinNs order pieces with
  | case1 => exact ⟨.nil, fun _ => .nil⟩
  | case2 order uuid name parent ordering rank rest ih =>
      have track : Complete [⟨.descriptor uuid name (parent.isNone && order == 0) parent ordering rank,
        traceMinNs, order⟩] :=
        ⟨by simp [sliceMark], fun _ => rfl⟩
      refine ⟨track.append ih.1, fun other => ?_⟩
      have made := track.madeOn_append other (placePieces traceMinNs (order + 1) rest)
      rw [singleton_append] at made
      rw [made]
      exact ih.2 other
  | case3 order uuid start stop label rest ih =>
      refine ⟨(madeOn_slicePair uuid order uuid start stop label).1.append ih.1, fun other => ?_⟩
      obtain ⟨slice, made⟩ := madeOn_slicePair other order uuid start stop label
      have both := slice.madeOn_append other (placePieces traceMinNs (order + 2) rest)
      rw [made] at both
      refine (congrArg _ both).mpr ?_
      rw [slicesOn_slice]
      refine rel_append ?_ (ih.2 other)
      split
      · exact .cons ⟨order, _, _, _, _, rfl, rfl⟩ .nil
      · exact .nil

section

variable {φ ι : Type*} (format : OverlayFormat φ ι) {parent rank last next peak : Nat}
  {timings usable : List Lifetime} {hashMap : List (Nat × ι)} {snaps : List (PeakSnapshot φ)}
  {groups : List (TrackGroup ι)} {pieces : List Piece}

/-- The slice of a peak: 2 ms with its label. -/
def PeakSlice (uuid : Nat) (snap : PeakSnapshot φ) (slice : Placed × Placed) : Prop :=
  ∃ order isMax, slice = slicePair order uuid snap.ts (snap.ts + 2000000)
    (format.peakSliceName snap.totalMb snap.hostMb snap.dmaMb isMax)

/-- The slice of a lifetime whose stack is known: its lifetime, or 1 ms if that is empty, with its label. -/
def AllocationSlice (hashMap : List (Nat × ι)) (uuid : Nat) (timing : Lifetime)
    (slice : Placed × Placed) : Prop :=
  ∃ info label order, hashMap.lookup timing.hashIndex = some info ∧
    format.sliceName info timing.hashIndex timing.sizeBytes = some label ∧
    slice = slicePair order uuid timing.ts (timing.ts + if timing.dur > 0 then timing.dur else 1000000) label

variable {format}

theorem slicesOn_peaks (each : List.Forall₂ (PeakPiece format peak) snaps pieces) (uuid : Nat) :
    slicesOn uuid pieces = if uuid = peak then pieces else [] := by
  induction each with
  | nil => simp [slicesOn]
  | cons isPeak _ ih =>
      obtain ⟨_, rfl⟩ := isPeak
      rw [slicesOn_slice, ih]
      split <;> rfl

theorem peaks_pairs (each : List.Forall₂ (PeakPiece format peak) snaps pieces)
    {slices : List (Placed × Placed)} (pairs : List.Forall₂ Piece.IsPair pieces slices) :
    List.Forall₂ (PeakSlice format peak) snaps slices := by
  induction each generalizing slices with
  | nil =>
      cases pairs
      exact .nil
  | cons isPeak _ ih =>
      cases pairs with
      | cons isPair later =>
          obtain ⟨isMax, rfl⟩ := isPeak
          obtain ⟨order, _, _, _, _, ⟨⟩, rfl⟩ := isPair
          exact .cons ⟨order, isMax, rfl⟩ (ih later)

/-- Each lifetime has its slice on its own track. -/
theorem AllocationPieces.slices (each : AllocationPieces format parent hashMap rank usable pieces)
    (uuid : Nat) :
    (slicesOn uuid pieces).length = (pieces.flatMap Piece.describes).count uuid ∧
      ∀ piece ∈ slicesOn uuid pieces, ∃ timing ∈ usable, ∀ pair, piece.IsPair pair →
        AllocationSlice format hashMap uuid timing pair := by
  induction each with
  | nil => simp [slicesOn]
  | @cons rank timing later info label pieces known named _ ih =>
      rw [slicesOn_track, slicesOn_slice, length_append, ih.1]
      refine ⟨?_, forall_mem_append.2 ⟨?_, fun piece there => ?_⟩⟩
      · by_cases same : uuid = parent + 1 + rank
        · simp [Piece.describes, same, Nat.add_comm]
        · simp [Piece.describes, same, Ne.symm same]
      · split
        · next same =>
            refine forall_mem_singleton.2 ⟨timing, mem_cons_self, ?_⟩
            rintro _ ⟨order, _, _, _, _, ⟨⟩, rfl⟩
            exact ⟨info, label, order, known, named, by rw [same]⟩
        · simp
      · obtain ⟨timing', member, is⟩ := ih.2 piece there
        exact ⟨timing', mem_cons_of_mem _ member, is⟩

/-- The slices of all groups: the peaks are on one track, and any other track, described once, has at most
one slice. -/
theorem GroupPieces.slices (made : GroupPieces format timings last next snaps groups pieces) :
    ∃ peak peaks, List.Forall₂ (PeakPiece format peak) (if groups = [] then [] else snaps) peaks ∧
      ∀ uuid, ∃ others, slicesOn uuid pieces = (if uuid = peak then peaks else []) ++ others ∧
        others.length + (if uuid = peak ∧ peaks ≠ [] then 1 else 0) ≤
          (pieces.flatMap Piece.describes).count uuid ∧
        ∀ piece ∈ others, ∃ group ∈ groups, ∃ timing ∈ timings, ∀ pair, piece.IsPair pair →
          AllocationSlice format group.2 uuid timing pair := by
  induction made with
  | nil => exact ⟨0, [], by simp, fun uuid => ⟨[], by simp [slicesOn], by simp, by simp⟩⟩
  | @cons next peak snaps group later peaks allocations rest isPeak eachPeak eachAllocation _ ih =>
      obtain ⟨_, others', noPeaks, others⟩ := ih
      obtain rfl : others' = [] := by simpa using noPeaks
      refine ⟨peak, peaks, by simpa using eachPeak, fun uuid => ?_⟩
      obtain ⟨rest', isRest, count, each⟩ := others uuid
      obtain ⟨count', each'⟩ := eachAllocation.slices uuid
      have ofTrack : slicesOn uuid (peakTrack next peak snaps) = [] := by
        unfold peakTrack
        split <;> rfl
      refine ⟨slicesOn uuid allocations ++ rest', ?_, ?_,
        forall_mem_append.2 ⟨fun piece there => ?_, fun piece there => ?_⟩⟩
      · rw [slicesOn_track, slicesOn_append, slicesOn_append, slicesOn_append, ofTrack,
          slicesOn_peaks eachPeak, isRest]
        simp
      · have ofPeak : (if uuid = peak ∧ peaks ≠ [] then 1 else 0) ≤
            ((peakTrack next peak snaps).flatMap Piece.describes).count uuid := by
          split
          · next both =>
              obtain ⟨rfl, somePeak⟩ := both
              cases eachPeak with
              | nil => exact absurd rfl somePeak
              | cons => simp [peakTrack, Piece.describes]
          · exact Nat.zero_le _
        simp only [flatMap_cons, flatMap_append, count_append, length_append, count'] at count ⊢
        omega
      · obtain ⟨timing, member, is⟩ := each' piece there
        exact ⟨group, mem_cons_self, timing, (mem_usableTimings.1 member).1, is⟩
      · obtain ⟨group', member, is⟩ := each piece there
        exact ⟨group', mem_cons_of_mem _ member, is⟩

theorem peakSlices_spec {uuid : Nat} {slices : List (Placed × Placed)}
    (peaks : List.Forall₂ (PeakSlice format uuid) snaps slices) :
    (slices.map fun slice => slice.1.ts) = snaps.map PeakSnapshot.ts ∧
      ∀ slice ∈ slices, slice.2.ts = slice.1.ts + 2000000 ∧
        ∃ snap ∈ snaps, PeakSlice format uuid snap slice := by
  induction peaks with
  | nil => simp
  | @cons snap slice snaps slices here _ ih =>
      obtain ⟨times, each⟩ := ih
      obtain ⟨order, isMax, rfl⟩ := id here
      refine ⟨by rw [map_cons, map_cons, times]; rfl, forall_mem_cons.2
        ⟨⟨rfl, snap, mem_cons_self, here⟩, fun slice there => ?_⟩⟩
      obtain ⟨lasts, snap', member, is⟩ := each slice there
      exact ⟨lasts, snap', mem_cons_of_mem _ member, is⟩

theorem AllocationSlice.ts_lt {uuid : Nat} {timing : Lifetime} {slice : Placed × Placed}
    (is : AllocationSlice format hashMap uuid timing slice) : slice.1.ts < slice.2.ts := by
  obtain ⟨_, _, _, _, _, rfl⟩ := is
  simp only [slicePair]
  split <;> omega

end

/-! ### The order of the output -/

/-- The strict order of the sort keys, for begins and ends. -/
def markLt (one two : Placed ⊕ Placed) : Prop :=
  (one.elim id id).ts < (two.elim id id).ts ∨
    (one.elim id id).ts = (two.elim id id).ts ∧ (one.elim id id).order < (two.elim id id).order

instance : IsStrictOrder (Placed ⊕ Placed) markLt where
  irrefl one := by unfold markLt; omega
  trans one two three := by unfold markLt; omega

section

variable {traceMinNs : Nat} {packets : List Placed}

/-- The begins and ends of a track in the order of the output. -/
theorem marks_sorted (arranged : Arranged traceMinNs packets) (uuid : Nat) :
    ((packets.insertionSort Placed.le).filterMap (sliceMark uuid)).Pairwise markLt := by
  have distinct : (packets.insertionSort Placed.le).Pairwise fun one two => one.order ≠ two.order :=
    (perm_insertionSort Placed.le packets).symm.pairwise (arranged.order_increasing.imp Nat.ne_of_lt) Ne.symm
  have strictly : (packets.insertionSort Placed.le).Pairwise fun one two =>
      one.ts < two.ts ∨ one.ts = two.ts ∧ one.order < two.order :=
    (pairwise_insertionSort Placed.le packets).imp₂
      (fun _ _ below differ => by unfold Placed.le at below; omega)
      distinct
  refine List.Pairwise.filterMap _ (fun one two below mark isMark mark' isMark' => ?_) strictly
  rw [markLt, sliceMark_elim isMark, sliceMark_elim isMark']
  exact below

theorem marks_perm (complete : Complete packets) (uuid : Nat) :
    ((packets.insertionSort Placed.le).filterMap (sliceMark uuid)).Perm
    (sliceMarks (madeOn uuid packets)) := by
  rw [← complete.marks uuid]
  exact (perm_insertionSort Placed.le packets).filterMap _

/-- The slices of a track were made one after the other. -/
theorem made_orders (arranged : Arranged traceMinNs packets) (complete : Complete packets) (uuid : Nat) :
    (∀ slice ∈ madeOn uuid packets, slice.1.order < slice.2.order) ∧
      (madeOn uuid packets).Pairwise fun one two => one.1.order < two.1.order ∧ one.2.order < two.1.order ∧
        one.2.order < two.2.order := by
  have inOrder : (packets.filterMap (sliceMark uuid)).Pairwise fun one two =>
      (one.elim id id).order < (two.elim id id).order := by
    refine List.Pairwise.filterMap _ (fun one two below mark isMark mark' isMark' => ?_)
      arranged.order_increasing
    rw [sliceMark_elim isMark, sliceMark_elim isMark']
    exact below
  rw [complete.marks uuid] at inOrder
  obtain ⟨own, others⟩ := pairwise_sliceMarks.1 inOrder
  exact ⟨own, others.imp fun order => ⟨order.1.1, order.2⟩⟩

/-- A slice that is alone on its track is matched. -/
theorem rendered_single (arranged : Arranged traceMinNs packets) (complete : Complete packets) {uuid : Nat}
    (single : madeOn uuid packets = [] ∨ ∃ slice, madeOn uuid packets = [slice] ∧ slice.1.ts < slice.2.ts) :
    (renderedOn uuid (packets.insertionSort Placed.le)).Perm (madeOn uuid packets) := by
  have perm := marks_perm complete uuid
  rcases single with noSlice | ⟨slice, one, forward⟩
  · rw [noSlice] at perm ⊢
    rw [renderedOn, perm_nil.1 perm]
    exact .nil
  · rw [one] at perm ⊢
    refine (matchSlices_perm_iff (pairwise_singleton _ _) ?_ (pairwise_singleton _ _) perm
      (marks_sorted arranged uuid)).2 (pairwise_singleton _ _)
    exact forall_mem_singleton.2 (Or.inl forward)

variable {φ ι : Type*} {format : OverlayFormat φ ι} {snaps : List (PeakSnapshot φ)}

/-- The track of the peaks. -/
theorem rendered_peaks (arranged : Arranged traceMinNs packets) (complete : Complete packets) {peak : Nat}
    (peaks : List.Forall₂ (PeakSlice format peak) snaps (madeOn peak packets))
    (sorted : snaps.Pairwise fun one two => one.ts ≤ two.ts) :
    ((renderedOn peak (packets.insertionSort Placed.le)).Perm (madeOn peak packets) ↔
      snaps.Pairwise fun one two => one.ts + 2000000 ≤ two.ts) ∧
    (((renderedOn peak (packets.insertionSort Placed.le)).map drawnSlice).Perm
      ((madeOn peak packets).map drawnSlice) ↔
      snaps.Pairwise fun one two => one.ts = two.ts ∨ one.ts + 2000000 ≤ two.ts) := by
  have perm := marks_perm complete peak
  obtain ⟨own, orders⟩ := made_orders arranged complete peak
  obtain ⟨times, each⟩ := peakSlices_spec peaks
  generalize madeOn peak packets = slices at *
  -- the starts of the slices are the times of the peaks
  have byStart : ∀ {R : Nat → Nat → Prop}, (slices.Pairwise fun one two => R one.1.ts two.1.ts) ↔
      snaps.Pairwise fun one two => R one.ts two.ts := by
    intro R
    rw [← pairwise_map (f := fun slice : Placed × Placed => slice.1.ts), times, pairwise_map]
  have inTime : slices.Pairwise fun one two => one.1.ts ≤ two.1.ts := byStart.2 sorted
  have facts : slices.Pairwise fun one two =>
      (one.1.ts ≤ two.1.ts ∧ one.2.ts = one.1.ts + 2000000 ∧ two.2.ts = two.1.ts + 2000000) ∧
        one.1.order < two.1.order ∧ one.2.order < two.1.order ∧ one.2.order < two.2.order :=
    (inTime.and orders).imp_of_mem fun memberOne memberTwo ⟨time, order⟩ =>
      ⟨⟨time, (each _ memberOne).1, (each _ memberTwo).1⟩, order⟩
  have inOrder : slices.Pairwise fun one two => markLt (.inl one.1) (.inl two.1) ∧
    markLt (.inr one.2) (.inr two.2) ∧
      (one.2.ts ≤ two.1.ts → markLt (.inr one.2) (.inl two.1)) := facts.imp fun {one two} fact => by
    simp only [markLt, Sum.elim_inl, Sum.elim_inr, id]
    omega
  constructor
  · have decided : slices.Pairwise fun one two =>
        markLt (.inr one.2) (.inl two.1) ∨ markLt (.inl two.1) (.inr one.2) :=
          facts.imp fun {one two} fact => by
      simp only [markLt, Sum.elim_inl, Sum.elim_inr, id]
      omega
    have forward : ∀ slice ∈ slices, markLt (.inl slice.1) (.inr slice.2) := fun slice member => by
      have := (each slice member).1
      simp only [markLt, Sum.elim_inl, Sum.elim_inr, id]
      omega
    rw [← byStart (R := fun one two => one + 2000000 ≤ two), renderedOn, matchSlices_perm_iff
      (inOrder.imp fun ⟨begins, ends, _⟩ => ⟨begins, ends⟩) forward decided perm
        (marks_sorted arranged peak)]
    constructor
    · intro apart
      refine facts.imp₂ (fun one two fact before => ?_) apart
      simp only [markLt, Sum.elim_inl, Sum.elim_inr, id] at before
      omega
    · intro apart
      refine facts.imp₂ (fun one two fact before => ?_) apart
      simp only [markLt, Sum.elim_inl, Sum.elim_inr, id]
      omega
  · rw [← byStart (R := fun one two => one = two ∨ one + 2000000 ≤ two)]
    refine matchSlices_drawn_iff (by decide) (fun one two before => ?_) (fun one two before => ?_)
      (fun slice member => (each slice member).1) inOrder perm (marks_sorted arranged peak)
    · cases one <;> cases two <;> exact Or.inl before
    · cases one <;> cases two <;>
        simp only [markLt, markTime, Sum.elim_inl, Sum.elim_inr, id] at before ⊢ <;> omega

end

/-! ### The result -/

theorem extractPeakSnapshots_sorted {φ ι : Type*} {format : OverlayFormat φ ι} {zlib : Zlib} {depth : Nat}
    {trace : Bytes}
    {snaps : List (PeakSnapshot φ)} (peaked : extractPeakSnapshots format zlib depth trace = some snaps) :
    snaps.Pairwise fun one two => one.ts ≤ two.ts := by
  obtain ⟨events, _, peaked⟩ := bind_eq_some_iff.1 peaked
  obtain ⟨found, _, rfl⟩ := map_eq_some_iff.1 peaked
  have : Std.Total fun one two : PeakSnapshot φ => one.ts ≤ two.ts := ⟨fun one two => Nat.le_total _ _⟩
  have : IsTrans (PeakSnapshot φ) fun one two => one.ts ≤ two.ts := ⟨fun _ _ _ => Nat.le_trans⟩
  exact pairwise_insertionSort (fun one two : PeakSnapshot φ => one.ts ≤ two.ts) _

/-- The slices of the groups: what they were made for, and when the matching finds them. -/
theorem addGroups_rendered {φ ι : Type*} {format : OverlayFormat φ ι} {traceMinNs nextUuid : Nat}
    {overlay : Overlay}
    {timings : List Lifetime} {snaps : List (PeakSnapshot φ)} {groups : List (TrackGroup ι)}
    (added : addGroups format traceMinNs timings snaps groups { nextUuid := nextUuid } = some overlay)
    (sorted : snaps.Pairwise fun one two => one.ts ≤ two.ts) :
    (∀ uuid, overlay.packets.filterMap (sliceMark uuid) = sliceMarks (madeOn uuid overlay.packets) ∧
      ∀ slice ∈ madeOn uuid overlay.packets, (∃ snap ∈ snaps, PeakSlice format uuid snap slice) ∨
        ∃ group ∈ groups, ∃ timing ∈ timings, AllocationSlice format group.2 uuid timing slice) ∧
    ((∀ uuid, (renderedOn uuid (overlay.packets.insertionSort Placed.le)).Perm
      (madeOn uuid overlay.packets)) ↔
      (groups ≠ [] → snaps.Pairwise fun one two => one.ts + 2000000 ≤ two.ts)) ∧
    ((∀ uuid, ((renderedOn uuid (overlay.packets.insertionSort Placed.le)).map drawnSlice).Perm
        ((madeOn uuid overlay.packets).map drawnSlice)) ↔
      (groups ≠ [] → snaps.Pairwise fun one two => one.ts = two.ts ∨ one.ts + 2000000 ≤ two.ts)) := by
  obtain ⟨pieces, groupPieces, gains⟩ := addGroups_gains added
  have isPlaced : overlay.packets = placePieces traceMinNs 0 pieces := gains.packets
  obtain ⟨complete, made⟩ := placePieces_made traceMinNs 0 pieces
  have arranged : Arranged traceMinNs (placePieces traceMinNs 0 pieces) := groupPieces.arranged
  rw [← isPlaced] at complete made arranged
  obtain ⟨peak, peaks, eachPeak, others⟩ := groupPieces.slices
  have once (uuid : Nat) : (pieces.flatMap Piece.describes).count uuid ≤ 1 :=
    nodup_iff_count_le_one.1 (groupPieces.describes.nodup_iff.2 nodup_range') uuid
  have single (uuid : Nat) (other : uuid = peak → peaks = []) : madeOn uuid overlay.packets = [] ∨
      ∃ slice, madeOn uuid overlay.packets = [slice] ∧
        ∃ group ∈ groups, ∃ timing ∈ timings, AllocationSlice format group.2 uuid timing slice := by
    obtain ⟨own, isOwn, count, each⟩ := others uuid
    have noPeak : (if uuid = peak then peaks else []) = [] := by
      split
      · next same => exact other same
      · rfl
    have pairs := made uuid
    rw [isOwn, noPeak, nil_append] at pairs
    have few := once uuid
    generalize madeOn uuid overlay.packets = slices at pairs
    cases pairs with
    | nil => exact .inl rfl
    | cons isPair later =>
        cases later with
        | nil =>
            obtain ⟨group, there, timing, member, is⟩ := each _ mem_cons_self
            exact .inr ⟨_, rfl, group, there, timing, member, is _ isPair⟩
        | cons =>
            simp only [length_cons] at count
            omega
  have onPeak (somePeak : peaks ≠ []) :
      List.Forall₂ (PeakSlice format peak) (if groups = [] then [] else snaps)
        (madeOn peak overlay.packets) := by
    obtain ⟨own, isOwn, count, _⟩ := others peak
    have few := once peak
    rw [if_pos ⟨rfl, somePeak⟩] at count
    obtain rfl : own = [] := length_eq_zero_iff.1 (by omega)
    have pairs := made peak
    rw [isOwn, if_pos rfl, append_nil] at pairs
    exact peaks_pairs eachPeak pairs
  have alone (uuid : Nat) (other : uuid = peak → peaks = []) :
      (renderedOn uuid (overlay.packets.insertionSort Placed.le)).Perm (madeOn uuid overlay.packets) :=
    rendered_single arranged complete ((single uuid other).imp_right fun ⟨slice, one, _, _, _, _, is⟩ =>
      ⟨slice, one, is.ts_lt⟩)
  have condition {R : PeakSnapshot φ → PeakSnapshot φ → Prop} :
      (if groups = [] then [] else snaps).Pairwise R ↔ (groups ≠ [] → snaps.Pairwise R) := by
    split <;> simp [*]
  have members : ∀ snap ∈ if groups = [] then [] else snaps, snap ∈ snaps := by
    split <;> simp
  refine ⟨fun uuid => ⟨complete.marks uuid, fun slice member => ?_⟩, ?_⟩
  · by_cases isPeak : uuid = peak → peaks = []
    · rcases single uuid isPeak with noSlice | ⟨only, one, is⟩
      · rw [noSlice] at member
        cases member
      · rw [one, mem_singleton] at member
        exact .inr (member ▸ is)
    · obtain ⟨rfl, somePeak⟩ := Classical.not_imp.1 isPeak
      obtain ⟨_, snap, there, is⟩ := (peakSlices_spec (onPeak somePeak)).2 slice member
      exact .inl ⟨snap, members snap there, is⟩
  rw [← condition, ← condition]
  by_cases noPeak : peaks = []
  · -- without peaks every track has at most one slice
    subst noPeak
    rw [forall₂_nil_right_iff.1 eachPeak]
    exact ⟨iff_of_true (fun uuid => alone uuid fun _ => rfl) .nil,
      iff_of_true (fun uuid => (alone uuid fun _ => rfl).map _) .nil⟩
  · obtain ⟨paired, drawn⟩ := rendered_peaks arranged complete (onPeak noPeak) (condition.2 fun _ => sorted)
    rw [← paired, ← drawn]
    refine ⟨⟨fun all => all peak, fun atPeak uuid => ?_⟩, ⟨fun all => all peak, fun atPeak uuid => ?_⟩⟩
    · by_cases same : uuid = peak
      · exact same ▸ atPeak
      · exact alone uuid fun is => absurd is same
    · by_cases same : uuid = peak
      · exact same ▸ atPeak
      · exact (alone uuid fun is => absurd is same).map _

/-- The output holds the new packets in the order of their sort keys; their begins and ends are those of
the slices made. Every begin is matched with its own end exactly if, where there is a group, the peaks are
at least 2 ms apart; and the slices drawn are right exactly if any two peaks are at the same time or at
least 2 ms apart. -/
theorem build_tracks_slices_iff {φ ι : Type*} {format : OverlayFormat φ ι} {zlib : Zlib} {depth : Nat}
    {trace out : Bytes} {groups : List (TrackGroup ι)} {stripMarkers : Bool}
    {stats : List (Bytes × Nat × Nat)} {stripped : Nat} {timings : List Lifetime}
    {snaps : List (PeakSnapshot φ)} (timed : extractTimings zlib depth trace = some timings)
    (peaked : extractPeakSnapshots format zlib depth trace = some snaps)
    (built : buildTracks format zlib depth trace groups stripMarkers = some (out, stats, stripped)) :
    ∃ kept metadata overlay,
      (if stripMarkers then stripAllocMarkers zlib depth trace else some (trace, 0)) =
      some (kept, stripped) ∧
      analyzeTrace zlib depth kept = some metadata ∧
      addGroups format metadata.traceMinNs timings snaps groups
      { nextUuid := metadata.nextUuid } = some overlay ∧
      (∃ items : List MergedItem, out = (items.map itemRoot).flatten ∧
        items.filterMap Sum.getRight? = (overlay.packets.insertionSort Placed.le).map
          (Placed.entry metadata.overlaySequenceId metadata.primaryClockId)) ∧
      (∀ uuid, overlay.packets.filterMap (sliceMark uuid) = sliceMarks (madeOn uuid overlay.packets) ∧
        ∀ slice ∈ madeOn uuid overlay.packets, (∃ snap ∈ snaps, PeakSlice format uuid snap slice) ∨
          ∃ group ∈ groups, ∃ timing ∈ timings, AllocationSlice format group.2 uuid timing slice) ∧
      ((∀ uuid, (renderedOn uuid (overlay.packets.insertionSort Placed.le)).Perm
        (madeOn uuid overlay.packets)) ↔
        (groups ≠ [] → snaps.Pairwise fun one two => one.ts + 2000000 ≤ two.ts)) ∧
      ((∀ uuid, ((renderedOn uuid (overlay.packets.insertionSort Placed.le)).map drawnSlice).Perm
          ((madeOn uuid overlay.packets).map drawnSlice)) ↔
        (groups ≠ [] → snaps.Pairwise fun one two => one.ts = two.ts ∨ one.ts + 2000000 ≤ two.ts)) := by
  obtain ⟨kept, metadata, overlay, keeps, analyzed, added, isMerged⟩ := buildTracks_cases timed peaked built
  refine ⟨kept, metadata, overlay, keeps, analyzed, added, ?_,
    addGroups_rendered added (extractPeakSnapshots_sorted peaked)⟩
  obtain ⟨entries, all, _⟩ := bind_eq_some_iff.1 isMerged
  rw [mergeOverlayPackets_eq all] at isMerged
  obtain ⟨items, merged, rfl⟩ := map_eq_some_iff.1 isMerged
  exact ⟨items, rfl, (mergeItems_sides merged).2.trans (insertionSort_entries _ _ _)⟩

/-- Two peaks, the first at the time 10. -/
def twoPeaks (second : Nat) : Bytes :=
  encodeLenField 1 clockPacket ++ encodeLenField 1 (printPacket
    [(10, "I|7|malloc_hook_peak_snapshot total_mb=2 host_mb=1 dma_mb=1"),
      (second, "I|7|malloc_hook_peak_snapshot total_mb=3 host_mb=2 dma_mb=1")])

/-- Peaks that are 2 ms apart are drawn as they should be. -/
theorem build_tracks_slices_apart :
    ∃ timings snaps metadata overlay, extractTimings .stored 1 (twoPeaks 2000010) = some timings ∧
      extractPeakSnapshots plainFormat .stored 1 (twoPeaks 2000010) = some snaps ∧
      analyzeTrace .stored 1 (twoPeaks 2000010) = some metadata ∧
      addGroups plainFormat metadata.traceMinNs timings snaps [([], [])]
      { nextUuid := metadata.nextUuid } = some overlay ∧
      (madeOn 2 overlay.packets).map drawnSlice = [(10, 2000010, some []), (2000010, 4000010, some [])] ∧
      (renderedOn 2 (overlay.packets.insertionSort Placed.le)).Perm (madeOn 2 overlay.packets) := by
  generalize isTrace : twoPeaks 2000010 = trace
  obtain ⟨timings, timed, snaps, peaked, metadata, accepted, overlay, added, ⟨out, stats, stripped⟩,
    built, facts⟩ :
      ∃ timings ∈ extractTimings .stored 1 trace, ∃ snaps ∈ extractPeakSnapshots plainFormat .stored 1 trace,
      ∃ metadata ∈ analyzeTrace .stored 1 trace,
      ∃ overlay ∈ addGroups plainFormat metadata.traceMinNs timings snaps [([], [])]
        { nextUuid := metadata.nextUuid },
      ∃ _ ∈ buildTracks plainFormat .stored 1 trace [([], [])] false,
        decide (snaps.map PeakSnapshot.ts = [10, 2000010] ∧
        (madeOn 2 overlay.packets).map drawnSlice =
          [(10, 2000010, some []), (2000010, 4000010, some [])]) := by
    rw [← isTrace]
    decide +kernel
  obtain ⟨times, made⟩ := of_decide_eq_true facts
  obtain ⟨kept, metadata', overlay', keeps, analyzed, added', _, _, paired, _⟩ :=
    build_tracks_slices_iff timed peaked built
  cases keeps
  cases accepted.symm.trans analyzed
  cases added.symm.trans added'
  refine ⟨timings, snaps, metadata, overlay, timed, peaked, accepted, added, made, paired.2 (fun _ => ?_) 2⟩
  have apart : (snaps.map PeakSnapshot.ts).Pairwise fun one two => one + 2000000 ≤ two := by
    rw [times]
    decide
  exact pairwise_map.1 apart

/-- Peaks that are 1 ms apart: the end of the first closes the second, which is drawn for 1 ms, and the
first is drawn for 3 ms. -/
theorem build_tracks_slices_closePeaks :
    ∃ timings snaps metadata overlay, extractTimings .stored 1 (twoPeaks 1000010) = some timings ∧
      extractPeakSnapshots plainFormat .stored 1 (twoPeaks 1000010) = some snaps ∧
      analyzeTrace .stored 1 (twoPeaks 1000010) = some metadata ∧
      addGroups plainFormat metadata.traceMinNs timings snaps [([], [])]
      { nextUuid := metadata.nextUuid } = some overlay ∧
      (buildTracks plainFormat .stored 1 (twoPeaks 1000010) [([], [])] false).isSome ∧
      (madeOn 2 overlay.packets).map drawnSlice = [(10, 2000010, some []), (1000010, 3000010, some [])] ∧
      (renderedOn 2 (overlay.packets.insertionSort Placed.le)).map drawnSlice =
        [(1000010, 2000010, some []), (10, 3000010, some [])] := by
  generalize isTrace : twoPeaks 1000010 = trace
  obtain ⟨timings, timed, snaps, peaked, metadata, accepted, overlay, added, facts⟩ :
      ∃ timings ∈ extractTimings .stored 1 trace, ∃ snaps ∈ extractPeakSnapshots plainFormat .stored 1 trace,
      ∃ metadata ∈ analyzeTrace .stored 1 trace,
      ∃ overlay ∈ addGroups plainFormat metadata.traceMinNs timings snaps [([], [])]
        { nextUuid := metadata.nextUuid },
        decide ((buildTracks plainFormat .stored 1 trace [([], [])] false).isSome ∧
        (madeOn 2 overlay.packets).map drawnSlice = [(10, 2000010, some []), (1000010, 3000010, some [])] ∧
        (renderedOn 2 (overlay.packets.insertionSort Placed.le)).map drawnSlice =
          [(1000010, 2000010, some []), (10, 3000010, some [])]) := by
    rw [← isTrace]
    decide +kernel
  exact ⟨timings, snaps, metadata, overlay, timed, peaked, accepted, added, of_decide_eq_true facts⟩

end MallocHook
