/-
Module: MallocHook.Proofs.TrackPieces
Purpose: What `build_tracks` adds for its groups, as a list of pieces: a piece is a track, or a slice
  with its begin and its end.
Trusted boundary: none
Main exports: AllocationPieces, GroupPieces, addGroups_gains
-/
import MallocHook.Core.TrackOverlay

namespace MallocHook

open WireFormat Option

/-- What is added in one go. -/
inductive Piece where
  | track (uuid : Nat) (name : Bytes) (parent childOrdering siblingOrderRank : Option Nat)
  | slice (uuid start stop : Nat) (label : Bytes)

/-- The packets of pieces, from an order on. Only a track at the top can be the first packet. -/
def placePieces (traceMinNs : Nat) : Nat → List Piece → List Placed
  | _, [] => []
  | order, .track uuid name parent childOrdering siblingOrderRank :: rest =>
      ⟨.descriptor uuid name (parent.isNone && order == 0) parent childOrdering siblingOrderRank,
        traceMinNs, order⟩ ::
        placePieces traceMinNs (order + 1) rest
  | order, .slice uuid start stop label :: rest =>
      ⟨.slice uuid start typeSliceBegin (some label), start, order⟩ ::
        ⟨.slice uuid stop typeSliceEnd none, stop, order + 1⟩ ::
        placePieces traceMinNs (order + 2) rest

theorem placePieces_append (traceMinNs order : Nat) (front back : List Piece) :
    placePieces traceMinNs order (front ++ back) = placePieces traceMinNs order front ++
      placePieces traceMinNs (order + (placePieces traceMinNs order front).length) back := by
  fun_induction placePieces traceMinNs order front with
  | case1 order => rfl
  | case2 _ _ _ _ _ _ _ ih | case3 _ _ _ _ _ _ ih =>
      rw [List.cons_append, placePieces, ih, Nat.add_right_comm]
      rfl

/-- The packets of pieces were added. -/
structure Overlay.Gains (traceMinNs : Nat) (overlay : Overlay) (pieces : List Piece)
    (overlay' : Overlay) : Prop where
  packets : overlay'.packets = overlay.packets ++ placePieces traceMinNs overlay.order pieces
  order : overlay'.order = overlay.order + (placePieces traceMinNs overlay.order pieces).length

namespace Overlay.Gains

variable {traceMinNs : Nat} {overlay overlay' overlay'' : Overlay} {front back : List Piece}

theorem refl (overlay : Overlay) : overlay.Gains traceMinNs [] overlay := ⟨(List.append_nil _).symm, rfl⟩

theorem trans (first : overlay.Gains traceMinNs front overlay')
    (second : overlay'.Gains traceMinNs back overlay'') :
    overlay.Gains traceMinNs (front ++ back) overlay'' where
  packets := by rw [second.packets, first.packets, first.order, placePieces_append, List.append_assoc]
  order := by rw [second.order, first.order, placePieces_append, List.length_append, Nat.add_assoc]

theorem cons {piece : Piece} (first : overlay.Gains traceMinNs [piece] overlay')
    (second : overlay'.Gains traceMinNs back overlay'') :
    overlay.Gains traceMinNs (piece :: back) overlay'' :=
  first.trans second

theorem slice (overlay : Overlay) (uuid start stop : Nat) (label : Bytes) :
    overlay.Gains traceMinNs [.slice uuid start stop label]
    ((overlay.add (.slice uuid start typeSliceBegin (some label)) start).add
      (.slice uuid stop typeSliceEnd none) stop) :=
  ⟨by simp [add, placePieces], rfl⟩

end Overlay.Gains

variable {φ ι : Type*} (format : OverlayFormat φ ι)

/-- The slice of a peak: 2 ms. -/
def PeakPiece (uuid : Nat) (snap : PeakSnapshot φ) (piece : Piece) : Prop :=
  ∃ isMax, piece = .slice uuid snap.ts (snap.ts + 2000000)
    (format.peakSliceName snap.totalMb snap.hostMb snap.dmaMb isMax)

/-- The track of the peaks, if there are any. -/
def peakTrack (parent uuid : Nat) (snaps : List (PeakSnapshot φ)) : List Piece :=
  if snaps.isEmpty then [] else [.track uuid (asciiBytes "[memory hook] Peak") (some parent) none (some 0)]

/-- The lifetimes of a group from a rank on: each has a track and on it its slice, or one of 1 ms if it is
empty. -/
inductive AllocationPieces (parent : Nat) (hashMap : List (Nat × ι)) : Nat → List Lifetime →
    List Piece → Prop
  | nil {rank : Nat} : AllocationPieces parent hashMap rank [] []
  | cons {rank : Nat} {timing : Lifetime} {later : List Lifetime} {info : ι} {label : Bytes}
    {pieces : List Piece} :
      hashMap.lookup timing.hashIndex = some info →
      format.sliceName info timing.hashIndex timing.sizeBytes = some label →
      AllocationPieces parent hashMap (rank + 1) later pieces →
      AllocationPieces parent hashMap rank (timing :: later)
        (.track (parent + 1 + rank) (subTrackName (rank + 1)) (some parent) none (some (rank + 1)) ::
          .slice (parent + 1 + rank) timing.ts (timing.ts + if timing.dur > 0 then timing.dur
          else 1000000) label ::
          pieces)

/-- The groups, with uuids from `next` up to `last`: each has a track and its lifetimes. Only the first
has the peaks; their track comes before the lifetimes, its uuid after theirs. -/
inductive GroupPieces (timings : List Lifetime) (last : Nat) :
    Nat → List (PeakSnapshot φ) → List (TrackGroup ι) → List Piece → Prop
  | nil {snaps : List (PeakSnapshot φ)} : GroupPieces timings last last snaps [] []
  | cons {next peak : Nat} {snaps : List (PeakSnapshot φ)} {group : TrackGroup ι}
    {later : List (TrackGroup ι)}
      {peaks allocations rest : List Piece} : peak = next + 1 + (usableTimings timings group.2).length →
      List.Forall₂ (PeakPiece format peak) snaps peaks →
      AllocationPieces format next group.2 0 (usableTimings timings group.2) allocations →
      GroupPieces timings last (peak + if snaps.isEmpty then 0 else 1) [] later rest →
      GroupPieces timings last next snaps (group :: later)
        (.track next group.1 none (some childOrderingExplicit) none ::
          (peakTrack next peak snaps ++ peaks ++ (allocations ++ rest)))

variable {format} {traceMinNs : Nat} {overlay overlay' : Overlay} {parent : Nat}

variable (format traceMinNs) in
theorem addPeaks_fold_gains (uuid : Nat) (maxTotal : φ) (snaps : List (PeakSnapshot φ))
    (state : Overlay × Bool) :
    ∃ pieces, List.Forall₂ (PeakPiece format uuid) snaps pieces ∧
      state.1.Gains traceMinNs pieces (snaps.foldl (addPeak format uuid maxTotal) state).1 ∧
      (snaps.foldl (addPeak format uuid maxTotal) state).1.nextUuid = state.1.nextUuid := by
  induction snaps generalizing state with
  | nil => exact ⟨[], .nil, .refl _, rfl⟩
  | cons snap later ih =>
      obtain ⟨pieces, each, gains, next⟩ := ih (addPeak format uuid maxTotal state snap)
      exact ⟨_, .cons ⟨!state.2 && format.le maxTotal snap.totalMb, rfl⟩ each, .cons (.slice ..) gains, next⟩

variable (format traceMinNs parent) in
theorem addPeaks_gains (snaps : List (PeakSnapshot φ)) (overlay : Overlay) :
    ∃ pieces, List.Forall₂ (PeakPiece format overlay.nextUuid) snaps pieces ∧
      overlay.Gains traceMinNs (peakTrack parent overlay.nextUuid snaps ++ pieces)
        (addPeaks format traceMinNs parent snaps overlay) ∧
      (addPeaks format traceMinNs parent snaps overlay).nextUuid =
      overlay.nextUuid + if snaps.isEmpty then 0 else 1 := by
  cases snaps with
  | nil => exact ⟨[], .nil, .refl _, rfl⟩
  | cons first later =>
      obtain ⟨pieces, each, gains, next⟩ := addPeaks_fold_gains format traceMinNs overlay.nextUuid
        (later.foldl (fun best snap => if format.le snap.totalMb best then best
          else snap.totalMb) first.totalMb)
        (first :: later) ({ overlay with nextUuid := overlay.nextUuid + 1 }.add
          (.descriptor overlay.nextUuid (asciiBytes "[memory hook] Peak") false (some parent) none
            (some 0)) traceMinNs, false)
      exact ⟨pieces, each, .cons ⟨rfl, rfl⟩ gains, next⟩

theorem addAllocations_gains {hashMap : List (Nat × ι)} {usable : List Lifetime} {rank : Nat}
    (added : addAllocations format traceMinNs parent hashMap (usable.zipIdx rank) overlay = some overlay') :
    overlay'.nextUuid = overlay.nextUuid ∧
      ∃ pieces, AllocationPieces format parent hashMap rank usable pieces ∧
      overlay.Gains traceMinNs pieces overlay' := by
  induction usable generalizing overlay rank with
  | nil =>
      cases added
      exact ⟨rfl, [], .nil, .refl _⟩
  | cons timing later ih =>
      rw [List.zipIdx_cons, addAllocations, List.foldlM_cons] at added
      obtain ⟨between, here, addedLater⟩ := bind_eq_some_iff.1 added
      obtain ⟨info, known, here⟩ := bind_eq_some_iff.1 here
      obtain ⟨label, named, rfl⟩ := map_eq_some_iff.1 here
      obtain ⟨next, pieces, each, gains⟩ := ih addedLater
      exact ⟨next, _, .cons known named each, .cons ⟨rfl, rfl⟩ (.cons (.slice ..) gains)⟩

/-- What the groups add. -/
theorem addGroups_gains {timings : List Lifetime} {snaps : List (PeakSnapshot φ)}
    {groups : List (TrackGroup ι)}
    (added : addGroups format traceMinNs timings snaps groups overlay = some overlay') :
    ∃ pieces, GroupPieces format timings overlay'.nextUuid overlay.nextUuid snaps groups pieces ∧
      overlay.Gains traceMinNs pieces overlay' := by
  induction groups generalizing overlay snaps with
  | nil =>
      cases added
      exact ⟨[], .nil, .refl _⟩
  | cons group later ih =>
      obtain ⟨between, here, addedLater⟩ := bind_eq_some_iff.1 added
      obtain ⟨next, allocations, eachAllocation, gainsAllocations⟩ := addAllocations_gains here
      obtain ⟨peaks, eachPeak, gainsPeaks, nextPeak⟩ :=
        addPeaks_gains format traceMinNs overlay.nextUuid snaps
        ({ overlay with nextUuid := overlay.nextUuid + 1 + (usableTimings timings group.2).length }.add
          (.descriptor overlay.nextUuid group.1 (overlay.order == 0) none (some childOrderingExplicit)
            none) traceMinNs)
      obtain ⟨rest, eachRest, gainsRest⟩ := ih addedLater
      rw [next.trans nextPeak] at eachRest
      exact ⟨_, .cons rfl eachPeak eachAllocation eachRest,
        .cons ⟨rfl, rfl⟩ (gainsPeaks.trans (gainsAllocations.trans gainsRest))⟩

end MallocHook
