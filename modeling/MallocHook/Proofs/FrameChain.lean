/-
Module: MallocHook.Proofs.FrameChain
Purpose: The frame-pointer walk on any contents of the memory. The frame records form a finite chain,
  and the walk reads a part of it from its start.
Trusted boundary: none
Main exports: exists_frameChain, frame_pointer_walk
-/
import MallocHook.Lib.Links
import MallocHook.Core.FramePointer

namespace MallocHook

open List

/-! ### The chain -/

theorem frameRecordFitsStack_iff {fp low high : UInt64} :
    frameRecordFitsStack fp low high = true ↔ fp.toNat % 8 = 0 ∧ low ≤ fp ∧ fp.toNat + 16 ≤ high.toNat := by
  have aligned : (fp &&& 7 == 0) = true ↔ fp.toNat % 8 = 0 := by
    rw [beq_iff_eq, ← UInt64.toNat_inj, UInt64.toNat_and]
    exact Eq.congr (Nat.and_two_pow_sub_one_eq_mod fp.toNat 3) rfl
  unfold frameRecordFitsStack
  simp only [Bool.and_eq_true, aligned, decide_eq_true_eq, ge_iff_le, and_assoc]
  refine and_congr_right fun _ => and_congr_right fun _ => ?_
  constructor
  · rintro ⟨below, space⟩
    rw [UInt64.le_iff_toNat_le, UInt64.toNat_sub_of_le _ _ below] at space
    rw [UInt64.le_iff_toNat_le] at below
    change 16 ≤ _ at space
    omega
  · intro fits
    have below : fp ≤ high := UInt64.le_iff_toNat_le.2 (by omega)
    refine ⟨below, ?_⟩
    rw [UInt64.le_iff_toNat_le, UInt64.toNat_sub_of_le _ _ below]
    change 16 ≤ _
    omega

variable (memory : ByteMemory) (strip : UInt64 → UInt64) (bounds : StackBounds)

/-- A frame pointer, if there is a frame record in the stack. -/
def frameAt (fp : UInt64) : Option UInt64 :=
  if frameRecordFitsStack fp bounds.low bounds.high then some fp else none

/-- The frame of the caller, if it is nearer to the base of the stack. -/
def callerFrame (fp : UInt64) : Option UInt64 :=
  if memory.word fp ≤ fp then none else frameAt bounds (memory.word fp)

/-- The frames of a thread, the innermost one first. -/
def FrameChain (fp : UInt64) (frames : List UInt64) : Prop :=
  Linked (callerFrame memory bounds) (frameAt bounds fp) frames

/-- The return addresses of frames that have one. -/
def returnAddresses (frames : List UInt64) : List UInt64 :=
  (frames.map fun fp => memory.word (fp + 8)).filter fun lr => lr != 0

variable {memory bounds}

theorem frameAt_eq_some {fp frame : UInt64} (isFrame : frameAt bounds fp = some frame) :
    fp = frame ∧ frameRecordFitsStack frame bounds.low bounds.high := by
  unfold frameAt at isFrame
  split_ifs at isFrame with fits
  cases isFrame
  exact ⟨rfl, fits⟩

theorem callerFrame_eq_some {fp frame : UInt64} (isCaller : callerFrame memory bounds fp = some frame) :
    fp < frame ∧ frameRecordFitsStack frame bounds.low bounds.high := by
  unfold callerFrame at isCaller
  split_ifs at isCaller with notAbove
  obtain ⟨rfl, fits⟩ := frameAt_eq_some isCaller
  exact ⟨UInt64.not_le.1 notAbove, fits⟩

/-- There is a chain, and it is no longer than the stack. -/
theorem exists_frameChain (memory : ByteMemory) (bounds : StackBounds) (fp : UInt64) :
    ∃ frames, FrameChain memory bounds fp frames ∧ frames.length ≤ bounds.high.toNat + 1 := by
  have progress {frame frame' : UInt64} (isCaller : callerFrame memory bounds frame = some frame') :
      bounds.high.toNat - frame'.toNat < bounds.high.toNat - frame.toNat := by
    obtain ⟨above, fits⟩ := callerFrame_eq_some isCaller
    have inside := (frameRecordFitsStack_iff.1 fits).2.2
    have := UInt64.lt_iff_toNat_lt.1 above
    omega
  obtain ⟨frames, chain, few⟩ := Linked.exists_of_progress progress (frameAt bounds fp)
  refine ⟨frames, chain, ?_⟩
  cases frames with
  | nil => exact Nat.zero_le _
  | cons frame callers =>
      have first : frameAt bounds fp = some frame := chain.head_eq
      exact (few frame first).trans (Nat.add_le_add_right (Nat.sub_le _ _) 1)

/-- Every frame of a chain lies in the stack, and its callers are nearer to the base. -/
theorem FrameChain.safe {fp : UInt64} {frames : List UInt64} (chain : FrameChain memory bounds fp frames) :
    (∀ frame ∈ frames, frameRecordFitsStack frame bounds.low bounds.high) ∧ frames.Pairwise (· < ·) := by
  unfold FrameChain at chain
  constructor
  · exact chain.forall_mem (fun frame first => (frameAt_eq_some first).2)
      fun frame frame' isCaller _ => (callerFrame_eq_some isCaller).2
  · exact chain.pairwise (fun isCaller => (callerFrame_eq_some isCaller).1) UInt64.lt_trans

/-! ### The walk -/

namespace FrameWalk

variable {outputLimit : Nat} (walk : FrameWalk outputLimit) (returns : List UInt64)

/-- The PCs after some more return addresses. -/
def kept : List UInt64 :=
  walk.pcs ++ ((returns.drop walk.skip).take (outputLimit - walk.pcs.length)).map strip

/-- There is no room for all of them. -/
def Overflows : Prop := outputLimit - walk.pcs.length < returns.length - walk.skip

instance : Decidable (walk.Overflows returns) := inferInstanceAs (Decidable (_ < _))

variable {walk strip}

theorem note_eq_none {lr : UInt64} (stopped : walk.note strip lr = none) :
    lr ≠ 0 ∧ walk.skip = 0 ∧ walk.pcs.length = outputLimit := by
  unfold note at stopped
  split_ifs at stopped with nonzero skips full
  exact ⟨by simpa using nonzero, by simpa using skips, Nat.le_antisymm walk.room full⟩

/-- Noting a return address keeps what is to come. -/
theorem note_eq_some {walk' : FrameWalk outputLimit} {lr : UInt64} (noted : walk.note strip lr = some walk')
    (later : List UInt64) :
    walk'.kept strip later = walk.kept strip ([lr].filter (fun lr => lr != 0) ++ later) ∧
      (walk'.Overflows later ↔ walk.Overflows ([lr].filter (fun lr => lr != 0) ++ later)) ∧
      walk'.reads = walk.reads ∧ walk'.truncated = walk.truncated := by
  unfold note at noted
  split_ifs at noted with nonzero skips full
  · cases noted
    obtain ⟨skip, isSkip⟩ := Nat.exists_eq_succ_of_ne_zero (show walk.skip ≠ 0 by simpa using skips)
    simp [kept, Overflows, nonzero, isSkip]
  · cases noted
    have noSkip : walk.skip = 0 := by simpa using skips
    obtain ⟨room, isRoom⟩ := Nat.exists_eq_succ_of_ne_zero (show outputLimit - walk.pcs.length ≠ 0 by omega)
    have less : outputLimit - (walk.pcs.length + 1) = room := by omega
    simp [kept, Overflows, nonzero, noSkip, isRoom, less]
  · cases noted
    have zero : lr = 0 := by simpa using nonzero
    simp [kept, Overflows, zero]

end FrameWalk

variable {outputLimit : Nat}

/-- With enough fuel, the walk keeps the return addresses of the chain for which there is room, and reads
frames of the chain. -/
theorem walkFrames_spec {fp : UInt64} {frames : List UInt64} (chain : FrameChain memory bounds fp frames)
    {fuel : Nat} (enough : frames.length < fuel) {walk : FrameWalk outputLimit}
    (unfinished : walk.truncated = false) :
    ∃ final, walkFrames memory strip bounds fuel fp walk = some final ∧
      final.pcs = walk.kept strip (returnAddresses memory frames) ∧
      final.truncated = decide (walk.Overflows (returnAddresses memory frames)) ∧
      ∃ visited, visited <+: frames ∧ final.reads = walk.reads ++ visited := by
  induction frames generalizing fp fuel walk with
  | nil =>
      obtain ⟨fuel, rfl⟩ := Nat.exists_eq_succ_of_ne_zero (Nat.ne_of_gt enough)
      have outside : frameRecordFitsStack fp bounds.low bounds.high = false := by
        have noFrame : frameAt bounds fp = none := chain.start_eq_none
        simpa [frameAt] using noFrame
      refine ⟨walk, by simp [walkFrames, outside], ?_, ?_, [], nil_prefix, (append_nil _).symm⟩
      · simp [FrameWalk.kept, returnAddresses]
      · simp [FrameWalk.Overflows, returnAddresses, unfinished]
  | cons frame callers ih =>
      obtain ⟨fuel, rfl⟩ := Nat.exists_eq_succ_of_ne_zero (Nat.ne_of_gt (Nat.zero_lt_of_lt enough))
      obtain ⟨rfl, fits⟩ := frameAt_eq_some chain.head_eq
      have split : returnAddresses memory (fp :: callers) =
          [memory.word (fp + 8)].filter (fun lr => lr != 0) ++ returnAddresses memory callers := by
        rw [returnAddresses, map_cons, ← singleton_append, filter_append]
        rfl
      rw [split]
      unfold walkFrames
      simp only [fits, Bool.not_true, Bool.false_eq_true, if_false]
      cases noted : FrameWalk.note strip { walk with reads := walk.reads ++ [fp] }
        (memory.word (fp + 8)) with
      | none =>
          obtain ⟨nonzero, noSkip, full⟩ := FrameWalk.note_eq_none noted
          dsimp only at noSkip full
          refine ⟨_, rfl, ?_, ?_, [fp], ⟨callers, rfl⟩, rfl⟩
          · simp [FrameWalk.kept, full]
          · simp [FrameWalk.Overflows, noSkip, full, nonzero]
      | some noting =>
          obtain ⟨keeps, overflows, reads, truncated⟩ :=
            FrameWalk.note_eq_some noted (returnAddresses memory callers)
          dsimp only at reads truncated ⊢
          have tail : Linked (callerFrame memory bounds) (callerFrame memory bounds fp) callers := chain.tail
          unfold callerFrame at tail
          split_ifs at tail ⊢ with notAbove
          · cases tail
            refine ⟨noting, rfl, ?_, ?_, [fp], prefix_rfl, reads⟩
            · have nothing : noting.kept strip (returnAddresses memory []) = noting.pcs := by
                simp [FrameWalk.kept, returnAddresses]
              exact nothing.symm.trans keeps
            · rw [truncated, unfinished]
              exact (decide_eq_false (overflows.not.1 (by simp [FrameWalk.Overflows, returnAddresses]))).symm
          · obtain ⟨final, walked, pcs, isTruncated, visited, isPrefix, isReads⟩ :=
              ih tail (Nat.lt_of_succ_lt_succ enough) (truncated.trans unfinished)
            refine ⟨final, walked, pcs.trans keeps, ?_, fp :: visited, ?_, ?_⟩
            · rw [isTruncated]
              exact decide_eq_decide.2 overflows
            · exact cons_prefix_cons.2 ⟨rfl, isPrefix⟩
            · rw [isReads, reads, append_assoc]
              rfl

/-! ### What the walk depends on -/

/-- The memories have the same contents in the stack. -/
def AgreeOnStack (bounds : StackBounds) (memory memory' : ByteMemory) : Prop :=
  ByteMemory.AgreeOn bounds.low.toNat bounds.high.toNat memory memory'

/-- The two words of a frame record. -/
theorem AgreeOnStack.frame_eq {memory' : ByteMemory} (agree : AgreeOnStack bounds memory memory')
    {fp : UInt64} (fits : frameRecordFitsStack fp bounds.low bounds.high) :
    memory'.word fp = memory.word fp ∧ memory'.word (fp + 8) = memory.word (fp + 8) := by
  obtain ⟨_, above, inside⟩ := frameRecordFitsStack_iff.1 fits
  rw [UInt64.le_iff_toNat_le] at above
  have high := bounds.high.toNat_lt
  have next : (fp + 8).toNat = fp.toNat + 8 := ByteMemory.toNat_add (show fp.toNat + 8 < 2 ^ 64 by omega)
  exact ⟨ByteMemory.AgreeOn.word_eq agree high.le above (by omega),
    ByteMemory.AgreeOn.word_eq agree high.le (by omega) (by omega)⟩

theorem walkFrames_congr {memory' : ByteMemory} (agree : AgreeOnStack bounds memory memory') (fuel : Nat)
    (fp : UInt64) (walk : FrameWalk outputLimit) :
    walkFrames memory' strip bounds fuel fp walk = walkFrames memory strip bounds fuel fp walk := by
  induction fuel generalizing fp walk with
  | zero => rfl
  | succ fuel ih =>
      unfold walkFrames
      by_cases fits : frameRecordFitsStack fp bounds.low bounds.high = true
      · obtain ⟨sameNext, sameReturn⟩ := agree.frame_eq fits
        simp only [sameNext, sameReturn, ih]
      · simp only [fits, Bool.not_false, if_true]

/-! ### The capture -/

/-- With room for a frame, the capture is what the walk leaves. -/
theorem captureWithFramePointer_eq (memory : ByteMemory) (strip : UInt64 → UInt64) (bounds : StackBounds)
    (fp : UInt64) (mode : StackCaptureMode) {maxFrames : Nat} (positive : 1 ≤ maxFrames)
    (skippedFrames fuel : Nat) :
    captureWithFramePointer memory strip (some bounds) fp mode maxFrames skippedFrames fuel =
      (walkFrames memory strip bounds fuel fp
          ({ skip := skippedFrames } : FrameWalk (min maxFrames kMaxAsyncRawFrames))).map fun walk =>
        (.byFramePointer mode skippedFrames walk.record, walk.reads) := by
  have room : min maxFrames kMaxAsyncRawFrames ≠ 0 := by
    unfold kMaxAsyncRawFrames
    omega
  rw [captureWithFramePointer, if_neg room]

/-- What the state of a walk says, for a walk that has kept all it has room for. -/
theorem FrameWalk.captureState_iff {walk : FrameWalk outputLimit} {count : Nat}
    (positive : 1 ≤ outputLimit) (keeps : walk.pcs.length = min outputLimit count)
    (truncated : walk.truncated = decide (outputLimit < count)) :
    (walk.captureState = .partialCapture ↔ walk.pcs.length < count) ∧
      (walk.captureState = .empty ↔ walk.pcs = []) ∧
      (walk.captureState = .complete ↔ walk.pcs ≠ [] ∧ walk.pcs.length = count) := by
  rw [captureState, truncated]
  simp only [ne_eq, ← length_eq_zero_iff]
  by_cases none : walk.pcs.length = 0
  · rw [if_pos none]
    simp only [none, reduceCtorEq, false_iff, not_true, false_and, and_true]
    omega
  · rw [if_neg none]
    by_cases more : outputLimit < count
    · simp only [more, decide_true, if_true, none, reduceCtorEq, false_iff, true_iff,
        not_false_iff, true_and]
      omega
    · simp only [more, decide_false, Bool.false_eq_true, if_false, none, reduceCtorEq, false_iff, true_iff,
        not_false_iff, true_and]
      omega

/-- With enough fuel the walk ends; it reads records that are aligned, lie in the stack and come one above
the other, and depends on nothing outside the stack; it keeps the return addresses along the chain,
stripped, for which there is room. It is partial exactly if there were more, and empty if none was kept.
-/
theorem frame_pointer_walk (memory : ByteMemory) (strip : UInt64 → UInt64) (bounds : StackBounds)
    (fp : UInt64) (mode : StackCaptureMode) {maxFrames : Nat} (positive : 1 ≤ maxFrames)
    (skippedFrames : Nat) {fuel : Nat} (enough : bounds.high.toNat + 1 < fuel) :
    ∃ frames, (∀ frames', FrameChain memory bounds fp frames' ↔ frames' = frames) ∧
    ∃ captured reads,
      captureWithFramePointer memory strip (some bounds) fp mode maxFrames skippedFrames fuel =
      some (captured, reads) ∧
      (∀ read ∈ reads, read.toNat % 8 = 0 ∧ bounds.low ≤ read ∧ read.toNat + 16 ≤ bounds.high.toNat) ∧
      reads.Pairwise (· < ·) ∧
      (∀ memory', AgreeOnStack bounds memory memory' →
        captureWithFramePointer memory' strip (some bounds) fp mode maxFrames skippedFrames fuel =
          some (captured, reads)) ∧
      captured.pcs.length ≤ min maxFrames 256 ∧
      captured.pcs =
        (((returnAddresses memory frames).map strip).drop skippedFrames).take (min maxFrames 256) ∧
      (captured.captureState = .partialCapture ↔
        captured.pcs.length < (returnAddresses memory frames).length - skippedFrames) ∧
      (captured.captureState = .empty ↔ captured.pcs = []) ∧
      (captured.captureState = .complete ↔ captured.pcs ≠ [] ∧
        captured.pcs.length = (returnAddresses memory frames).length - skippedFrames) := by
  obtain ⟨frames, chain, few⟩ := exists_frameChain memory bounds fp
  refine ⟨frames, fun frames' => ⟨fun chain' => chain'.unique chain, fun same => same ▸ chain⟩, ?_⟩
  let start : FrameWalk (min maxFrames kMaxAsyncRawFrames) := { skip := skippedFrames }
  obtain ⟨final, walked, pcs, truncated, visited, isPrefix, reads⟩ :=
    walkFrames_spec strip chain (Nat.lt_of_le_of_lt few enough) (show start.truncated = false from rfl)
  obtain ⟨fit, increasing⟩ := chain.safe
  have isPcs : final.pcs =
      (((returnAddresses memory frames).map strip).drop skippedFrames).take (min maxFrames 256) := by
    rw [pcs, ← map_drop, ← map_take]
    rfl
  have count : final.pcs.length = min (min maxFrames 256)
    ((returnAddresses memory frames).length - skippedFrames) := by
    rw [isPcs, length_take, length_drop, length_map]
  refine ⟨.byFramePointer mode skippedFrames final.record, final.reads, ?_, ?_, ?_, ?_, final.room, isPcs,
    FrameWalk.captureState_iff (show 1 ≤ min maxFrames 256 by omega) count truncated⟩
  · rw [captureWithFramePointer_eq _ _ _ _ _ positive, walked]
    rfl
  · rw [reads]
    exact fun read member => frameRecordFitsStack_iff.1 (fit read (isPrefix.subset member))
  · rw [reads]
    exact increasing.sublist isPrefix.sublist
  · intro memory' agree
    rw [captureWithFramePointer_eq _ _ _ _ _ positive, walkFrames_congr strip agree, walked]
    rfl

/-- Two frames, the outer one with a frame pointer that leads out of the stack. -/
def corruptStack : ByteMemory := fun address =>
  if address = 0x1010 then 0x20 else if address = 0x1011 then 0x10 else if address = 0x1018 then 0x23
  else if address = 0x1027 then 0xff else if address = 0x1028 then 0x56 else 0

/-- With room for one frame, the second one is cut off. -/
theorem frame_pointer_walk_corruptStack :
    ∃ captured reads,
      captureWithFramePointer corruptStack id (some ⟨0x1000, 0x1040, by decide⟩) 0x1010 .fast 1 0 0x1042 =
        some (captured, reads) ∧
      captured.pcs = [0x23] ∧ captured.captureState = .partialCapture := by
  obtain ⟨frames, only, captured, reads, runs, _, _, _, _, pcs, isPartial, _⟩ :=
    frame_pointer_walk corruptStack id ⟨0x1000, 0x1040, by decide⟩ 0x1010 .fast (Nat.le_refl 1) 0
      (show 0x1041 < 0x1042 by decide)
  have chain : FrameChain corruptStack ⟨0x1000, 0x1040, by decide⟩ 0x1010 [0x1010, 0x1020] := by
    have first : frameAt ⟨0x1000, 0x1040, by decide⟩ 0x1010 = some 0x1010 := by decide
    have second : callerFrame corruptStack ⟨0x1000, 0x1040, by decide⟩ 0x1010 =
      some 0x1020 := by decide +kernel
    have third : callerFrame corruptStack ⟨0x1000, 0x1040, by decide⟩ 0x1020 = none := by decide +kernel
    unfold FrameChain
    rw [first]
    refine .link ?_
    rw [second]
    refine .link ?_
    rw [third]
    exact .stop
  obtain rfl := (only _).1 chain
  have returns : returnAddresses corruptStack [0x1010, 0x1020] = [0x23, 0x56] := by decide +kernel
  rw [returns] at pcs isPartial
  refine ⟨captured, reads, runs, pcs, isPartial.2 ?_⟩
  rw [pcs]
  decide

end MallocHook
