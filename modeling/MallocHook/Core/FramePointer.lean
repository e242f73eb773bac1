/-
Module: MallocHook.Core.FramePointer
Purpose: The walk along the frame pointers of a thread, one record after the other as long as they lie
  in the stack and move towards its base.
Trusted boundary: translation of FrameRecordFitsStack and CaptureWithFramePointer of
  backtrace/src/UnwindBacktrace.cpp. The frame address, the bounds of the stack and the memory are
  inputs; stripping a pointer authentication code is a function on addresses. Words are
  little-endian.
Main exports: StackBounds, frameRecordFitsStack, walkFrames
-/
import MallocHook.Lib.ByteMemory
import MallocHook.Core.ConfigInit

namespace MallocHook

inductive StackCaptureBackend
  | unknown
  | compilerUnwind
  | androidUnwindstack
  | linuxNative
  | ohosNative
  | fallback
  | framePointer
deriving DecidableEq, Repr

/-- `RawStackRecord` with the fields that only describe the capture. -/
structure CapturedStack extends RawStackRecord where
  mode : StackCaptureMode
  backend : StackCaptureBackend
  skippedFrames : UInt16
deriving DecidableEq

/-- `StackBounds` of a thread whose stack is known; the query that fails leaves `low` zero. -/
structure StackBounds where
  low : UInt64
  high : UInt64
  known : low ≠ 0
deriving DecidableEq

/-- `FrameRecordFitsStack`. -/
def frameRecordFitsStack (fp stackLow stackHigh : UInt64) : Bool :=
  fp &&& 7 == 0 && decide (fp ≥ stackLow) && decide (fp ≤ stackHigh) && decide (stackHigh - fp ≥ 16)

/-- The locals of the loop, and the frame records that were read. -/
structure FrameWalk (outputLimit : Nat) where
  pcs : List UInt64 := []
  room : pcs.length ≤ outputLimit := by exact Nat.zero_le _
  skip : Nat
  truncated : Bool := false
  reads : List UInt64 := []
deriving DecidableEq

variable {outputLimit maxFrames : Nat}

namespace FrameWalk

/-- What the loop does with a return address. `none` is the `break` of a walk without room. -/
def note (strip : UInt64 → UInt64) (walk : FrameWalk outputLimit) (lr : UInt64) :
    Option (FrameWalk outputLimit) :=
  if lr != 0 then
    if walk.skip != 0 then some { walk with skip := walk.skip - 1 }
    else if full : walk.pcs.length ≥ outputLimit then none
    else some { walk with
      pcs := walk.pcs ++ [strip lr]
      room := by
        rw [List.length_append, List.length_singleton]
        omega }
  else some walk

/-- The state that follows from the walk. -/
def captureState (walk : FrameWalk outputLimit) : StackCaptureState :=
  if walk.pcs.length = 0 then .empty else if walk.truncated then .partialCapture else .complete

end FrameWalk

/-- The loop; `none` if the fuel does not suffice. -/
def walkFrames (memory : ByteMemory) (strip : UInt64 → UInt64) (bounds : StackBounds) :
    Nat → UInt64 → FrameWalk outputLimit → Option (FrameWalk outputLimit)
  | 0, _, _ => none
  | fuel + 1, fp, walk =>
      if !frameRecordFitsStack fp bounds.low bounds.high then some walk
      else
        let nextFp := memory.word fp
        let lr := memory.word (fp + 8)
        let walk := { walk with reads := walk.reads ++ [fp] }
        match walk.note strip lr with
        | none => some { walk with truncated := true }
        | some walk => if nextFp ≤ fp then some walk else walkFrames memory strip bounds fuel nextFp walk

/-- The record as `CaptureStackInto` has reset it. -/
def RawStackRecord.reset : RawStackRecord := ⟨.empty, 0, 0, [], Nat.zero_le _⟩

/-- The record after the walk. -/
def FrameWalk.record (walk : FrameWalk (min maxFrames kMaxAsyncRawFrames)) : RawStackRecord :=
  { RawStackRecord.reset with
    pcs := walk.pcs
    bounded := walk.room.trans (Nat.min_le_right _ _)
    captureState := walk.captureState
    terminalError := if walk.captureState = .partialCapture then 1 else 0 }

/-- A record of this backend. -/
def CapturedStack.byFramePointer (mode : StackCaptureMode) (skippedFrames : Nat)
    (record : RawStackRecord) : CapturedStack :=
  { record with
    mode := mode
    backend := .framePointer
    skippedFrames := UInt16.ofNat (min skippedFrames 65535) }

/-- `CaptureWithFramePointer` on a reset record: the record it leaves, and the frame records it has read.
`bounds` is none if those of the stack are not known. -/
def captureWithFramePointer (memory : ByteMemory) (strip : UInt64 → UInt64) (bounds : Option StackBounds)
    (fp : UInt64) (mode : StackCaptureMode) (maxFrames skippedFrames fuel : Nat) :
    Option (CapturedStack × List UInt64) :=
  let described := CapturedStack.byFramePointer mode skippedFrames
  if min maxFrames kMaxAsyncRawFrames = 0 then some (described .reset, [])
  else
    match bounds with
    | none => some (described { RawStackRecord.reset with captureState := .error, terminalError := 6 }, [])
    | some bounds =>
        let start : FrameWalk (min maxFrames kMaxAsyncRawFrames) := { skip := skippedFrames }
        (walkFrames memory strip bounds fuel fp start).map fun walk => (described walk.record, walk.reads)

end MallocHook
