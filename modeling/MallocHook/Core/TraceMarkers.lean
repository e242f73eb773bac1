/-
Module: MallocHook.Core.TraceMarkers
Purpose: The markers that the tracker writes to the trace. `tracedCode` is the code of the hooked calls
  with the markers written on the way and a number for each record.
Trusted boundary: translation of WriteAllocTraceMarker and its calls in
  backtrace/src/PointerData.cpp and backtrace/src/malloc_debug.cpp, with tracing enabled and every
  write taken; the markers of peak snapshots are left out
Main exports: AllocName, AllocMarker, PointerFormat, Trace
-/
import MallocHook.Lib.Spans
import MallocHook.Core.SerialHook

namespace MallocHook

/-! ### Text -/

/-- What a marker says about an allocation, the pid apart. -/
structure AllocName where
  pointer : Pointer
  hashIndex : Nat
  type : MemType
  size : Nat
deriving DecidableEq, Repr

/-- A marker. Its owner is the number of the record it is about, which is not written. -/
abbrev AllocMarker := Mark AllocName Nat

/-- `%p` is up to the C library; it keeps pointers apart and writes neither full stops nor bars. -/
structure PointerFormat where
  print : Pointer → List Char
  injective : Function.Injective print
  plain : ∀ pointer, '.' ∉ print pointer ∧ '|' ∉ print pointer

/-- The value of a hexadecimal digit. -/
def hexDigit (c : Char) : Nat := if c.isDigit then c.toNat - '0'.toNat else c.toNat - 'a'.toNat + 10

theorem hexDigit_digitChar : ∀ d < 16, hexDigit (Nat.digitChar d) = d := by decide

/-- Hexadecimal digits are read back. -/
theorem readHex_toDigits (n : Nat) :
    (Nat.toDigits 16 n).foldl (fun value c => 16 * value + hexDigit c) 0 = n := by
  induction n using Nat.strongRecOn with
  | ind n ih =>
      by_cases small : n < 16
      · rw [Nat.toDigits_of_lt_base small]
        simpa using hexDigit_digitChar n small
      · rw [Nat.toDigits_of_base_le (by decide) (Nat.le_of_not_lt small), List.foldl_append,
          ih (n / 16) (by omega),
          List.foldl_cons, List.foldl_nil, hexDigit_digitChar (n % 16) (Nat.mod_lt n (by decide))]
        exact Nat.div_add_mod n 16

theorem toDigits_sixteen_plain (n : Nat) : '.' ∉ Nat.toDigits 16 n ∧ '|' ∉ Nat.toDigits 16 n := by
  induction n using Nat.strongRecOn with
  | ind n ih =>
      by_cases small : n < 16
      · rw [Nat.toDigits_of_lt_base small]
        simp
      · rw [Nat.toDigits_of_base_le (by decide) (Nat.le_of_not_lt small)]
        simp [ih (n / 16) (by omega)]

/-- `%p` of glibc. -/
def PointerFormat.glibc : PointerFormat where
  print pointer := if pointer = 0 then "(nil)".toList else "0x".toList ++ Nat.toDigits 16 pointer.toNat
  injective := by
    intro pointer pointer' same
    have notHex : ∀ digits : List Char, "(nil)".toList ≠ "0x".toList ++ digits := fun digits same => by
      cases (List.cons.inj same).1
    dsimp only at same
    split_ifs at same with null null' null'
    · rw [null, null']
    · exact absurd same (notHex _)
    · exact absurd same.symm (notHex _)
    · have sameValue := congrArg (List.foldl (fun value c => 16 * value + hexDigit c) 0)
        (List.append_cancel_left same)
      rw [readHex_toDigits, readHex_toDigits] at sameValue
      exact UInt64.toNat_inj.1 sameValue
  plain pointer := by
    split_ifs
    · decide
    · simpa using toDigits_sixteen_plain pointer.toNat

/-- `mtype`. -/
def mtype : MemType → List Char
  | .host => "host".toList
  | .mmap => "mmap".toList
  | .dma => "dma".toList

/-- `|%d|memory_%s@%p.h%zu.s%zu`. -/
def AllocName.text (format : PointerFormat) (pid : Nat) (name : AllocName) : List Char :=
  '|' :: (Nat.toDigits 10 pid ++ ("|memory_".toList ++
    (mtype name.type ++ '@' :: (format.print name.pointer ++
    '.' :: 'h' :: (Nat.toDigits 10 name.hashIndex ++ '.' :: 's' :: Nat.toDigits 10 name.size)))))

def phaseChar : SpanPhase → Char
  | .begins => 'S'
  | .ends => 'F'

/-- The marker as `WriteAllocTraceMarker` formats it. The buffer is long enough. -/
def AllocMarker.text (format : PointerFormat) (pid : Nat) (marker : AllocMarker) : List Char :=
  phaseChar marker.phase :: (marker.name.text format pid ++
    '|' :: Nat.toDigits 10 marker.name.pointer.toNat)

/-! ### Where markers are written -/

def allocName (pointer : Pointer) (info : PointerInfo) : AllocName :=
  ⟨pointer, info.hashIndex, info.memType, info.size⟩

/-- The markers so far, the number of the record that each pointer was given last, and how many records
there have been. -/
structure Trace where
  records : Pointer → Nat
  begun : Nat
  markers : List AllocMarker

namespace Trace

def empty : Trace := ⟨fun _ => 0, 0, []⟩

variable (trace : Trace) (pointer : Pointer) (info : PointerInfo)

/-- The record of a pointer is over. -/
def released : Trace :=
  if info.hashIndex > kBacktraceEmptyIndex then
    { trace with markers := trace.markers ++ [⟨.ends, allocName pointer info, trace.records pointer⟩] }
  else trace

/-- A pointer gets a new record. -/
def recorded : Trace where
  records := Function.update trace.records pointer trace.begun
  begun := trace.begun + 1
  markers :=
    if info.hashIndex > kBacktraceEmptyIndex then
      trace.markers ++ [⟨.begins, allocName pointer info, trace.begun⟩]
    else trace.markers

/-- The markers of `Remap`. In place it writes none for the record it resizes. -/
def remapped (oldPointer newPointer : Pointer) (newSize : Nat) (result : LiveTable.SectionResult) : Trace :=
  let trace := result.displaced.elim trace (trace.released newPointer)
  if oldPointer ≠ newPointer then
    result.moved.elim trace fun moved =>
      (trace.released oldPointer moved).recorded newPointer { moved with size := newSize }
  else trace

/-- The markers an operation writes. `realloc` and `munmap` write the end of a record once the allocator
or the kernel has let go of it. -/
def note {θ ε : Type*} (hook : Hook θ ε) (op : Op θ) (answer : Answer) (trace : Trace) : Trace :=
  match op with
  | .shard (.addEntry pointer trackedSize hashIndex type) =>
      let result := hook.live.addSection pointer trackedSize hashIndex type answer.now
      (result.displaced.elim trace (trace.released pointer)).recorded pointer
        ⟨trackedSize, hashIndex, type, answer.now⟩
  | .shard (.internalFree pointer) | .shard (.remove pointer) =>
      (hook.live.takeEntry pointer).1.elim trace (trace.released pointer)
  | .shard (.remap oldPointer newPointer newSize) =>
      (hook.live.remap oldPointer newPointer newSize).elim trace
        (trace.remapped oldPointer newPointer newSize)
  | .system (.realloc pointer _ previous) =>
      if answer.pointer = 0 then trace else previous.elim trace (trace.released pointer)
  | .system (.munmap addr _ previous) =>
      if answer.status = 0 then previous.elim trace (trace.released addr) else trace
  | _ => trace

end Trace

/-! ### Traced calls -/

variable {τ ε : Type*} [DecidableEq τ]

/-- The hooked calls with their markers. -/
def tracedCode (config : Config) (env : Environment (Option τ) ε) :
    Code (Option τ) (Hook (Option τ) ε × Trace) (Op (Option τ)) (Request (Option τ)) Answer :=
  (hookCode config env).observed Trace.note

/-- Hooked calls, one after the other, with their markers. -/
def tracedHook (config : Config) (env : Environment (Option τ) ε) :
    Machine (Hook (Option τ) ε × Trace) (HookCall τ) :=
  (tracedCode config env).serial (.initial config env, .empty)

variable (traced : Hook (Option τ) ε × Trace) (call : HookCall τ)

/-- The call is not an `mremap` in place that gives a record with a stack another size. -/
def KeepsSizes : Prop :=
  match call.request, call.answers with
  | .mremap oldAddr _ newSize flags _, answer :: _ =>
      hasFlag flags mremapDontunmap = false → answer.pointer = oldAddr →
        (traced.1.live.find oldAddr).all fun info =>
          info.hashIndex ≤ kBacktraceEmptyIndex || info.size == newSize
  | _, _ => True

instance : Decidable (KeepsSizes traced call) := by
  unfold KeepsSizes
  split <;> infer_instance

end MallocHook
