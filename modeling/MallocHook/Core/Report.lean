/-
Module: MallocHook.Core.Report
Purpose: The list of live allocations a report or a peak snapshot is made of: one row for each entry,
  ordered by size, with neighbours of one size and stack merged.
Trusted boundary: translation of PointerData::GetList and GetUniqueList
Main exports: ListInfo, OmittedStats, LiveTable.entries, getList
-/
import Mathlib.Algebra.BigOperators.Fin
import Mathlib.Algebra.Order.BigOperators.Group.List
import Mathlib.Algebra.Order.Group.Int
import MallocHook.Core.StackTable

namespace MallocHook

open List

/-- `ListInfoType`. `frame_info` is compared as a pointer: here it is an index into `frames_`.
`backtrace_info` is left out, since `backtraces_info_` is never written. -/
structure ListInfo where
  pointer : Pointer
  numAllocations : Nat
  size : Nat
  memType : MemType
  frameInfo : Option Nat
  rawFrames : Option (List Pointer)
  captureState : StackCaptureState
  terminalError : UInt8
  allocTime : Timeval
  hashIndex : Nat
deriving DecidableEq, Repr, Inhabited

structure OmittedStats where
  count : Nat
  bytes : Nat
deriving DecidableEq, Repr, Inhabited

namespace LiveTable

/-- Every entry under its mangled key, shard by shard. -/
def entries (live : LiveTable) : List (Pointer × PointerInfo) :=
  (List.finRange kPointerShards).flatMap fun shard =>
    (live.shards shard).entries.map fun entry => (entry.1, entry.2)

/-- A sum over the walk is a total of the table. -/
theorem sum_entries {M : Type*} [AddCommMonoid M] (weight : PointerInfo → M) (live : LiveTable) :
    (live.entries.map fun entry => weight entry.2).sum = live.total weight := by
  unfold entries total Sharded.total Ledger.total
  rw [map_flatMap, flatMap_def, sum_flatten, Fin.sum_univ_def, map_map]
  simp only [Function.comp_def, map_map]

/-- The walk visits an entry exactly when some shard holds it. -/
theorem mem_entries {live : LiveTable} {key : Pointer} {info : PointerInfo} :
    (key, info) ∈ live.entries ↔ ∃ shard, (live.shards shard).lookup key = some info := by
  simp [entries, AList.mem_lookup_iff, ← Option.mem_def]

/-- The walk visits exactly the records that can be found. -/
theorem mem_entries_iff_find {live : LiveTable} {pointer : Pointer} {info : PointerInfo} :
    (manglePointer pointer, info) ∈ live.entries ↔ live.find pointer = some info := by
  rw [mem_entries]
  constructor
  · rintro ⟨shard, held⟩
    exact (live.atHome.lookup_eq held).2
  · intro found
    exact ⟨_, found⟩

/-- Two shards have no key in common, and none of them has one twice. -/
theorem nodup_keys (live : LiveTable) : (live.entries.map Prod.fst).Nodup := by
  have keys : live.entries.map Prod.fst =
      (List.finRange kPointerShards).flatMap fun shard => (live.shards shard).keys := by
    simp [LiveTable.entries, map_flatMap, AList.keys, List.keys, Function.comp_def]
  rw [keys, nodup_flatMap]
  refine ⟨fun shard _ => (live.shards shard).keys_nodup, ?_⟩
  refine (nodup_finRange _).pairwise_of_forall_ne ?_
  intro shard _ other _ differ key here there
  exact differ ((live.atHome shard key here).symm.trans (live.atHome other key there))

theorem total_nonneg {weight : PointerInfo → Int} (nonneg : ∀ info, 0 ≤ weight info)
    (live : LiveTable) : 0 ≤ live.total weight := by
  rw [← sum_entries]
  refine sum_nonneg fun value member => ?_
  obtain ⟨entry, -, rfl⟩ := mem_map.1 member
  exact nonneg entry.2

/-- One entry weighs no more than all of them. -/
theorem weight_le_total {weight : PointerInfo → Int} (nonneg : ∀ info, 0 ≤ weight info) {live : LiveTable}
    {key : Pointer} {info : PointerInfo} (member : (key, info) ∈ live.entries) :
    weight info ≤ live.total weight := by
  rw [← sum_entries]
  refine single_le_sum (fun value listed => ?_) _ (mem_map_of_mem member)
  obtain ⟨entry, -, rfl⟩ := mem_map.1 listed
  exact nonneg entry.2

end LiveTable

/-- Whether `GetList` leaves an entry out. -/
def omits (onlyWithBacktrace : Bool) (info : PointerInfo) : Bool :=
  decide (info.hashIndex ≤ kBacktraceEmptyIndex) && onlyWithBacktrace

/-- The row `GetList` makes of an entry. -/
def listRow (stackTable : StackTable) (mangled : Pointer) (info : PointerInfo) : ListInfo :=
  let frame := stackTable.frames.lookup info.hashIndex
  { pointer := demanglePointer mangled
    numAllocations := 1
    size := info.realSize
    memType := info.memType
    frameInfo := frame.map fun _ => info.hashIndex
    rawFrames := frame.map FrameInfo.frames
    captureState := frame.elim .empty FrameInfo.captureState
    terminalError := frame.elim 0 FrameInfo.terminalError
    allocTime := info.allocTime
    hashIndex := info.hashIndex }

/-- `GetList`: the rows in the order of the comparator, and what was left out. -/
def getList (live : LiveTable) (stackTable : StackTable) (onlyWithBacktrace : Bool)
    (pred : ListInfo → ListInfo → Bool) : List ListInfo × OmittedStats :=
  let omitted := live.entries.filter fun entry => omits onlyWithBacktrace entry.2
  let listed := live.entries.filter fun entry => !omits onlyWithBacktrace entry.2
  ((listed.map fun entry => listRow stackTable entry.1 entry.2).insertionSort fun a b => pred b a = false,
    { count := omitted.length
      bytes := (omitted.map fun entry => entry.2.realSize).sum })

/-- The comparator of `GetUniqueList`: larger first, rows without a stack last, longer stacks first, then
addresses. -/
def uniqueListPred (a b : ListInfo) : Bool :=
  if a.size != b.size then decide (a.size > b.size)
  else
    match a.rawFrames, b.rawFrames with
    | none, some _ => false
    | some _, none => true
    | none, none => decide (a.pointer < b.pointer)
    | some aFrames, some bFrames =>
        if aFrames.length != bFrames.length then decide (aFrames.length > bFrames.length)
        else decide (a.pointer < b.pointer)

/-- The time `operator<` of `timeval` compares, in microseconds. -/
def Timeval.micros (time : Timeval) : Int := time.sec * 1000000 + time.usec

/-- The comparator of `DumpLiveToFile`: earlier first. -/
def liveListPred (a b : ListInfo) : Bool := decide (a.allocTime.micros < b.allocTime.micros)

/-- Merge a row into the head of the rows after it when size and stack agree. -/
def mergeRows : List ListInfo → List ListInfo
  | [] => []
  | row :: rest =>
      match mergeRows rest with
      | [] => [row]
      | next :: others =>
          if row.size == next.size && row.frameInfo == next.frameInfo then
            { row with numAllocations := row.numAllocations + next.numAllocations } :: others
          else row :: next :: others

/-- `GetUniqueList`. -/
def getUniqueList (live : LiveTable) (stackTable : StackTable) (onlyWithBacktrace : Bool) :
    List ListInfo :=
  mergeRows (getList live stackTable onlyWithBacktrace uniqueListPred).1

/-! ### What the list adds up to -/

theorem sum_filter_add_sum_omitted (weight : PointerInfo → Nat) (omitted : PointerInfo → Bool)
    (entries : List (Pointer × PointerInfo)) :
    ((entries.filter fun entry => !omitted entry.2).map fun entry => weight entry.2).sum +
        ((entries.filter fun entry => omitted entry.2).map fun entry => weight entry.2).sum =
      (entries.map fun entry => weight entry.2).sum := by
  induction entries with
  | nil => rfl
  | cons entry rest ih =>
      cases left : omitted entry.2 <;> simp [left] <;> omega

/-- Listed or left out, every entry shows the size `RealSize` reads back. -/
theorem getList_sizes_add_omitted (live : LiveTable) (stackTable : StackTable) (onlyWithBacktrace : Bool)
    (pred : ListInfo → ListInfo → Bool) :
    ((getList live stackTable onlyWithBacktrace pred).1.map ListInfo.size).sum +
        (getList live stackTable onlyWithBacktrace pred).2.bytes =
      (live.entries.map fun entry => entry.2.realSize).sum := by
  rw [← sum_filter_add_sum_omitted _ (omits onlyWithBacktrace)]
  simp only [getList]
  rw [((perm_insertionSort _ _).map ListInfo.size).sum_eq, map_map]
  rfl

/-! ### When the list is empty -/

/-- Some live entry carries a stack. -/
def LiveTable.CarriesStack (live : LiveTable) : Prop :=
  ∃ entry ∈ live.entries, kBacktraceEmptyIndex < entry.2.hashIndex

instance (live : LiveTable) : Decidable live.CarriesStack :=
  inferInstanceAs (Decidable (∃ entry ∈ live.entries, kBacktraceEmptyIndex < entry.2.hashIndex))

theorem mergeRows_eq_nil {rows : List ListInfo} : mergeRows rows = [] ↔ rows = [] := by
  cases rows with
  | nil => simp [mergeRows]
  | cons row rest =>
      simp only [mergeRows, reduceCtorEq, iff_false]
      split
      · simp
      · split <;> simp

/-- With stacks asked for, the list is empty exactly when no entry carries one. -/
theorem getUniqueList_eq_nil {live : LiveTable} {stackTable : StackTable} :
    getUniqueList live stackTable true = [] ↔ ∀ entry ∈ live.entries,
    entry.2.hashIndex ≤ kBacktraceEmptyIndex := by
  rw [getUniqueList, mergeRows_eq_nil, getList, ← length_eq_zero_iff, length_insertionSort, length_map,
    length_eq_zero_iff, filter_eq_nil_iff]
  simp [omits]

theorem getUniqueList_ne_nil {live : LiveTable} {stackTable : StackTable} :
    getUniqueList live stackTable true ≠ [] ↔ live.CarriesStack := by
  rw [ne_eq, getUniqueList_eq_nil, LiveTable.CarriesStack]
  push Not
  rfl

end MallocHook
