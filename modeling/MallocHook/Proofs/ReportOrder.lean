/-
Module: MallocHook.Proofs.ReportOrder
Purpose: Whether the order of a report depends on the order in which the shards are walked: it does
  where two listed entries share a microsecond.
Trusted boundary: none
Main exports: getList_outcome, report_order_determined_iff
-/
import MallocHook.Core.HookedThreads
import MallocHook.Lib.SortedRuns

namespace MallocHook

/-! ### The rows of the listed entries -/

/-- The rows of the listed entries in the order of the walk, before they are sorted. -/
def listedRows (live : LiveTable) (stackTable : StackTable) (onlyWithBacktrace : Bool) : List ListInfo :=
  (live.entries.filter fun entry => !omits onlyWithBacktrace entry.2).map fun entry =>
    listRow stackTable entry.1 entry.2

section

variable {live : LiveTable} {stackTable : StackTable} {onlyWithBacktrace : Bool} {row : ListInfo}

theorem mem_listedRows : row ∈ listedRows live stackTable onlyWithBacktrace ↔
    ∃ entry ∈ live.entries, omits onlyWithBacktrace entry.2 = false ∧
    listRow stackTable entry.1 entry.2 = row := by
  simp [listedRows, and_assoc]

theorem demanglePointer_injective : Function.Injective demanglePointer :=
  Function.LeftInverse.injective mangle_demangle

variable (live stackTable onlyWithBacktrace) in
/-- No two rows are of one address. -/
theorem nodup_pointers : ((listedRows live stackTable onlyWithBacktrace).map ListInfo.pointer).Nodup := by
  have keys : (listedRows live stackTable onlyWithBacktrace).map ListInfo.pointer =
      ((live.entries.filter fun entry => !omits onlyWithBacktrace entry.2).map Prod.fst).map
        demanglePointer := by
    simp only [listedRows, List.map_map]
    rfl
  rw [keys]
  apply List.Nodup.map demanglePointer_injective
  exact live.nodup_keys.sublist (List.filter_sublist.map Prod.fst)

variable (live stackTable onlyWithBacktrace) in
theorem nodup_listedRows : (listedRows live stackTable onlyWithBacktrace).Nodup :=
  (nodup_pointers live stackTable onlyWithBacktrace).of_map

theorem row_eq_of_pointer {a b : ListInfo} (listed : a ∈ listedRows live stackTable onlyWithBacktrace)
    (listed' : b ∈ listedRows live stackTable onlyWithBacktrace) (same : a.pointer = b.pointer) : a = b :=
  List.inj_on_of_nodup_map (nodup_pointers live stackTable onlyWithBacktrace) listed listed' same

end

/-! ### The two comparators -/

/-- The place of a row's stack among rows of one size: none comes last, longer ones come first. -/
def ListInfo.stackRank (row : ListInfo) : Nat := row.rawFrames.elim 0 fun frames => frames.length + 1

theorem uniqueListPred_iff {a b : ListInfo} : uniqueListPred a b = true ↔
    b.size < a.size ∨ a.size = b.size ∧ (b.stackRank < a.stackRank ∨
      a.stackRank = b.stackRank ∧ a.pointer.toNat < b.pointer.toNat) := by
  unfold uniqueListPred ListInfo.stackRank
  by_cases sizes : a.size = b.size
  · rw [if_neg (by simpa using sizes)]
    cases hasA : a.rawFrames with
    | none => cases hasB : b.rawFrames <;> simp [sizes, UInt64.lt_iff_toNat_lt]
    | some aFrames =>
        cases hasB : b.rawFrames with
        | none => simp [sizes]
        | some bFrames =>
            simp only [sizes, Option.elim_some, bne_iff_ne, Nat.lt_irrefl, false_or, true_and]
            split <;> simp only [decide_eq_true_eq, UInt64.lt_iff_toNat_lt] <;> omega
  · rw [if_pos (by simpa using sizes), decide_eq_true_eq]
    omega

theorem uniqueListPred_eq_false_iff {a b : ListInfo} : uniqueListPred a b = false ↔
    a.size < b.size ∨ a.size = b.size ∧ (a.stackRank < b.stackRank ∨
      a.stackRank = b.stackRank ∧ b.pointer.toNat ≤ a.pointer.toNat) := by
  rw [← Bool.not_eq_true, uniqueListPred_iff]
  omega

instance : Std.Total fun a b : ListInfo => uniqueListPred b a = false :=
  ⟨fun a b => by simp only [uniqueListPred_eq_false_iff]; omega⟩

instance : IsTrans ListInfo fun a b => uniqueListPred b a = false :=
  ⟨fun a b c => by simp only [uniqueListPred_eq_false_iff]; omega⟩

instance : Std.Total fun a b : ListInfo => liveListPred b a = false :=
  ⟨fun a b => by simp only [liveListPred, decide_eq_false_iff_not]; omega⟩

instance : IsTrans ListInfo fun a b => liveListPred b a = false :=
  ⟨fun a b c => by simp only [liveListPred, decide_eq_false_iff_not]; omega⟩

/-- `GetList` returns one of the arrangements the comparator allows. -/
theorem getList_outcome (live : LiveTable) (stackTable : StackTable) (onlyWithBacktrace : Bool)
    (pred : ListInfo → ListInfo → Bool) [Std.Total fun a b : ListInfo => pred b a = false]
    [IsTrans ListInfo fun a b => pred b a = false] :
    SortOutcome pred (listedRows live stackTable onlyWithBacktrace)
      (getList live stackTable onlyWithBacktrace pred).1 :=
  SortOutcome.insertionSort pred _

/-! ### What the order depends on -/

/-- What a report shows of a row. -/
def ListInfo.reported (row : ListInfo) : Pointer × Nat × MemType × Nat :=
  (row.pointer, row.size, row.memType, row.hashIndex)

/-- However the rows are handed to the sort, and whichever arrangement it picks, the report is the same. -/
def OrderDetermined (live : LiveTable) (stackTable : StackTable) (onlyWithBacktrace : Bool)
    (pred : ListInfo → ListInfo → Bool) : Prop :=
  ∀ rows rows' out out' : List ListInfo,
    rows.Perm (listedRows live stackTable onlyWithBacktrace) →
    rows'.Perm (listedRows live stackTable onlyWithBacktrace) →
    SortOutcome pred rows out → SortOutcome pred rows' out' →
    out.map ListInfo.reported = out'.map ListInfo.reported

variable {live : LiveTable} {stackTable : StackTable} {onlyWithBacktrace : Bool}
  {pred : ListInfo → ListInfo → Bool}

/-- A report shows every difference between two arrangements: it gives the addresses. -/
theorem eq_of_map_reported {out out' : List ListInfo}
    (perm : out.Perm (listedRows live stackTable onlyWithBacktrace))
    (perm' : out'.Perm (listedRows live stackTable onlyWithBacktrace))
    (same : out.map ListInfo.reported = out'.map ListInfo.reported) : out = out' := by
  apply List.ext_getElem?
  intro i
  have shown : out[i]?.map ListInfo.reported = out'[i]?.map ListInfo.reported := by
    simp only [← List.getElem?_map, same]
  cases here : out[i]? with
  | none =>
      rw [here] at shown
      exact (Option.map_eq_none_iff.1 shown.symm).symm
  | some row =>
      rw [here] at shown
      obtain ⟨row', there, same⟩ := Option.map_eq_some_iff.1 shown.symm
      rw [there, row_eq_of_pointer (perm.subset (List.mem_of_getElem? here))
        (perm'.subset (List.mem_of_getElem? there)) (congrArg Prod.fst same).symm]

theorem orderDetermined_iff [Std.Total fun a b : ListInfo => pred b a = false]
    [IsTrans ListInfo fun a b => pred b a = false] :
    OrderDetermined live stackTable onlyWithBacktrace pred ↔
      ∀ a ∈ listedRows live stackTable onlyWithBacktrace,
        ∀ b ∈ listedRows live stackTable onlyWithBacktrace, pred a b = false → pred b a = false → a = b := by
  rw [← SortOutcome.determined_iff (nodup_listedRows live stackTable onlyWithBacktrace)]
  constructor
  · intro determined out out' outcome outcome'
    exact eq_of_map_reported outcome.perm outcome'.perm
      (determined _ _ out out' (.refl _) (.refl _) outcome outcome')
  · intro determined rows rows' out out' walk walk' outcome outcome'
    rw [determined out out' (outcome.of_perm walk) (outcome'.of_perm walk')]

/-- The entries a report lists by time: those with a stack. -/
theorem liveListPred_apart_iff :
    (∀ a ∈ listedRows live stackTable true, ∀ b ∈ listedRows live stackTable true,
        liveListPred a b = false → liveListPred b a = false → a = b) ↔
      ∀ entry ∈ live.entries, ∀ other ∈ live.entries,
        kBacktraceEmptyIndex < entry.2.hashIndex → kBacktraceEmptyIndex < other.2.hashIndex →
        entry.2.allocTime.micros = other.2.allocTime.micros → entry = other := by
  have listed : ∀ info : PointerInfo, omits true info = false ↔ kBacktraceEmptyIndex < info.hashIndex :=
    fun info => by simp [omits]
  constructor
  · intro apart entry member other member' stack stack' tie
    have same : listRow stackTable entry.1 entry.2 = listRow stackTable other.1 other.2 := by
      apply apart
      · exact mem_listedRows.2 ⟨entry, member, (listed _).2 stack, rfl⟩
      · exact mem_listedRows.2 ⟨other, member', (listed _).2 stack', rfl⟩
      · exact decide_eq_false (Int.not_lt.2 (Int.le_of_eq tie.symm))
      · exact decide_eq_false (Int.not_lt.2 (Int.le_of_eq tie))
    have keys : entry.1 = other.1 := demanglePointer_injective (congrArg ListInfo.pointer same)
    exact List.inj_on_of_nodup_map live.nodup_keys member member' keys
  · intro apart a inRows b inRows' notBefore notAfter
    obtain ⟨entry, member, stack, rfl⟩ := mem_listedRows.1 inRows
    obtain ⟨other, member', stack', rfl⟩ := mem_listedRows.1 inRows'
    have tie : entry.2.allocTime.micros = other.2.allocTime.micros :=
      Int.le_antisymm (Int.not_lt.1 (of_decide_eq_false notAfter))
        (Int.not_lt.1 (of_decide_eq_false notBefore))
    rw [apart entry member other member' ((listed _).1 stack) ((listed _).1 stack') tie]

/-- The list of `GetUniqueList` never depends on the walk. The list of `DumpLiveToFile` is independent of
it exactly if no two entries with a stack were made in the same microsecond. -/
theorem report_order_determined_iff (live : LiveTable) (stackTable : StackTable) :
    (∀ onlyWithBacktrace, OrderDetermined live stackTable onlyWithBacktrace uniqueListPred) ∧
      (OrderDetermined live stackTable true liveListPred ↔
        ∀ entry ∈ live.entries, ∀ other ∈ live.entries,
          kBacktraceEmptyIndex < entry.2.hashIndex → kBacktraceEmptyIndex < other.2.hashIndex →
          entry.2.allocTime.micros = other.2.allocTime.micros → entry = other) := by
  constructor
  · intro onlyWithBacktrace
    rw [orderDetermined_iff]
    intro a listed b listed' notBefore notAfter
    apply row_eq_of_pointer listed listed'
    apply UInt64.toNat_inj.1
    rw [uniqueListPred_eq_false_iff] at notBefore notAfter
    omega
  · rw [orderDetermined_iff, liveListPred_apart_iff]

/-- Two stacks of one frame, under the indices 2 and 3. -/
def twoStacks : StackTable :=
  let first := (StackTable.empty.addBacktrace trackingConfig 16 (oneFrame 7)).2
  (first.addBacktrace trackingConfig 16 (oneFrame 8)).2

/-- Two allocations in the same microsecond, each with its stack. -/
def sameMicrosecond : LiveTable :=
  let live := (LiveTable.empty.addSection 0x1000 16 2 .host ⟨5, 7⟩).table
  (live.addSection 0x2000 16 3 .host ⟨5, 7⟩).table

/-- A report of the two may list them either way. -/
theorem live_list_order_open :
    ∃ out out', SortOutcome liveListPred (listedRows sameMicrosecond twoStacks true) out ∧
      SortOutcome liveListPred (listedRows sameMicrosecond twoStacks true) out' ∧
      out.map ListInfo.reported = [(0x1000, 16, .host, 2), (0x2000, 16, .host, 3)] ∧
      out'.map ListInfo.reported = [(0x2000, 16, .host, 3), (0x1000, 16, .host, 2)] := by
  refine ⟨[listRow twoStacks (manglePointer 0x1000) ⟨16, 2, .host, ⟨5, 7⟩⟩,
      listRow twoStacks (manglePointer 0x2000) ⟨16, 3, .host, ⟨5, 7⟩⟩],
    [listRow twoStacks (manglePointer 0x2000) ⟨16, 3, .host, ⟨5, 7⟩⟩,
      listRow twoStacks (manglePointer 0x1000) ⟨16, 2, .host, ⟨5, 7⟩⟩],
    ⟨?_, ?_⟩, ⟨?_, ?_⟩, ?_, ?_⟩
  all_goals decide +kernel

end MallocHook
