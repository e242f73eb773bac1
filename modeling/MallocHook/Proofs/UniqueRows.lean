/-
Module: MallocHook.Proofs.UniqueRows
Purpose: Which entries `GetUniqueList` puts into one row. The loop merges neighbours of one size and
  stack, whatever their types.
Trusted boundary: none
Main exports: Interleaved, unique_rows_are_classes_iff
-/
import MallocHook.Proofs.ReportOrder

namespace MallocHook

open List

open SortedRuns (runs)

/-! ### Rows as summaries of runs -/

/-- What neighbours have to share to be merged. -/
def ListInfo.mergeKey (row : ListInfo) : Nat × Option Nat := (row.size, row.frameInfo)

/-- What a row is meant to stand for. -/
def ListInfo.classKey (row : ListInfo) : Nat × Option Nat × MemType :=
  (row.size, row.frameInfo, row.memType)

/-- The row a run of neighbours is merged into. -/
def summaryRow : List ListInfo → ListInfo
  | [] => default
  | row :: rest => { row with numAllocations := ((row :: rest).map ListInfo.numAllocations).sum }

/-- The loop merges exactly the runs of one size and stack. -/
theorem mergeRows_eq_map_runs (rows : List ListInfo) :
    mergeRows rows = (runs ListInfo.mergeKey rows).map summaryRow := by
  induction rows with
  | nil => rfl
  | cons row rest ih =>
      cases cut : runs ListInfo.mergeKey rest with
      | nil =>
          have nothing : rest = [] := splitBy_eq_nil.1 cut
          rw [nothing]
          rfl
      | cons run later =>
          cases run with
          | nil => exact absurd (cut ▸ mem_cons_self) (nil_notMem_splitBy _ rest)
          | cons next others =>
              have joined := SortedRuns.splitBy_cons_run _ (a := row) cut
              rw [cut] at ih
              simp only [mergeRows, ih, map_cons]
              unfold runs
              rw [joined]
              have keys : (row.size == next.size && row.frameInfo == next.frameInfo) =
                  decide (row.mergeKey = next.mergeKey) := by
                rw [Bool.eq_iff_iff]
                simp [ListInfo.mergeKey]
              simp only [summaryRow, keys, decide_eq_true_eq]
              by_cases equal : row.mergeKey = next.mergeKey
              · rw [if_pos equal, if_pos equal]
                rfl
              · rw [if_neg equal, if_neg equal]
                rfl

section

variable (live : LiveTable) (stackTable : StackTable) (onlyWithBacktrace : Bool)

/-- The runs of entries that `GetUniqueList` merges, in the order of its rows. -/
def uniqueGroups : List (List ListInfo) :=
  runs ListInfo.mergeKey (getList live stackTable onlyWithBacktrace uniqueListPred).1

theorem getUniqueList_eq_map :
    getUniqueList live stackTable onlyWithBacktrace =
      (uniqueGroups live stackTable onlyWithBacktrace).map summaryRow :=
  mergeRows_eq_map_runs _

variable {live stackTable onlyWithBacktrace} {group : List ListInfo} {a b : ListInfo}

/-- The groups make up the sorted list. -/
theorem flatten_uniqueGroups : (uniqueGroups live stackTable onlyWithBacktrace).flatten =
    (getList live stackTable onlyWithBacktrace uniqueListPred).1 :=
  flatten_splitBy _ _

theorem mem_sorted_iff : a ∈ (getList live stackTable onlyWithBacktrace uniqueListPred).1 ↔
    a ∈ listedRows live stackTable onlyWithBacktrace :=
  (getList_outcome live stackTable onlyWithBacktrace uniqueListPred).perm.mem_iff

theorem listed_of_mem_group (isGroup : group ∈ uniqueGroups live stackTable onlyWithBacktrace)
    (inGroup : a ∈ group) : a ∈ listedRows live stackTable onlyWithBacktrace := by
  rw [← mem_sorted_iff, ← flatten_uniqueGroups]
  exact mem_flatten.2 ⟨group, isGroup, inGroup⟩

theorem exists_group (listed : a ∈ listedRows live stackTable onlyWithBacktrace) :
    ∃ group ∈ uniqueGroups live stackTable onlyWithBacktrace, a ∈ group := by
  rw [← mem_sorted_iff, ← flatten_uniqueGroups] at listed
  exact mem_flatten.1 listed

/-- The groups share nothing, and none has a member twice. -/
theorem nodup_uniqueGroups : (∀ group ∈ uniqueGroups live stackTable onlyWithBacktrace, group.Nodup) ∧
    (uniqueGroups live stackTable onlyWithBacktrace).Pairwise List.Disjoint := by
  rw [← nodup_flatten, flatten_uniqueGroups,
    (getList_outcome live stackTable onlyWithBacktrace uniqueListPred).perm.nodup_iff]
  exact nodup_listedRows live stackTable onlyWithBacktrace

/-! ### What keeps equal entries apart -/

/-- A row between two others in address, of the size and number of frames of the first, with another
stack. -/
def Interleaved (rows : List ListInfo) (a b : ListInfo) : Prop :=
  ∃ c ∈ rows, c.size = a.size ∧ c.stackRank = a.stackRank ∧ c.frameInfo ≠ a.frameInfo ∧
    (a.pointer.toNat < c.pointer.toNat ∧ c.pointer.toNat < b.pointer.toNat ∨
      b.pointer.toNat < c.pointer.toNat ∧ c.pointer.toNat < a.pointer.toNat)

/-- The frames of a row are those of its stack. -/
theorem stackRank_eq_of_frameInfo (listed : a ∈ listedRows live stackTable onlyWithBacktrace)
    (listed' : b ∈ listedRows live stackTable onlyWithBacktrace) (same : a.frameInfo = b.frameInfo) :
    a.stackRank = b.stackRank := by
  obtain ⟨entry, -, -, rfl⟩ := mem_listedRows.1 listed
  obtain ⟨other, -, -, rfl⟩ := mem_listedRows.1 listed'
  simp only [listRow, ListInfo.stackRank] at same ⊢
  cases frame : stackTable.frames.lookup entry.2.hashIndex with
  | none =>
      rw [frame] at same
      rw [Option.map_eq_none_iff.1 same.symm]
  | some info =>
      rw [frame] at same
      obtain ⟨info', frame', index⟩ := Option.map_eq_some_iff.1 same.symm
      rw [index, frame] at frame'
      rw [index, frame]

/-- Between two rows of one size and number of frames, the order is the order of the addresses. -/
theorem between_iff {c : ListInfo} (sizes : a.size = b.size) (ranks : a.stackRank = b.stackRank) :
    uniqueListPred a c = true ∧ uniqueListPred c b = true ↔
      c.size = a.size ∧ c.stackRank = a.stackRank ∧
        a.pointer.toNat < c.pointer.toNat ∧ c.pointer.toNat < b.pointer.toNat := by
  simp only [uniqueListPred_iff]
  omega

theorem parted_iff {rows : List ListInfo} (keys : b.mergeKey = a.mergeKey)
    (ranks : b.stackRank = a.stackRank) :
    Interleaved rows a b ↔
      SortedRuns.Parted ListInfo.mergeKey (fun x y => uniqueListPred x y = true) rows a b ∨
        SortedRuns.Parted ListInfo.mergeKey (fun x y => uniqueListPred x y = true) rows b a := by
  obtain ⟨sizes, frames⟩ := Prod.mk.inj keys
  constructor
  · rintro ⟨c, member, size, rank, other, forward | backward⟩
    · obtain ⟨after, until_⟩ := (between_iff sizes.symm ranks.symm).2 ⟨size, rank, forward⟩
      exact .inl ⟨c, member, after, until_, fun same => other (Prod.mk.inj same).2⟩
    · obtain ⟨after, until_⟩ := (between_iff sizes ranks).2
        ⟨size.trans sizes.symm, rank.trans ranks.symm, backward⟩
      exact .inr ⟨c, member, after, until_, fun same => other ((Prod.mk.inj same).2.trans frames)⟩
  · rintro (⟨c, member, after, until_, differ⟩ | ⟨c, member, after, until_, differ⟩)
    · obtain ⟨size, rank, forward⟩ := (between_iff sizes.symm ranks.symm).1 ⟨after, until_⟩
      exact ⟨c, member, size, rank, fun same => differ (Prod.ext size same), .inl forward⟩
    · obtain ⟨size, rank, backward⟩ := (between_iff sizes ranks).1 ⟨after, until_⟩
      refine ⟨c, member, size.trans sizes, rank.trans ranks, fun same => ?_, .inr backward⟩
      exact differ (Prod.ext size (same.trans frames.symm))

/-- The sorted list is strictly ordered: no two rows have one address. -/
theorem sorted_strictly : (getList live stackTable onlyWithBacktrace uniqueListPred).1.Pairwise
    fun x y => uniqueListPred x y = true := by
  have outcome := getList_outcome live stackTable onlyWithBacktrace uniqueListPred
  have distinct := outcome.perm.nodup_iff.2 (nodup_listedRows live stackTable onlyWithBacktrace)
  apply (outcome.ordered.and distinct).imp_of_mem
  rintro x y inList inList' ⟨notAfter, differ⟩
  have addresses : x.pointer.toNat ≠ y.pointer.toNat := fun same =>
    differ (row_eq_of_pointer (mem_sorted_iff.1 inList) (mem_sorted_iff.1 inList') (UInt64.toNat_inj.1 same))
  rw [uniqueListPred_eq_false_iff] at notAfter
  rw [uniqueListPred_iff]
  omega

theorem uniqueListPred_asymm (x y : ListInfo) (before : uniqueListPred x y = true) :
    ¬ uniqueListPred y x = true := by
  rw [uniqueListPred_iff] at *
  omega

theorem interleaved_congr {rows rows' : List ListInfo} (same : ∀ row, row ∈ rows ↔ row ∈ rows') :
    Interleaved rows a b ↔ Interleaved rows' a b := by
  simp only [Interleaved, same]

/-- A group holds the listed rows of one size and stack between which no other stack with as many frames
comes. -/
theorem mem_uniqueGroup_iff (isGroup : group ∈ uniqueGroups live stackTable onlyWithBacktrace)
    (inGroup : a ∈ group) (listed : b ∈ listedRows live stackTable onlyWithBacktrace) :
    b ∈ group ↔ b.mergeKey = a.mergeKey ∧ ¬ Interleaved
    (listedRows live stackTable onlyWithBacktrace) a b := by
  rw [SortedRuns.mem_run_iff uniqueListPred_asymm sorted_strictly isGroup inGroup (mem_sorted_iff.2 listed),
    ← interleaved_congr fun row => mem_sorted_iff]
  apply and_congr_right
  intro keys
  have ranks := stackRank_eq_of_frameInfo listed (listed_of_mem_group isGroup inGroup) (Prod.mk.inj keys).2
  rw [parted_iff keys ranks, not_or]

/-! ### When the rows are the classes -/

theorem summaryRow_classKey (isGroup : group ∈ uniqueGroups live stackTable onlyWithBacktrace) :
    ∃ row ∈ group, (summaryRow group).classKey = row.classKey := by
  cases group with
  | nil => exact absurd isGroup (nil_notMem_splitBy _ _)
  | cons row rest => exact ⟨row, mem_cons_self, rfl⟩

/-- A row counts the entries of its group. -/
theorem summaryRow_numAllocations (isGroup : group ∈ uniqueGroups live stackTable onlyWithBacktrace) :
    (summaryRow group).numAllocations = group.length := by
  have ones : ∀ row ∈ group, row.numAllocations = 1 := by
    intro row inGroup
    obtain ⟨entry, -, -, rfl⟩ := mem_listedRows.1 (listed_of_mem_group isGroup inGroup)
    rfl
  cases group with
  | nil => exact absurd isGroup (nil_notMem_splitBy _ _)
  | cons row rest =>
      simp only [summaryRow]
      rw [map_congr_left ones, map_const', sum_replicate, smul_eq_mul, mul_one]

/-- The rows are the classes of the listed entries under equal size, stack and type: a row merges and
counts the entries of its class, and no two rows are of one class. -/
structure RowsAreClasses (live : LiveTable) (stackTable : StackTable) (onlyWithBacktrace : Bool) : Prop where
  merged : ∀ group ∈ uniqueGroups live stackTable onlyWithBacktrace, ∀ row ∈ group,
    row.classKey = (summaryRow group).classKey
  distinct : ((getUniqueList live stackTable onlyWithBacktrace).map ListInfo.classKey).Nodup
  counted : ∀ row ∈ getUniqueList live stackTable onlyWithBacktrace,
    row.numAllocations = (listedRows live stackTable onlyWithBacktrace).countP fun listed =>
      listed.classKey == row.classKey
  complete : ∀ listed ∈ listedRows live stackTable onlyWithBacktrace,
    ∃ row ∈ getUniqueList live stackTable onlyWithBacktrace, row.classKey = listed.classKey

end

/-- Listed rows of one size and stack are of one type exactly when no other stack with as many frames was
used for that size at an address between theirs. -/
def TypesFollowRuns (rows : List ListInfo) : Prop :=
  ∀ a ∈ rows, ∀ b ∈ rows, a.size = b.size → a.frameInfo = b.frameInfo →
    (a.memType = b.memType ↔ ¬ Interleaved rows a b)

section

variable {live : LiveTable} {stackTable : StackTable} {onlyWithBacktrace : Bool} {group : List ListInfo}
  {a b : ListInfo}

theorem classKey_eq_iff : a.classKey = b.classKey ↔ a.mergeKey = b.mergeKey ∧ a.memType = b.memType := by
  simp only [ListInfo.classKey, ListInfo.mergeKey, Prod.mk.injEq, and_assoc]

/-- Under the condition, a group is the class of each of its members. -/
theorem mem_group_iff_classKey (follow : TypesFollowRuns (listedRows live stackTable onlyWithBacktrace))
    (isGroup : group ∈ uniqueGroups live stackTable onlyWithBacktrace) (inGroup : a ∈ group)
    (listed : b ∈ listedRows live stackTable onlyWithBacktrace) : b ∈ group ↔ b.classKey = a.classKey := by
  have listed' := listed_of_mem_group isGroup inGroup
  rw [mem_uniqueGroup_iff isGroup inGroup listed, classKey_eq_iff]
  apply and_congr_right
  intro keys
  obtain ⟨sizes, frames⟩ := Prod.mk.inj keys
  rw [← follow a listed' b listed sizes.symm frames.symm, eq_comm]

/-- A group that is a class is as large as it. -/
theorem length_eq_countP (isGroup : group ∈ uniqueGroups live stackTable onlyWithBacktrace)
    {key : Nat × Option Nat × MemType}
    (isClass : ∀ row ∈ listedRows live stackTable onlyWithBacktrace, row ∈ group ↔ row.classKey = key) :
    group.length = (listedRows live stackTable onlyWithBacktrace).countP fun row => row.classKey == key := by
  rw [countP_eq_length_filter]
  apply List.Perm.length_eq
  rw [perm_ext_iff_of_nodup (nodup_uniqueGroups.1 group isGroup)
    ((nodup_listedRows live stackTable onlyWithBacktrace).filter _)]
  intro row
  rw [mem_filter, beq_iff_eq]
  constructor
  · intro inGroup
    have listed := listed_of_mem_group isGroup inGroup
    exact ⟨listed, (isClass row listed).1 inGroup⟩
  · rintro ⟨listed, same⟩
    exact (isClass row listed).2 same

theorem rowsAreClasses_of_typesFollowRuns
    (follow : TypesFollowRuns (listedRows live stackTable onlyWithBacktrace)) :
    RowsAreClasses live stackTable onlyWithBacktrace := by
  have isClass : ∀ group ∈ uniqueGroups live stackTable onlyWithBacktrace,
      ∀ row ∈ listedRows live stackTable onlyWithBacktrace,
        row ∈ group ↔ row.classKey = (summaryRow group).classKey := by
    intro group isGroup row listed
    obtain ⟨head, inGroup, key⟩ := summaryRow_classKey isGroup
    rw [key]
    exact mem_group_iff_classKey follow isGroup inGroup listed
  constructor
  · intro group isGroup row inGroup
    exact (isClass group isGroup row (listed_of_mem_group isGroup inGroup)).1 inGroup
  · rw [getUniqueList_eq_map, map_map, List.Nodup, pairwise_map]
    apply nodup_uniqueGroups.2.imp_of_mem
    intro group group' isGroup isGroup' disjoint same
    -- a member of the second group belongs to the first one, too
    obtain ⟨head, inGroup, key⟩ := summaryRow_classKey isGroup'
    have listed := listed_of_mem_group isGroup' inGroup
    exact disjoint ((isClass group isGroup head listed).2 (key.symm.trans same.symm)) inGroup
  · intro row inList
    rw [getUniqueList_eq_map] at inList
    obtain ⟨group, isGroup, rfl⟩ := mem_map.1 inList
    rw [summaryRow_numAllocations isGroup]
    exact length_eq_countP isGroup (isClass group isGroup)
  · intro listed inRows
    obtain ⟨group, isGroup, inGroup⟩ := exists_group inRows
    refine ⟨summaryRow group, ?_, ((isClass group isGroup listed inRows).1 inGroup).symm⟩
    rw [getUniqueList_eq_map]
    exact mem_map_of_mem isGroup

theorem typesFollowRuns_of_rowsAreClasses (classes : RowsAreClasses live stackTable onlyWithBacktrace) :
    TypesFollowRuns (listedRows live stackTable onlyWithBacktrace) := by
  intro a listed b listed' sizes frames
  obtain ⟨group, isGroup, inGroup⟩ := exists_group listed
  have keys : b.mergeKey = a.mergeKey := Prod.ext sizes.symm frames.symm
  have unparted : b ∈ group ↔ ¬ Interleaved (listedRows live stackTable onlyWithBacktrace) a b := by
    rw [mem_uniqueGroup_iff isGroup inGroup listed', and_iff_right keys]
  rw [← unparted]
  constructor
  · intro types
    -- the group lies in the class and is as large, so it is all of it
    have inRows : summaryRow group ∈ getUniqueList live stackTable onlyWithBacktrace := by
      rw [getUniqueList_eq_map]
      exact mem_map_of_mem isGroup
    have counted := classes.counted _ inRows
    rw [summaryRow_numAllocations isGroup, countP_eq_length_filter] at counted
    have within : group ⊆ (listedRows live stackTable onlyWithBacktrace).filter
        fun row => row.classKey == (summaryRow group).classKey := by
      intro row member
      rw [mem_filter, beq_iff_eq]
      exact ⟨listed_of_mem_group isGroup member, classes.merged group isGroup row member⟩
    have whole := (subperm_of_subset (nodup_uniqueGroups.1 group isGroup) within).perm_of_length_le
      counted.ge
    rw [whole.mem_iff, mem_filter, beq_iff_eq]
    refine ⟨listed', ?_⟩
    rw [← classes.merged group isGroup a inGroup]
    exact classKey_eq_iff.2 ⟨keys, types.symm⟩
  · intro inGroup'
    have same := (classes.merged group isGroup a inGroup).trans
      (classes.merged group isGroup b inGroup').symm
    exact (classKey_eq_iff.1 same).2

end

/-- The rows are the classes exactly if entries of one size and stack are of one type exactly when no other
stack with as many frames was used for that size at an address between theirs. -/
theorem unique_rows_are_classes_iff (live : LiveTable) (stackTable : StackTable)
    (onlyWithBacktrace : Bool) :
    RowsAreClasses live stackTable onlyWithBacktrace ↔
      TypesFollowRuns (listedRows live stackTable onlyWithBacktrace) :=
  ⟨typesFollowRuns_of_rowsAreClasses, rowsAreClasses_of_typesFollowRuns⟩

/-- Two allocations of one size and stack with one of another stack between them, and a DMA buffer of that
size and stack after them. -/
def interleavedStacks : LiveTable :=
  let live := (LiveTable.empty.addSection 0x1000 16 2 .host ⟨5, 7⟩).table
  let live := (live.addSection 0x2000 16 3 .host ⟨5, 7⟩).table
  let live := (live.addSection 0x3000 16 2 .host ⟨5, 7⟩).table
  (live.addSection 0x4000 16 2 .dma ⟨5, 7⟩).table

/-- The first class has two rows, and one of them counts the DMA buffer as well. -/
theorem unique_rows_interleaved :
    (getUniqueList interleavedStacks twoStacks true).map
        (fun row => (row.classKey, row.numAllocations)) =
      [((16, some 2, .host), 1), ((16, some 3, .host), 1), ((16, some 2, .host), 2)] ∧
    ((listedRows interleavedStacks twoStacks true).map ListInfo.classKey).count (16, some 2, .host) = 2 ∧
    ((listedRows interleavedStacks twoStacks true).map ListInfo.classKey).count (16, some 2, .dma) = 1 := by
  decide +kernel

end MallocHook
