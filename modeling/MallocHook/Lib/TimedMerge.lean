/-
Module: MallocHook.Lib.TimedMerge
Purpose: The merge of a sorted list into a list of which only some items have a time, and those in any
  order.
Trusted boundary: none
Main exports: timedMerge, timedMerge_lefts, timedMerge_rights
-/
import Mathlib.Data.List.TakeWhile
import Mathlib.Order.Lattice

section

open List Function

section

variable {α β τ : Type*} [LinearOrder τ] (stamp : α → Option τ) (time : β → τ)

/-- The item goes before one with this stamp. -/
def dueAt (stamp : Option τ) (item : β) : Bool := stamp.any fun stamp => decide (time item ≤ stamp)

/-- Before each entry go the pending items that are due. -/
def timedMerge : List α → List β → List (α ⊕ β)
  | [], pending => pending.map .inr
  | entry :: later, pending =>
      (pending.takeWhile (dueAt time (stamp entry))).map .inr ++
        .inl entry :: timedMerge later (pending.dropWhile (dueAt time (stamp entry)))

/-- The time of an item of either list. -/
def timeOf : α ⊕ β → Option τ := Sum.elim stamp fun item => some (time item)

variable {stamp time} {entries : List α} {pending : List β}

theorem timedMerge_lefts : (timedMerge stamp time entries pending).filterMap Sum.getLeft? = entries := by
  induction entries generalizing pending with
  | nil => simp [timedMerge, filterMap_map, comp_def]
  | cons entry later ih => simp [timedMerge, filterMap_map, comp_def, ih]

theorem timedMerge_rights : (timedMerge stamp time entries pending).filterMap Sum.getRight? = pending := by
  induction entries generalizing pending with
  | nil => simp [timedMerge, filterMap_map, comp_def]
  | cons entry later ih =>
      rw [timedMerge, filterMap_append, filterMap_cons_none rfl, ih, filterMap_map]
      simp [comp_def]

theorem mem_of_inl_mem_timedMerge {entry : α} (member : .inl entry ∈ timedMerge stamp time entries pending) :
    entry ∈ entries := by
  have there : entry ∈ (timedMerge stamp time entries pending).filterMap Sum.getLeft? :=
    mem_filterMap.2 ⟨_, member, rfl⟩
  rwa [timedMerge_lefts] at there

theorem mem_of_inr_mem_timedMerge {item : β} (member : .inr item ∈ timedMerge stamp time entries pending) :
    item ∈ pending := by
  have there : item ∈ (timedMerge stamp time entries pending).filterMap Sum.getRight? :=
    mem_filterMap.2 ⟨_, member, rfl⟩
  rwa [timedMerge_rights] at there

/-- What is left of a sorted list is behind the stamp. -/
theorem lt_time_of_mem_dropWhile (sorted : pending.Pairwise fun one two => time one ≤ time two)
    {mark : Option τ} {item : β} (left : item ∈ pending.dropWhile (dueAt time mark)) :
    ∀ bound ∈ mark, bound < time item := by
  rintro bound rfl
  have sorted' := sorted.sublist (dropWhile_sublist (dueAt time (some bound)))
  cases rest : pending.dropWhile (dueAt time (some bound)) with
  | nil =>
      rw [rest] at left
      cases left
  | cons first later =>
      have notDue : ¬dueAt time (some bound) first := by
        have stops := head_dropWhile_not (dueAt time (some bound)) (l := pending) (by simp [rest])
        simpa [rest] using stops
      have above : bound < time first := by simpa [dueAt] using notDue
      rw [rest] at left sorted'
      rcases mem_cons.1 left with rfl | later
      · exact above
      · exact above.trans_le ((pairwise_cons.1 sorted').1 item later)

theorem time_le_of_mem_takeWhile {mark : Option τ} {item : β}
    (taken : item ∈ pending.takeWhile (dueAt time mark)) : ∃ bound ∈ mark, time item ≤ bound := by
  have due := mem_takeWhile_imp taken
  cases mark with
  | none => simp [dueAt] at due
  | some bound => exact ⟨bound, rfl, by simpa [dueAt] using due⟩

/-- A pending item is behind no entry that it does not come after, and between it and the next entry,
which is not before it, are only pending items. -/
theorem timedMerge_placed (sorted : pending.Pairwise fun one two => time one ≤ time two)
    {front back : List (α ⊕ β)} {item : β}
    (split : timedMerge stamp time entries pending = front ++ .inr item :: back) :
    (∀ entry, .inl entry ∈ front → ∀ bound ∈ stamp entry, bound < time item) ∧
      ∃ items : List β, back = items.map .inr ∨
        ∃ entry rest, back = items.map .inr ++ .inl entry :: rest ∧
          ∃ bound ∈ stamp entry, time item ≤ bound := by
  induction entries generalizing pending front with
  | nil =>
      obtain ⟨before, behind, _, isFront, isBehind⟩ := map_eq_append_iff.1 split
      obtain ⟨_, items, _, _, isBack⟩ := map_eq_cons_iff.1 isBehind
      refine ⟨fun entry member => ?_, items, .inl isBack.symm⟩
      rw [← isFront] at member
      simp at member
  | cons entry later ih =>
      rw [timedMerge] at split
      obtain ⟨between, isFront, isRest⟩ | ⟨between, isTaken, isBack⟩ := append_eq_append_iff.1 split
      · cases between with
        | nil => cases isRest
        | cons first between =>
            -- the item is behind this entry
            rw [cons_append, cons_eq_cons] at isRest
            obtain ⟨rfl, isRest⟩ := isRest
            have inside : .inr item ∈ timedMerge stamp time later
              (pending.dropWhile (dueAt time (stamp entry))) := by
              rw [isRest]
              exact mem_append_right _ mem_cons_self
            have left := mem_of_inr_mem_timedMerge inside
            obtain ⟨behind, next⟩ := ih (sorted.sublist (dropWhile_sublist _)) isRest
            refine ⟨fun other member => ?_, next⟩
            rw [isFront, mem_append, mem_cons] at member
            rcases member with new | same | member
            · simp at new
            · cases same
              exact lt_time_of_mem_dropWhile sorted left
            · exact behind other member
      · cases between with
        | nil => cases isBack
        | cons first between =>
            -- the item is one of those that go before this entry
            rw [cons_append, cons_eq_cons] at isBack
            obtain ⟨rfl, rfl⟩ := isBack
            obtain ⟨before, taken, isTake, isFront, isTaken⟩ := map_eq_append_iff.1 isTaken
            obtain ⟨_, items, rfl, same, isBetween⟩ := map_eq_cons_iff.1 isTaken
            cases same
            refine ⟨fun other member => ?_, items, .inr ⟨entry, _, by rw [isBetween], ?_⟩⟩
            · rw [← isFront] at member
              simp at member
            · have taken : item ∈ pending.takeWhile (dueAt time (stamp entry)) :=
                isTake ▸ mem_append_right _ mem_cons_self
              exact time_le_of_mem_takeWhile taken

/-- Entries with times in order. -/
theorem timedMerge_sorted (sorted : pending.Pairwise fun one two => time one ≤ time two)
    (inOrder : (entries.filterMap stamp).Pairwise (· ≤ ·)) :
    ((timedMerge stamp time entries pending).filterMap (timeOf stamp time)).Pairwise (· ≤ ·) := by
  induction entries generalizing pending with
  | nil => simpa [timedMerge, timeOf, filterMap_map, comp_def, pairwise_map] using sorted
  | cons entry later ih =>
      have sorted' := sorted.sublist (dropWhile_sublist (dueAt time (stamp entry)))
      have dues : (((pending.takeWhile (dueAt time (stamp entry))).map .inr).filterMap (timeOf stamp time)) =
          (pending.takeWhile (dueAt time (stamp entry))).map time := by
        simp [timeOf, filterMap_map, comp_def]
      rw [timedMerge, filterMap_append, dues]
      cases found : stamp entry with
      | none =>
          rw [filterMap_cons_none found] at inOrder
          rw [found] at sorted'
          rw [filterMap_cons_none (show timeOf stamp time (.inl entry) = none from found),
            show pending.takeWhile (dueAt time none) =
              [] from takeWhile_eq_nil_iff.2 fun _ => by simp [dueAt]]
          exact ih sorted' inOrder
      | some bound =>
          rw [filterMap_cons_some found, pairwise_cons] at inOrder
          rw [found] at sorted'
          have above : ∀ later' ∈ (timedMerge stamp time later
              (pending.dropWhile (dueAt time (some bound)))).filterMap (timeOf stamp time),
              bound ≤ later' := by
            intro later' member
            obtain ⟨old | new, there, isTime⟩ := mem_filterMap.1 member
            · exact inOrder.1 later' (mem_filterMap.2 ⟨old, mem_of_inl_mem_timedMerge there, isTime⟩)
            · cases isTime
              exact (lt_time_of_mem_dropWhile sorted (mem_of_inr_mem_timedMerge there) bound rfl).le
          rw [filterMap_cons_some (show timeOf stamp time (.inl entry) = some bound from found),
            pairwise_append, pairwise_cons, pairwise_map]
          refine ⟨sorted.sublist (takeWhile_sublist _), ⟨above, ih sorted' inOrder.2⟩, ?_⟩
          intro early member late behind
          obtain ⟨item, taken, rfl⟩ := mem_map.1 member
          obtain ⟨_, ⟨rfl⟩, below⟩ := time_le_of_mem_takeWhile taken
          rcases mem_cons.1 behind with rfl | behind
          · exact below
          · exact below.trans (above late behind)

end

end
