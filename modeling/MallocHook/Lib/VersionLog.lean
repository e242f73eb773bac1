/-
Module: MallocHook.Lib.VersionLog
Purpose: Values that are published one after the other; a value that differs from the one before it gets
  the next version number.
Trusted boundary: none
Main exports: Numbered, Numbered.numbers_le, Numbered.sorted
-/
import Mathlib.Data.List.Basic

/-- A log of values with their version numbers, and the value and the number that were published last. -/
inductive Numbered {α : Type*} (same : α → α → Prop) : List (α × Nat) → α → Nat → Prop
  | first (value : α) : Numbered same [(value, 1)] value 1
  | again {log : List (α × Nat)} {last value : α} {number : Nat} : Numbered same log last number →
    same last value → Numbered same (log ++ [(value, number)]) value number
  | next {log : List (α × Nat)} {last value : α} {number : Nat} : Numbered same log last number →
    ¬same last value → Numbered same (log ++ [(value, number + 1)]) value (number + 1)

namespace Numbered

open List

variable {α : Type*} {same : α → α → Prop} {log : List (α × Nat)} {last : α} {number : Nat}

section

variable (numbered : Numbered same log last number)
include numbered

theorem getLast?_eq : log.getLast? = some (last, number) := by
  cases numbered with
  | first => rfl
  | again => exact List.getLast?_concat
  | next => exact List.getLast?_concat

theorem last_mem : (last, number) ∈ log := mem_of_getLast? numbered.getLast?_eq

/-- The numbers lie between one and the last one. -/
theorem numbers_le : ∀ entry ∈ log, 1 ≤ entry.2 ∧ entry.2 ≤ number := by
  induction numbered with
  | first => simp
  | again numbered _ ih =>
      rw [forall_mem_append, forall_mem_singleton]
      exact ⟨ih, (ih _ numbered.last_mem :)⟩
  | next _ _ ih =>
      rw [forall_mem_append, forall_mem_singleton]
      exact ⟨fun entry member => ⟨(ih entry member).1, Nat.le_succ_of_le (ih entry member).2⟩,
        Nat.le_add_left _ _, Nat.le_refl _⟩

theorem sorted : log.Pairwise fun one two => one.2 ≤ two.2 := by
  induction numbered with
  | first => exact pairwise_singleton _ _
  | again numbered _ ih =>
      rw [pairwise_append]
      refine ⟨ih, pairwise_singleton _ _, fun entry member new isNew => ?_⟩
      rw [mem_singleton.1 isNew]
      exact (numbered.numbers_le entry member).2
  | next numbered _ ih =>
      rw [pairwise_append]
      refine ⟨ih, pairwise_singleton _ _, fun entry member new isNew => ?_⟩
      rw [mem_singleton.1 isNew]
      exact Nat.le_succ_of_le (numbered.numbers_le entry member).2

end

/-- A number stands for one value. -/
theorem same_of_number_eq (equivalence : Equivalence same) (numbered : Numbered same log last number)
    {one two : α × Nat} (memberOne : one ∈ log) (memberTwo : two ∈ log) (sameNumber : one.2 = two.2) :
    same one.1 two.1 := by
  induction numbered generalizing one two with
  | first =>
      rw [mem_singleton.1 memberOne, mem_singleton.1 memberTwo]
      exact equivalence.refl _
  | again numbered unchanged ih =>
      rcases mem_append.1 memberOne with oldOne | newOne <;>
        rcases mem_append.1 memberTwo with oldTwo | newTwo
      · exact ih oldOne oldTwo sameNumber
      · rw [mem_singleton.1 newTwo] at sameNumber ⊢
        exact equivalence.trans (ih oldOne numbered.last_mem sameNumber) unchanged
      · rw [mem_singleton.1 newOne] at sameNumber ⊢
        exact equivalence.trans (equivalence.symm unchanged) (ih numbered.last_mem oldTwo sameNumber)
      · rw [mem_singleton.1 newOne, mem_singleton.1 newTwo]
        exact equivalence.refl _
  | next numbered _ ih =>
      rcases mem_append.1 memberOne with oldOne | newOne <;>
        rcases mem_append.1 memberTwo with oldTwo | newTwo
      · exact ih oldOne oldTwo sameNumber
      · have below := (numbered.numbers_le one oldOne).2
        rw [sameNumber, mem_singleton.1 newTwo] at below
        exact absurd below (Nat.not_succ_le_self _)
      · have below := (numbered.numbers_le two oldTwo).2
        rw [← sameNumber, mem_singleton.1 newOne] at below
        exact absurd below (Nat.not_succ_le_self _)
      · rw [mem_singleton.1 newOne, mem_singleton.1 newTwo]
        exact equivalence.refl _

/-- Every number up to the last one is used. -/
theorem exists_number (numbered : Numbered same log last number) {n : Nat} (pos : 1 ≤ n) (le : n ≤ number) :
    ∃ value, (value, n) ∈ log := by
  induction numbered with
  | first value =>
      obtain rfl := Nat.le_antisymm le pos
      exact ⟨value, mem_singleton_self _⟩
  | again _ _ ih =>
      obtain ⟨value, member⟩ := ih le
      exact ⟨value, mem_append_left _ member⟩
  | @next _ _ value _ _ _ ih =>
      rcases Nat.le_succ_iff.1 le with le | rfl
      · obtain ⟨value, member⟩ := ih le
        exact ⟨value, mem_append_left _ member⟩
      · exact ⟨value, mem_append_right _ (mem_singleton_self _)⟩

end Numbered
