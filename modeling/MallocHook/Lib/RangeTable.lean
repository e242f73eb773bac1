/-
Module: MallocHook.Lib.RangeTable
Purpose: Looking up a point in a table of ranges that is sorted by their starts.
Trusted boundary: none
Main exports: RangeTable.locate, RangeTable.Apart
-/
import Mathlib.Data.List.TakeWhile
import Mathlib.Tactic.Common

namespace RangeTable

open List

variable {α ι : Type*} [LT α] [DecidableLT α] (start stop : ι → α)

/-- The last range that does not start after the point, unless it ends before it. -/
def locate (table : List ι) (x : α) : Option ι :=
  (table.takeWhile fun range => !decide (x < start range)).getLast?.filter fun range =>
    decide (x < stop range)

variable [LE α] [Std.LawfulOrderLT α] [Std.IsLinearOrder α]

/-- Two ranges do not overlap. -/
def Apart (a b : ι) : Prop := stop a ≤ start b ∨ stop b ≤ start a

variable {start stop} {table : List ι} {x : α}

omit [DecidableLT α] in
/-- In a sorted table, what comes after a range starts where it has ended. -/
theorem stop_le_of_after {range other : ι} (proper : start other < stop other)
    (after : start range ≤ start other) (apart : Apart start stop range other) :
    stop range ≤ start other := by
  rcases apart with right | left
  · exact right
  · exact absurd (Std.lt_of_lt_of_le proper (Std.le_trans left after)) Std.lt_irrefl

theorem locate_eq_some_iff (sorted : table.Pairwise fun a b => start a ≤ start b)
    (apart : table.Pairwise (Apart start stop)) (proper : ∀ range ∈ table, start range < stop range)
    {range : ι} :
    locate start stop table x = some range ↔ range ∈ table ∧ start range ≤ x ∧ x < stop range := by
  rw [locate, Option.filter_eq_some_iff, decide_eq_true_eq]
  constructor
  · rintro ⟨last, inside⟩
    have member := mem_of_mem_getLast? last
    have begun := mem_takeWhile_imp member
    rw [Bool.not_eq_true', decide_eq_false_iff_not, Std.not_lt] at begun
    exact ⟨(takeWhile_sublist _).subset member, begun, inside⟩
  · rintro ⟨member, begun, inside⟩
    refine ⟨?_, inside⟩
    obtain ⟨early, late, rfl⟩ := append_of_mem member
    rw [pairwise_append] at sorted
    obtain ⟨-, lateSorted, across⟩ := sorted
    have upTo : ∀ other ∈ early ++ [range], (!decide (x < start other)) = true := by
      intro other within
      rw [Bool.not_eq_true', decide_eq_false_iff_not, Std.not_lt]
      rcases mem_append.1 within with inEarly | itself
      · exact Std.le_trans (across other inEarly range mem_cons_self) begun
      · rw [mem_singleton.1 itself]
        exact begun
    have stops : late.takeWhile (fun other => !decide (x < start other)) = [] := by
      cases late with
      | nil => rfl
      | cons next late =>
          have after := (pairwise_cons.1 lateSorted).1 next mem_cons_self
          have disjoint : Apart start stop range next :=
            (pairwise_cons.1 (pairwise_append.1 apart).2.1).1 next mem_cons_self
          have ended := stop_le_of_after (proper next (by simp)) after disjoint
          exact takeWhile_cons_of_neg (by simpa using Std.lt_of_lt_of_le inside ended)
    rw [append_cons, takeWhile_append_of_pos upTo, stops, append_nil, List.getLast?_concat]

end RangeTable
