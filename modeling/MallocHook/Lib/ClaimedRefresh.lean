/-
Module: MallocHook.Lib.ClaimedRefresh
Purpose: The protocol by which threads keep a bound above a level that they raise: one of them claims
  the update, the others rely on it. `Tended` is kept unless a loser comes after the section of the
  holder.
Trusted boundary: none
Main exports: ClaimedRefresh.State, ClaimedRefresh.Move
-/
import Mathlib.Order.Lattice
import Mathlib.Tactic.Common

namespace ClaimedRefresh

open Function

/-- How far a thread is with a level it raised. -/
inductive Stage (α : Type*) where
  | idle
  | testing (seen : α)
  | contending
  | holding
  | inside
  | releasing

namespace Stage

variable {α : Type*}

/-- The thread has the claim. -/
@[simp] def Claims : Stage α → Prop
  | holding | inside | releasing => True
  | idle | testing _ | contending => False

/-- The thread sees to it that the level is dealt with: it raised it, or it is on its way to the section.
-/
@[simp] def Attends (level : α) : Stage α → Prop
  | testing seen => seen = level
  | contending | holding => True
  | idle | inside | releasing => False

end Stage

/-- The level and the bound, whether the claim is taken, who is in the section, and where every thread
is. -/
structure State (τ α : Type*) where
  level : α
  bound : α
  claimed : Bool
  locked : Option τ
  stage : τ → Stage α

variable {τ α : Type*} [DecidableEq τ] [LinearOrder α] {t : τ} {s s' : State τ α}

/-- The moves of thread `t`. -/
inductive Move (t : τ) (s : State τ α) : State τ α → Prop
  /-- Outside the section, the thread raises the level. -/
  | raise {level : α} (idle : s.stage t = .idle) (unlocked : s.locked = none)
      (higher : s.level < level) :
      Move t s { s with level := level, stage := update s.stage t (.testing level) }
  /-- What the thread raised the level to is within the bound. -/
  | pass {seen : α} (tests : s.stage t = .testing seen) (within : seen ≤ s.bound) :
      Move t s { s with stage := update s.stage t .idle }
  /-- What the thread raised the level to is beyond the bound. -/
  | cross {seen : α} (tests : s.stage t = .testing seen) (beyond : s.bound < seen) :
      Move t s { s with stage := update s.stage t .contending }
  /-- The thread gets the claim. -/
  | take (contends : s.stage t = .contending) (free : s.claimed = false) :
      Move t s { s with claimed := true, stage := update s.stage t .holding }
  /-- The thread finds the claim taken and gives up, though not on an open level the holder has left
  behind. -/
  | giveUp (contends : s.stage t = .contending) (taken : s.claimed = true)
      (timely : s.bound < s.level → ∀ u, s.stage u ≠ .releasing) :
      Move t s { s with stage := update s.stage t .idle }
  /-- The thread enters the section and moves the bound to where it covers the level. -/
  | enter {bound : α} (holds : s.stage t = .holding) (unlocked : s.locked = none)
      (covers : s.level ≤ bound) :
      Move t s { s with bound := bound, locked := some t, stage := update s.stage t .inside }
  | leave (isInside : s.stage t = .inside) :
      Move t s { s with locked := none, stage := update s.stage t .releasing }
  | release (releases : s.stage t = .releasing) :
      Move t s { s with claimed := false, stage := update s.stage t .idle }

/-- What holds between any two moves. -/
structure Tended (s : State τ α) : Prop where
  /-- A claim that is taken is held by some thread. -/
  claimed : s.claimed = true → ∃ u, (s.stage u).Claims
  /-- The thread in the section has it locked. -/
  inside : ∀ u, s.stage u = .inside → s.locked = some u
  /-- The level is not open while the section is locked. -/
  locked : s.locked.isSome → s.level ≤ s.bound
  /-- Some thread attends to an open level. -/
  attended : s.bound < s.level → ∃ u, (s.stage u).Attends s.level

section

variable {stage : τ → Stage α} {new : Stage α} {P : Stage α → Prop}

omit [LinearOrder α] in
theorem exists_update_self (holds : P new) : ∃ u, P (update stage t new u) := ⟨t, by rwa [update_self]⟩

omit [LinearOrder α] in
theorem exists_update_of_not (elsewhere : ¬ P (stage t)) (found : ∃ u, P (stage u)) :
    ∃ u, P (update stage t new u) := by
  obtain ⟨u, holds⟩ := found
  have other : u ≠ t := by
    rintro rfl
    exact elsewhere holds
  exact ⟨u, by rwa [update_of_ne other]⟩

end

namespace Tended

/-- Every move keeps an open level attended. -/
theorem move (tended : Tended s) (moved : Move t s s') : Tended s' := by
  obtain ⟨claimed, inside, locked, attended⟩ := tended
  -- Only the thread that moves can have come to be in the section or to have left it.
  have others {new : Stage α} (outside : new ≠ .inside) :
      ∀ u, update s.stage t new u = .inside → s.locked = some u := by grind [update_apply]
  cases moved with
  | raise idle unlocked higher =>
      exact ⟨fun taken => exists_update_of_not (by simp [idle]) (claimed taken),
        others (by simp), by simp [unlocked],
        fun _ => exists_update_self rfl⟩
  | pass tests within =>
      refine ⟨fun taken => exists_update_of_not (by simp [tests]) (claimed taken),
        others (by simp), locked, fun beyond => ?_⟩
      have stale : ¬ (s.stage t).Attends s.level := by
        rw [tests]
        rintro rfl
        exact absurd beyond (not_lt_of_ge within)
      exact exists_update_of_not stale (attended beyond)
  | cross tests beyond =>
      exact ⟨fun taken => exists_update_of_not (by simp [tests]) (claimed taken),
        others (by simp), locked, fun _ => exists_update_self trivial⟩
  | take contends free =>
      exact ⟨fun _ => exists_update_self trivial, others (by simp), locked, fun _ =>
        exists_update_self trivial⟩
  | giveUp contends taken timely =>
      refine ⟨fun taken => exists_update_of_not (by simp [contends]) (claimed taken),
        others (by simp), locked, fun beyond => ?_⟩
      -- The holder of the claim is not inside, where no level is open, so the section is before it.
      obtain ⟨u, holds⟩ := claimed taken
      have holding : s.stage u = .holding := by
        cases at_ : s.stage u with
        | holding => rfl
        | inside =>
            have within := locked (by rw [inside u at_]; rfl)
            exact absurd beyond (not_lt_of_ge within)
        | releasing => exact absurd at_ (timely beyond u)
        | idle | testing | contending => simp [at_] at holds
      have other : u ≠ t := by
        rintro rfl
        rw [contends] at holding
        cases holding
      exact ⟨u, by simp [update_of_ne other, holding]⟩
  | enter holds unlocked covers =>
      refine ⟨fun _ => exists_update_self trivial,
        fun u (isInside : update s.stage t .inside u = .inside) => ?_, fun _ => covers,
        fun beyond => absurd covers (not_le_of_gt beyond)⟩
      by_cases here : u = t
      · rw [here]
      · rw [update_of_ne here] at isInside
        have before := inside u isInside
        rw [unlocked] at before
        cases before
  | leave isInside =>
      have within := locked (by rw [inside t isInside]; rfl)
      refine ⟨fun _ => exists_update_self trivial,
        fun u (isInside' : update s.stage t .releasing u = .inside) => ?_, by simp,
        fun beyond => absurd beyond (not_lt_of_ge within)⟩
      have same := others (by simp) u isInside'
      rw [inside t isInside] at same
      cases same
      rw [update_self] at isInside'
      cases isInside'
  | release releases =>
      exact ⟨by simp, others (by simp), locked,
        fun beyond => exists_update_of_not (by simp [releases]) (attended beyond)⟩

omit [DecidableEq τ] in
/-- Once every thread is idle, the level is within the bound. -/
theorem settled (tended : Tended s) (idle : ∀ u, s.stage u = .idle) : s.level ≤ s.bound := by
  by_contra beyond
  obtain ⟨u, attends⟩ := tended.attended (lt_of_not_ge beyond)
  simp [idle u] at attends

end Tended

end ClaimedRefresh
