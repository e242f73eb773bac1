/-
Module: MallocHook.Lib.Tally
Purpose: Amounts charged to accounts: what an account holds after a log of charges.
Trusted boundary: none
Main exports: Tally.charge, Tally.book, Tally.sumFor
-/
import Mathlib.Algebra.BigOperators.Group.List.Basic
import Mathlib.Data.List.AList
import Mathlib.Data.List.Induction

namespace Tally

open List

variable {κ M : Type*} [DecidableEq κ]

/-! ### Sums -/

variable (log : List (κ × M))

section

variable [AddCommMonoid M]

/-- Add an amount to an account. -/
def charge (book : AList fun _ : κ => M) (account : κ) (amount : M) : AList fun _ : κ => M :=
  book.insert account ((book.lookup account).getD 0 + amount)

/-- The book after a log of charges. -/
def book (log : List (κ × M)) : AList fun _ : κ => M :=
  log.foldl (fun book entry => charge book entry.1 entry.2) ∅

/-- What a log charges to an account. -/
def sumFor (account : κ) : M :=
  ((log.filter fun entry => decide (entry.1 = account)).map Prod.snd).sum

theorem sumFor_append (log log' : List (κ × M)) (account : κ) :
    sumFor (log ++ log') account = sumFor log account + sumFor log' account := by
  simp [sumFor]

/-- Charges to one account. -/
theorem sumFor_single (account other : κ) (amounts : List M) :
    sumFor (amounts.map (account, ·)) other = if account = other then amounts.sum else 0 := by
  by_cases same : account = other
  · rw [sumFor, filter_eq_self.2 (by simp [same]), map_map, if_pos same]
    exact congrArg List.sum (map_id amounts)
  · rw [sumFor, filter_eq_nil_iff.2 (by simp [same]), if_neg same]
    rfl

theorem sumFor_unopened {log : List (κ × M)} {account : κ} (unopened : account ∉ log.map Prod.fst) :
    sumFor log account = 0 := by
  have nothing : log.filter (fun entry => decide (entry.1 = account)) = [] := by
    apply filter_eq_nil_iff.2
    intro entry member same
    exact unopened (mem_map.2 ⟨entry, member, of_decide_eq_true same⟩)
  rw [sumFor, nothing]
  rfl

theorem book_append_singleton (entry : κ × M) :
    book (log ++ [entry]) = charge (book log) entry.1 entry.2 := by
  rw [book, foldl_append]
  rfl

/-- An account holds what was charged to it. -/
theorem lookup_book (account : κ) :
    (book log).lookup account =
      if account ∈ log.map Prod.fst then some (sumFor log account) else none := by
  induction log using List.reverseRecOn with
  | nil => rfl
  | append_singleton log entry ih =>
      rw [book_append_singleton, charge, sumFor_append]
      have accounts : account ∈ (log ++ [entry]).map Prod.fst ↔ account ∈ log.map Prod.fst ∨
        account = entry.1 := by
        rw [map_append, mem_append, map_singleton, mem_singleton]
      by_cases here : account = entry.1
      · have last : sumFor [entry] account = entry.2 := by simp [sumFor, here]
        rw [if_pos (accounts.2 (.inr here)), last, here, AList.lookup_insert, ← here, ih]
        by_cases opened : account ∈ log.map Prod.fst
        · rw [if_pos opened, Option.getD_some]
        · rw [if_neg opened, Option.getD_none, sumFor_unopened opened]
      · have last : sumFor [entry] account = 0 := by simp [sumFor, Ne.symm here]
        have before : account ∈ (log ++ [entry]).map Prod.fst ↔ account ∈ log.map Prod.fst :=
          accounts.trans (or_iff_left here)
        simp only [before]
        rw [AList.lookup_insert_ne here, ih, last, add_zero]

theorem mem_entries_book {log : List (κ × M)} {account : κ} {sum : M} :
    (⟨account, sum⟩ : Sigma fun _ : κ => M) ∈ (book log).entries ↔
      account ∈ log.map Prod.fst ∧ sum = sumFor log account := by
  rw [← AList.mem_lookup_iff, lookup_book]
  by_cases opened : account ∈ log.map Prod.fst
  · simp [opened, eq_comm]
  · simp [opened]

end

/-! ### Least amounts -/

section

variable [LT M] [DecidableLT M]

/-- Keep an amount if the account is not open or holds a larger one. -/
def lower (book : AList fun _ : κ => M) (account : κ) (amount : M) : AList fun _ : κ => M :=
  if (book.lookup account).all (fun held => decide (amount < held)) then book.insert account amount else book

/-- The book after a log. -/
def least : AList fun _ : κ => M :=
  log.foldl (fun book entry => lower book entry.1 entry.2) ∅

/-- One entry, in an account or in another. -/
theorem lookup_lower (book : AList fun _ : κ => M) (account : κ) (amount : M) (other : κ) :
    (lower book account amount).lookup other =
      if other = account then some ((book.lookup account).elim amount fun held => if amount < held then
        amount else held)
      else book.lookup other := by
  unfold lower
  by_cases here : other = account
  · subst here
    rw [if_pos rfl]
    cases held : book.lookup other with
    | none => exact AList.lookup_insert book
    | some value =>
        by_cases smaller : amount < value
        · simp [smaller]
        · simp [smaller, held]
  · rw [if_neg here]
    split
    · exact AList.lookup_insert_ne here
    · rfl

/-- An account that occurs in the log holds the least of its amounts; the others are not open. -/
theorem lookup_least [LE M] [Std.LawfulOrderLT M] [Std.IsLinearOrder M] (account : κ) :
    ((least log).lookup account = none ∧ ∀ amount, (account, amount) ∉ log) ∨
      ∃ amount, (least log).lookup account = some amount ∧ (account, amount) ∈ log ∧
        ∀ other, (account, other) ∈ log → amount ≤ other := by
  induction log using List.reverseRecOn with
  | nil => exact .inl ⟨rfl, fun _ => not_mem_nil⟩
  | append_singleton log entry ih =>
      obtain ⟨key, value⟩ := entry
      rw [least, foldl_append, ← least, foldl_cons, foldl_nil, lookup_lower]
      have members : ∀ amount, (account, amount) ∈ log ++ [(key, value)] ↔
          (account, amount) ∈ log ∨ account = key ∧ amount = value := by
        intro amount
        rw [mem_append, mem_singleton, Prod.mk.injEq]
      by_cases here : account = key
      · subst here
        rw [if_pos rfl]
        right
        rcases ih with ⟨unopened, absent⟩ | ⟨amount, opened, occurs, smallest⟩
        · refine ⟨value, by rw [unopened]; rfl, (members value).2 (.inr ⟨rfl, rfl⟩), fun other member => ?_⟩
          rcases (members other).1 member with early | ⟨-, rfl⟩
          · exact absurd early (absent other)
          · exact Std.le_refl _
        · by_cases smaller : value < amount
          · refine ⟨value, by rw [opened, Option.elim_some, if_pos smaller],
              (members value).2 (.inr ⟨rfl, rfl⟩),
              fun other member => ?_⟩
            rcases (members other).1 member with early | ⟨-, rfl⟩
            · exact Std.le_trans (Std.le_of_lt smaller) (smallest other early)
            · exact Std.le_refl _
          · refine ⟨amount, by rw [opened, Option.elim_some, if_neg smaller],
              (members amount).2 (.inl occurs),
              fun other member => ?_⟩
            rcases (members other).1 member with early | ⟨-, rfl⟩
            · exact smallest other early
            · exact Std.not_lt.1 smaller
      · rw [if_neg here]
        simp only [members, here, false_and, or_false]
        exact ih

end

end Tally
