/-
Module: MallocHook.Lib.ProbeTable
Purpose: Hash tables with linear probing and without deletion: where a search ends, and that filling the
  slot keeps the table so.
Trusted boundary: none
Main exports: ProbeTable.probe, ProbeTable.search
-/
import Mathlib.Data.Fintype.Card

namespace ProbeTable

open Function

variable {n : Nat} {κ : Type*}

/-- The slot a search comes to after some steps. -/
def probe (start : Fin n) (steps : Nat) : Fin n :=
  ⟨(start.val + steps) % n, Nat.mod_lt _ (Nat.zero_lt_of_lt start.isLt)⟩

/-- A search comes to every slot. -/
theorem exists_probe (start target : Fin n) : ∃ steps < n, probe start steps = target := by
  have below := target.isLt
  have startBelow := start.isLt
  by_cases ahead : start.val ≤ target.val
  · refine ⟨target.val - start.val, by omega, Fin.ext ?_⟩
    change (start.val + (target.val - start.val)) % n = target.val
    rw [Nat.add_sub_cancel' ahead, Nat.mod_eq_of_lt below]
  · refine ⟨target.val + n - start.val, by omega, Fin.ext ?_⟩
    have sum : start.val + (target.val + n - start.val) = target.val + n := by omega
    change (start.val + (target.val + n - start.val)) % n = target.val
    rw [sum, Nat.add_mod_right, Nat.mod_eq_of_lt below]

/-! ### How full the table is -/

variable {table : Fin n → Option κ}

/-- The slots that are taken. -/
def taken (table : Fin n → Option κ) : Finset (Fin n) :=
  Finset.univ.filter fun slot => (table slot).isSome

variable {slot : Fin n}

theorem card_taken_insert (vacant : table slot = none) (key : κ) :
    (taken (update table slot (some key))).card = (taken table).card + 1 := by
  have fresh : slot ∉ taken table := by simp [taken, vacant]
  have grown : taken (update table slot (some key)) = insert slot (taken table) := by
    ext other
    by_cases here : other = slot
    · subst here
      simp [taken]
    · simp [taken, here]
  rw [grown, Finset.card_insert_of_notMem fresh]

/-- Filling an empty slot leaves what is stored where it is. -/
theorem update_of_stored {slot other : Fin n} (vacant : table slot = none) {key occupant : κ}
    (stored : table other = some occupant) : update table slot (some key) other = some occupant := by
  rw [update_of_ne _ _ _, stored]
  rintro rfl
  rw [vacant] at stored
  cases stored

theorem exists_stored_insert (vacant : table slot = none) (key occupant : κ) :
    (∃ other, update table slot (some key) other = some occupant) ↔
      (∃ other, table other = some occupant) ∨ occupant = key := by
  constructor
  · rintro ⟨other, stored⟩
    by_cases here : other = slot
    · rw [here, update_self, Option.some.injEq] at stored
      exact .inr stored.symm
    · rw [update_of_ne here] at stored
      exact .inl ⟨other, stored⟩
  · rintro (⟨other, stored⟩ | rfl)
    · exact ⟨other, update_of_stored vacant stored⟩
    · exact ⟨slot, update_self ..⟩

/-- A table that is not full has an empty slot. -/
theorem exists_vacant (room : (taken table).card < n) : ∃ slot, table slot = none := by
  by_contra full
  have everything : taken table = Finset.univ := by
    ext slot
    have occupied : table slot ≠ none := fun vacant => full ⟨slot, vacant⟩
    simpa [taken, Option.isSome_iff_ne_none] using occupied
  rw [everything, Finset.card_univ, Fintype.card_fin] at room
  exact Nat.lt_irrefl n room

/-! ### Searching -/

variable [DecidableEq κ]

/-- Whether a search for a key ends at a slot: the slot is empty or holds the key. -/
def stops (table : Fin n → Option κ) (key : κ) (slot : Fin n) : Bool :=
  (table slot).all fun occupant => decide (occupant = key)

/-- After how many steps a search ends, if it does within one round. -/
def search (table : Fin n → Option κ) (start : Fin n) (key : κ) : Option Nat :=
  (List.range n).find? fun steps => stops table key (probe start steps)

variable {start : Fin n} {key : κ} {steps : Nat}

theorem stops_eq_true : stops table key slot = true ↔ table slot = none ∨ table slot = some key := by
  unfold stops
  cases table slot <;> simp

theorem search_eq_some : search table start key = some steps ↔
    (table (probe start steps) = none ∨ table (probe start steps) = some key) ∧ steps < n ∧
      ∀ earlier < steps, ∃ other, table (probe start earlier) = some other ∧ other ≠ key := by
  have passes : ∀ slot : Fin n, (!stops table key slot) = true ↔ ∃ other, table slot = some other ∧
    other ≠ key := by
    intro slot
    unfold stops
    cases table slot <;> simp
  rw [search, List.find?_range_eq_some, List.mem_range, stops_eq_true]
  simp only [passes]

/-! ### Keys behind full slots -/

/-- Every key is stored where a search for it comes by slots that others have taken. -/
def Chained (hash : κ → Fin n) (table : Fin n → Option κ) : Prop :=
  ∀ slot key, table slot = some key → ∃ steps, search table (hash key) key = some steps ∧
    probe (hash key) steps = slot

variable {hash : κ → Fin n}

theorem Chained.empty (hash : κ → Fin n) : Chained hash fun _ => none := by
  intro slot key stored
  cases stored

/-- A search for a stored key ends at it. -/
theorem search_stored (chained : Chained hash table) (stored : table slot = some key) :
    ∃ steps, search table (hash key) key = some steps ∧ table (probe (hash key) steps) = some key := by
  obtain ⟨steps, ends, here⟩ := chained slot key stored
  exact ⟨steps, ends, here ▸ stored⟩

/-- A search for a key that is not stored ends at an empty slot. -/
theorem search_absent (start : Fin n) (absent : ∀ slot, table slot ≠ some key) (vacant : table slot = none) :
    ∃ steps, search table start key = some steps ∧ table (probe start steps) = none := by
  obtain ⟨steps, within, here⟩ := exists_probe start slot
  have found : (search table start key).isSome = true := by
    rw [search, List.find?_isSome]
    exact ⟨steps, List.mem_range.2 within, stops_eq_true.2 (.inl (here ▸ vacant))⟩
  obtain ⟨first, ends⟩ := Option.isSome_iff_exists.1 found
  obtain ⟨stopped, -⟩ := search_eq_some.1 ends
  exact ⟨first, ends, stopped.resolve_right (absent _)⟩

/-- Filling the empty slot at which the search for a key ended keeps all keys behind full slots. -/
theorem Chained.insert (chained : Chained hash table) (ends : search table (hash key) key = some steps)
    (vacant : table (probe (hash key) steps) = none) :
    Chained hash (update table (probe (hash key) steps) (some key)) := by
  obtain ⟨-, within, passed⟩ := search_eq_some.1 ends
  intro slot other stored
  by_cases here : slot = probe (hash key) steps
  · rw [here, update_self, Option.some.injEq] at stored
    subst stored
    refine ⟨steps, search_eq_some.2 ⟨.inr (update_self ..), within, fun earlier before => ?_⟩, here.symm⟩
    obtain ⟨occupant, occupied, differs⟩ := passed earlier before
    exact ⟨occupant, update_of_stored vacant occupied, differs⟩
  · rw [update_of_ne here] at stored
    obtain ⟨steps', ends', there⟩ := chained slot other stored
    obtain ⟨-, within', passed'⟩ := search_eq_some.1 ends'
    have kept : update table (probe (hash key) steps) (some key) (probe (hash other) steps') = some other :=
      update_of_stored vacant (there ▸ stored)
    refine ⟨steps', search_eq_some.2 ⟨.inr kept, within', fun earlier before => ?_⟩, there⟩
    obtain ⟨occupant, occupied, differs⟩ := passed' earlier before
    exact ⟨occupant, update_of_stored vacant occupied, differs⟩

end ProbeTable
