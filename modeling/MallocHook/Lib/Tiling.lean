/-
Module: MallocHook.Lib.Tiling
Purpose: A table whose entries tile a finite space, and what happens to it when an entry is erased or
  inserted.
Trusted boundary: none
Main exports: Tiling, Tiling.erase, Tiling.insert
-/
import Mathlib.Data.Finset.Card

open Function

/-- The extents of the entries are disjoint and make up the space. -/
structure Tiling {κ ν π : Type*} (extent : κ → ν → Finset π) (table : κ → Option ν)
    (space : Finset π) : Prop where
  covered : ∀ point, point ∈ space ↔ ∃ key value, table key = some value ∧ point ∈ extent key value
  apart : ∀ {key key' value value'}, table key = some value → table key' = some value' → key ≠ key' →
    Disjoint (extent key value) (extent key' value')

namespace Tiling

variable {κ ν π : Type*} {extent : κ → ν → Finset π} {table : κ → Option ν} {space : Finset π}
  {key : κ} {value : ν}

theorem empty : Tiling extent (fun _ => none) ∅ where
  covered point := by simp
  apart found := by cases found

/-- Every entry lies in the space. -/
theorem subset (tiling : Tiling extent table space) (found : table key = some value) :
    extent key value ⊆ space :=
  fun point inside => (tiling.covered point).2 ⟨key, value, found, inside⟩

variable [DecidableEq κ] [DecidableEq π]

/-- Erasing an entry uncovers its extent. -/
theorem erase (tiling : Tiling extent table space) (found : table key = some value) :
    Tiling extent (update table key none) (space \ extent key value) where
  covered point := by
    rw [Finset.mem_sdiff, tiling.covered]
    constructor
    · rintro ⟨⟨other, value', found', inside⟩, outside⟩
      have differ : other ≠ key := by
        rintro rfl
        rw [found] at found'
        cases found'
        exact outside inside
      exact ⟨other, value', by rw [update_of_ne differ, found'], inside⟩
    · rintro ⟨other, value', found', inside⟩
      have differ : other ≠ key := by
        rintro rfl
        rw [update_self] at found'
        cases found'
      rw [update_of_ne differ] at found'
      exact ⟨⟨other, value', found', inside⟩, Finset.disjoint_left.1
        (tiling.apart found' found differ) inside⟩
  apart {first second _ _} found₁ found₂ differ := by
    have old : ∀ {other other'}, update table key none other = some other' →
        table other = some other' := by
      intro other other' looked
      by_cases here : other = key
      · subst here
        rw [update_self] at looked
        cases looked
      · rwa [update_of_ne here] at looked
    exact tiling.apart (old found₁) (old found₂) differ

/-- Inserting an entry over a free extent covers it. -/
theorem insert (tiling : Tiling extent table space) (absent : table key = none)
    (free : Disjoint space (extent key value)) :
    Tiling extent (update table key (some value)) (space ∪ extent key value) where
  covered point := by
    rw [Finset.mem_union, tiling.covered]
    constructor
    · rintro (⟨other, value', found, inside⟩ | inside)
      · have differ : other ≠ key := by
          rintro rfl
          rw [absent] at found
          cases found
        exact ⟨other, value', by rw [update_of_ne differ, found], inside⟩
      · exact ⟨key, value, update_self .., inside⟩
    · rintro ⟨other, value', found, inside⟩
      by_cases here : other = key
      · subst here
        rw [update_self] at found
        cases found
        exact .inr inside
      · rw [update_of_ne here] at found
        exact .inl ⟨other, value', found, inside⟩
  apart {first second v w} found₁ found₂ differ := by
    -- An old entry lies in the space, and so off the new extent.
    have old : ∀ {other other'}, other ≠ key → update table key (some value) other = some other' →
        table other = some other' := fun off looked => by rwa [update_of_ne off] at looked
    have off : ∀ {other other'}, other ≠ key → update table key (some value) other = some other' →
        Disjoint (extent other other') (extent key value) := fun off looked =>
      Finset.disjoint_of_subset_left (tiling.subset (old off looked)) free
    by_cases firstHere : first = key
    · subst firstHere
      rw [update_self] at found₁
      cases found₁
      exact (off (Ne.symm differ) found₂).symm
    · by_cases secondHere : second = key
      · subst secondHere
        rw [update_self] at found₂
        cases found₂
        exact off differ found₁
      · exact tiling.apart (old firstHere found₁) (old secondHere found₂) differ

omit [DecidableEq κ] in
theorem card_erase (tiling : Tiling extent table space) (found : table key = some value) :
    (space \ extent key value).card + (extent key value).card = space.card :=
  Finset.card_sdiff_add_card_eq_card (tiling.subset found)

omit [DecidableEq κ] in
/-- A range that meets no entry can be cut out of the space without changing it. -/
theorem sdiff_of_disjoint (tiling : Tiling extent table space) {range : Finset π}
    (misses : ∀ other value, table other = some value → Disjoint (extent other value) range) :
    space \ range = space := by
  refine Finset.sdiff_eq_self_of_disjoint (Finset.disjoint_left.2 fun point inSpace inRange => ?_)
  obtain ⟨other, value, found, inside⟩ := (tiling.covered point).1 inSpace
  exact Finset.disjoint_left.1 (misses other value found) inside inRange

omit [DecidableEq κ] in
/-- Cutting out a range that contains one entry and meets no other is cutting out that entry. -/
theorem sdiff_of_whole (tiling : Tiling extent table space) {range : Finset π}
    (found : table key = some value) (whole : extent key value ⊆ range)
    (misses : ∀ other value, other ≠ key → table other = some value → Disjoint (extent other value) range) :
    space \ range = space \ extent key value := by
  ext point
  rw [Finset.mem_sdiff, Finset.mem_sdiff]
  refine and_congr_right fun inSpace => not_congr ⟨fun inRange => ?_, fun inside => whole inside⟩
  obtain ⟨other, value', found', inside⟩ := (tiling.covered point).1 inSpace
  by_cases here : other = key
  · subst here
    rw [found] at found'
    cases found'
    exact inside
  · exact absurd inRange (Finset.disjoint_left.1 (misses other value' here found') inside)

end Tiling
