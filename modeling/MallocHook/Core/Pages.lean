/-
Module: MallocHook.Core.Pages
Purpose: The address space as the kernel keeps it, page by page: the pages that anonymous mappings made
  through the hook still occupy.
Trusted boundary: the kernel maps and unmaps as `Pages.answer` says
Main exports: pageSize, pagesOf, PageRange, addressSpace
-/
import MallocHook.Core.SerialHook

namespace MallocHook

def pageSize : Nat := 4096

variable (pointer : Pointer) (size : Nat)

/-- The numbers of the pages in a range. -/
def pagesOf : Finset Nat :=
  Finset.Ico (pointer.toNat / pageSize) (pointer.toNat / pageSize + size / pageSize)

/-- A range of whole pages, not empty and within the address space. -/
def PageRange : Prop :=
  pointer.toNat % pageSize = 0 ∧ size % pageSize = 0 ∧ 0 < size ∧ pointer.toNat + size ≤ 2 ^ 64

instance : Decidable (PageRange pointer size) :=
  inferInstanceAs (Decidable (_ ∧ _))

def mremapFixed : UInt32 := 2

variable (pages : Finset Nat)

/-- Where the kernel may put a mapping: at the fixed address, or where nothing is mapped. -/
def Pages.MayMap (addr : Pointer) (isFixed : Bool) (pointer : Pointer) (size : Nat) : Prop :=
  PageRange pointer size ∧ pointer ≠ 0 ∧ (isFixed = true → pointer = addr) ∧
    (isFixed = false → Disjoint pages (pagesOf pointer size))

instance (addr : Pointer) (isFixed : Bool) (pointer : Pointer) (size : Nat) :
    Decidable (Pages.MayMap pages addr isFixed pointer size) :=
  inferInstanceAs (Decidable (_ ∧ _))

/-- What the kernel does when a call succeeds. A mapping is resized in place, or moved; a fixed target
must not overlap its source. -/
def Pages.answer {θ : Type*} (pages : Finset Nat) (op : SystemOp θ) (answer : Answer) :
    Option (Finset Nat) :=
  match op with
  | .mmap addr size flags _ _ =>
      if Pages.MayMap pages addr (hasFlag flags mapFixed) answer.pointer size then
        some (pages ∪ pagesOf answer.pointer size)
      else none
  | .munmap addr size _ =>
      if answer.status = 0 ∧ PageRange addr size then some (pages \ pagesOf addr size) else none
  | .mremap oldAddr oldSize newSize flags newAddr =>
      let old := pagesOf oldAddr oldSize
      let stays := if hasFlag flags mremapDontunmap then pages else pages \ old
      if ¬ (PageRange oldAddr oldSize ∧ old ⊆ pages) then none
      else if hasFlag flags mremapFixed then
        if Pages.MayMap pages newAddr true answer.pointer newSize ∧
            Disjoint old (pagesOf answer.pointer newSize) then
          some (stays ∪ pagesOf answer.pointer newSize)
        else none
      else if answer.pointer = oldAddr then
        if hasFlag flags mremapDontunmap = false ∧
            Pages.MayMap (pages \ old) 0 false answer.pointer newSize then
          some (stays ∪ pagesOf answer.pointer newSize)
        else none
      else if Pages.MayMap pages 0 false answer.pointer newSize then
        some (stays ∪ pagesOf answer.pointer newSize)
      else none
  | _ => some pages

variable {θ : Type*}

/-- Nothing is mapped at first. -/
def addressSpace : Environment θ (Finset Nat) := ⟨∅, fun pages _ => Pages.answer pages⟩

/-- Anonymous `mmap`, `munmap` and `mremap`. -/
def MappingCall : Request θ → Prop
  | .mmap _ _ flags fd => fd < 0 ∧ hasFlag flags mapAnonymous
  | .munmap _ _ => True
  | .mremap .. => True
  | _ => False

instance (request : Request θ) : Decidable (MappingCall request) := by
  induction request using Request.casesOn <;> unfold MappingCall <;> infer_instance

/-- A successful `mremap`: where the mapping may go, and what is mapped afterwards. -/
theorem addressSpace_mremap {t : θ} {pages pages' : Finset Nat}
    {oldAddr newAddr : Pointer} {oldSize newSize : Nat} {flags : UInt32} {answer : Answer}
    (answered : addressSpace.answer pages t (.mremap oldAddr oldSize newSize flags newAddr)
      answer = some pages') :
    PageRange answer.pointer newSize ∧ answer.pointer ≠ 0 ∧
      pages' = (if hasFlag flags mremapDontunmap then pages else pages \ pagesOf oldAddr oldSize) ∪
        pagesOf answer.pointer newSize ∧
      ((hasFlag flags mremapFixed = true ∧ answer.pointer = newAddr) ∨
        (hasFlag flags mremapDontunmap = false ∧
          Disjoint (pages \ pagesOf oldAddr oldSize) (pagesOf answer.pointer newSize)) ∨
        Disjoint pages (pagesOf answer.pointer newSize)) := by
  simp only [addressSpace, Pages.answer] at answered
  split at answered
  · cases answered
  split at answered
  · next fixed =>
      obtain ⟨⟨⟨range, notNull, placed, -⟩, -⟩, mapped⟩ := Option.ite_none_right_eq_some.1 answered
      exact ⟨range, notNull, (Option.some.inj mapped).symm, .inl ⟨fixed, placed rfl⟩⟩
  split at answered
  · obtain ⟨⟨unmaps, range, notNull, -, free⟩, mapped⟩ := Option.ite_none_right_eq_some.1 answered
    exact ⟨range, notNull, (Option.some.inj mapped).symm, .inr (.inl ⟨unmaps, free rfl⟩)⟩
  · obtain ⟨⟨range, notNull, -, free⟩, mapped⟩ := Option.ite_none_right_eq_some.1 answered
    exact ⟨range, notNull, (Option.some.inj mapped).symm, .inr (.inr (free rfl))⟩

/-! ### Ranges -/

theorem pagesOf_card {pointer : Pointer} {size : Nat} (range : PageRange pointer size) :
    pageSize * (pagesOf pointer size).card = size := by
  rw [pagesOf, Nat.card_Ico, Nat.add_sub_cancel_left]
  exact Nat.mul_div_cancel' (Nat.dvd_of_mod_eq_zero range.2.1)

theorem pagesOf_subset {small large : Nat} (le : small ≤ large) :
    pagesOf pointer small ⊆ pagesOf pointer large :=
  Finset.Ico_subset_Ico_right (Nat.add_le_add_left (Nat.div_le_div_right le) _)

/-- A range of pages contains the page it starts with. -/
theorem first_mem_pagesOf {pointer : Pointer} {size : Nat} (range : PageRange pointer size) :
    pointer.toNat / pageSize ∈ pagesOf pointer size := by
  have whole : pageSize * (size / pageSize) = size := Nat.mul_div_cancel' (Nat.dvd_of_mod_eq_zero range.2.1)
  have somePage : 0 < size / pageSize := by
    refine Nat.pos_of_ne_zero fun noPage => ?_
    have positive := range.2.2.1
    rw [noPage] at whole
    omega
  exact Finset.mem_Ico.2 ⟨Nat.le_refl _, Nat.lt_add_of_pos_right somePage⟩

end MallocHook
