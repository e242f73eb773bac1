/-
Module: MallocHook.Core.Platform
Purpose: The allocator and the kernel that the hooked calls forward to: the live blocks and mappings by
  start address, each with its size and its owner.
Trusted boundary: the allocator and the kernel behave as `Regions.answer` says
Main exports: Region, Regions, platform, Request.OnOwnRegions
-/
import MallocHook.Core.HookedThreads

namespace MallocHook

open Function

/-- A live block (`.host`) or anonymous mapping (`.mmap`). -/
structure Region (θ : Type*) where
  size : Nat
  type : MemType
  owner : θ
deriving DecidableEq, Repr

/-- What is live, by start address. -/
abbrev Regions (θ : Type*) := Pointer → Option (Region θ)

namespace Regions

variable {θ : Type*} [DecidableEq θ] (regions : Regions θ)

def place (pointer : Pointer) (region : Region θ) : Regions θ :=
  update regions pointer (some region)

def vacate (pointer : Pointer) : Regions θ := update regions pointer none

/-- What was live at one address is now live, as `region`, at that address or at a free one. -/
def relocate (source target : Pointer) (region : Region θ) : Option (Regions θ) :=
  if target = source ∨ (regions target).isNone then
    some ((regions.vacate source).place target region)
  else none

/-- The answers the allocator and the kernel may give. Null is never mapped, and `MAP_FIXED` replaces
nothing here. -/
def answer (t : θ) (op : SystemOp θ) (answer : Answer) : Option (Regions θ) :=
  match op with
  | .alloc routine size =>
      if routine.succeeded answer then
        if (regions answer.pointer).isNone then some (regions.place answer.pointer ⟨size, .host, t⟩)
        else none
      else some regions
  | .free pointer => some (regions.vacate pointer)
  | .realloc pointer bytes _ =>
      if answer.pointer = 0 then some regions
      else regions.relocate pointer answer.pointer ⟨bytes, .host, t⟩
  | .mmap _ size _ _ _ =>
      if answer.pointer = mapFailed then some regions
      else if answer.pointer ≠ 0 ∧ (regions answer.pointer).isNone then
        some (regions.place answer.pointer ⟨size, .mmap, t⟩)
      else none
  | .munmap addr _ _ => some (if answer.status = 0 then regions.vacate addr else regions)
  | .mremap oldAddr _ newSize flags _ =>
      if answer.pointer = mapFailed then some regions
      else if answer.pointer = 0 then none
      else if hasFlag flags mremapDontunmap then
        if (regions answer.pointer).isNone then
          some (regions.place answer.pointer ⟨newSize, .mmap, t⟩)
        else none
      else regions.relocate oldAddr answer.pointer ⟨newSize, .mmap, t⟩
  | .ioctl _ _ | .close _ => some regions
  | .handOver pointer heir =>
      match regions pointer with
      | some region =>
          if region.owner = t then some (regions.place pointer { region with owner := heir }) else none
      | none => none

omit [DecidableEq θ] in
theorem relocate_eq_some {regions regions' : Regions θ} {source target : Pointer} {region : Region θ}
    (relocated : regions.relocate source target region = some regions') :
    (target = source ∨ (regions target).isNone) ∧
    regions' = (regions.vacate source).place target region := by
  unfold Regions.relocate at relocated
  split at relocated <;> cases relocated
  next free => exact ⟨free, rfl⟩

omit [DecidableEq θ] in
theorem place_of_ne {regions : Regions θ} {pointer other : Pointer} (region : Region θ)
    (differ : other ≠ pointer) : regions.place pointer region other = regions other :=
  update_of_ne differ _ _

omit [DecidableEq θ] in
theorem vacate_eq_none {regions : Regions θ} {other : Pointer} (absent : regions other = none)
    (pointer : Pointer) : regions.vacate pointer other = none := by
  unfold vacate
  rw [update_apply, absent, ite_self]

omit [DecidableEq θ] in
/-- Something relocated to another address than null leaves null free. -/
theorem relocate_null {regions regions' : Regions θ} {source target : Pointer} {region : Region θ}
    (null : regions 0 = none) (mapped : target ≠ 0)
    (relocated : regions.relocate source target region = some regions') : regions' 0 = none := by
  obtain ⟨-, rfl⟩ := relocate_eq_some relocated
  rw [place_of_ne region mapped.symm]
  exact vacate_eq_none null source

/-- Null is never handed out. -/
theorem answer_null {regions regions' : Regions θ} {t : θ} {op : SystemOp θ} {answer : Answer}
    (null : regions 0 = none) (answered : regions.answer t op answer = some regions') :
    regions' 0 = none := by
  have placed : ∀ {pointer} (region : Region θ), pointer ≠ 0 →
      regions.place pointer region 0 = none :=
    fun region notNull => (place_of_ne region notNull.symm).trans null
  cases op
  all_goals simp only [Regions.answer] at answered
  case alloc routine size =>
    split at answered
    · next succeeded =>
        split at answered <;> cases answered
        exact placed _ (routine.pointer_ne_null succeeded)
    · cases answered
      exact null
  case free pointer =>
    cases answered
    exact vacate_eq_none null pointer
  case realloc pointer bytes previous =>
    split at answered
    · cases answered
      exact null
    · next mapped => exact relocate_null null mapped answered
  case mmap addr size flags fd pendingIoctl =>
    split at answered
    · cases answered
      exact null
    · split at answered <;> cases answered
      next free => exact placed _ free.1
  case munmap addr size previous =>
    cases answered
    split
    · exact vacate_eq_none null addr
    · exact null
  case mremap oldAddr oldSize newSize flags newAddr =>
    split at answered
    · cases answered
      exact null
    · split at answered
      · cases answered
      · next mapped =>
          split at answered
          · split at answered <;> cases answered
            exact placed _ mapped
          · exact relocate_null null mapped answered
  case ioctl fd request | close fd =>
    cases answered
    exact null
  case handOver pointer heir =>
    split at answered
    · next region here =>
        split at answered <;> cases answered
        refine placed _ fun isNull => ?_
        rw [isNull, null] at here
        cases here
    · cases answered

/-- The thread owns what is live at an address. -/
def Owns (t : θ) (pointer : Pointer) : Prop := (regions pointer).map Region.owner = some t

/-- The thread owns a live block at an address. -/
def OwnsBlock (t : θ) (pointer : Pointer) : Prop :=
  (regions pointer).map (fun region => (region.owner, region.type)) = some (t, .host)

/-- The thread owns a mapping at an address, of exactly that size. -/
def OwnsMapping (t : θ) (pointer : Pointer) (size : Nat) : Prop :=
  (regions pointer).map (fun region => (region.owner, region.type, region.size)) = some (t, .mmap, size)

instance (t : θ) (pointer : Pointer) : Decidable (regions.Owns t pointer) :=
  inferInstanceAs (Decidable (_ = _))

instance (t : θ) (pointer : Pointer) : Decidable (regions.OwnsBlock t pointer) :=
  inferInstanceAs (Decidable (_ = _))

instance (t : θ) (pointer : Pointer) (size : Nat) : Decidable (regions.OwnsMapping t pointer size) :=
  inferInstanceAs (Decidable (_ = _))

end Regions

/-- Nothing is live at first. -/
def platform {θ : Type*} [DecidableEq θ] : Environment θ (Regions θ) :=
  ⟨fun _ => none, fun regions => regions.answer⟩

/-- Calls on what the calling thread owns: heap calls, anonymous `mmap`, `munmap` of a whole mapping, and
`mremap` of a whole mapping that leaves nothing behind. -/
def Request.OnOwnRegions {θ : Type*} (regions : Regions θ) (t : θ) : Request θ → Prop
  | .malloc _ | .calloc _ _ | .memalign _ _ | .alignedAlloc _ _ | .posixMemalign _ _ | .sample _ => True
  | .free pointer | .realloc pointer _ => pointer = 0 ∨ regions.OwnsBlock t pointer
  | .mmap _ _ flags fd => fd < 0 ∧ hasFlag flags mapAnonymous
  | .munmap addr size => regions.OwnsMapping t addr size
  | .mremap oldAddr oldSize _ flags _ =>
      regions.OwnsMapping t oldAddr oldSize ∧ ¬ hasFlag flags mremapDontunmap
  | .handOver pointer _ => regions.Owns t pointer
  | .ioctl _ _ | .close _ => False

def Request.isMremap {θ : Type*} : Request θ → Bool
  | .mremap .. => true
  | _ => false

section

variable {τ : Type*}

/-- The hook over the platform. -/
abbrev PlatformPool (τ : Type*) := HookPool τ (Regions (Option τ))

/-- All interleavings of hooked calls over the platform. -/
abbrev onPlatform [DecidableEq τ] (config : Config) : Machine (PlatformPool τ) (HookEvent τ) :=
  hooked config platform

/-- Every call is made on regions the calling thread owns. -/
def OwnCalls (pool : PlatformPool τ) : HookEvent τ → Prop
  | .call t request => request.OnOwnRegions pool.shared.world t
  | .exec _ _ => True

/-- No mapping is moved. -/
def NothingMoves : HookEvent τ → Prop
  | .call _ request => request.isMremap = false
  | .exec _ _ => True

variable [DecidableEq τ]

instance (regions : Regions (Option τ)) (t : Option τ) (request : Request (Option τ)) :
    Decidable (request.OnOwnRegions regions t) := by
  induction request using Request.casesOn <;> unfold Request.OnOwnRegions <;> infer_instance

instance (pool : PlatformPool τ) (event : HookEvent τ) : Decidable (OwnCalls pool event) := by
  induction event using Event.casesOn <;> unfold OwnCalls <;> infer_instance

instance (event : HookEvent τ) : Decidable (NothingMoves event) := by
  induction event using Event.casesOn <;> unfold NothingMoves <;> infer_instance

end

end MallocHook
