/-
Module: MallocHook.Proofs.BootstrapPlacement
Purpose: Where a bootstrap block is placed: the number of bytes to map is computed without overflow or
  not at all, and leaves room for padding, header and payload.
Trusted boundary: none
Main exports: bootstrapMapSize_cases, bootstrap_block_placed
-/
import MallocHook.Lib.Alignment
import MallocHook.Core.Bootstrap

namespace MallocHook

open Grid
open UInt64 (lt_iff_toNat_lt ofNat_toNat toNat_ofNat')

/-! ### The sizes -/

theorem isPowerOfTwo_iff {value : UInt64} : isPowerOfTwo value = true ↔ ∃ k, value.toNat = 2 ^ k := by
  rw [← Alignment.isPow_iff]
  simp [isPowerOfTwo]

/-- The alignments that are accepted. -/
def ValidAlignment (alignment : UInt64) : Prop := (∃ k, alignment.toNat = 2 ^ k) ∧ 8 ≤ alignment.toNat

/-- `effectiveAlignment` is a power of two that the alignment divides. -/
theorem effectiveAlignment_spec {alignment : UInt64} (valid : ValidAlignment alignment) :
    (effectiveAlignment alignment).toNat = max alignment.toNat 16 ∧
      (∃ k, (effectiveAlignment alignment).toNat = 2 ^ k) ∧
      alignment.toNat ∣ (effectiveAlignment alignment).toNat := by
  have sixteen : kMaxAlign.toNat = 16 := rfl
  obtain ⟨⟨k, isPow⟩, large⟩ := valid
  unfold effectiveAlignment
  by_cases small : alignment < kMaxAlign
  · have below := lt_iff_toNat_lt.1 small
    rw [if_pos small, sixteen]
    rw [sixteen, isPow] at below
    have few : k < 4 := (Nat.pow_lt_pow_iff_right (by decide)).1 (show 2 ^ k < 2 ^ 4 from below)
    refine ⟨by omega, ⟨4, rfl⟩, ?_⟩
    rw [isPow]
    exact Nat.pow_dvd_pow 2 few.le
  · have above := lt_iff_toNat_lt.not.1 small
    rw [if_neg small]
    exact ⟨by omega, ⟨k, isPow⟩, Nat.dvd_refl _⟩

/-- The bytes for the header, the payload and the padding. -/
def neededBytes (alignment size : UInt64) : Nat := 48 + size.toNat + (max alignment.toNat 16 - 1)

theorem checkedAdd_eq (lhs rhs : UInt64) :
    checkedAdd lhs rhs = if lhs.toNat + rhs.toNat < 2 ^ 64 then some (UInt64.ofNat (lhs.toNat + rhs.toNat))
    else none := by
  have most : kSizeMax.toNat = 2 ^ 64 - 1 := rfl
  have bound := lhs.toNat_lt
  have room : (kSizeMax - lhs).toNat = 2 ^ 64 - 1 - lhs.toNat := by
    rw [UInt64.toNat_sub_of_le _ _ (UInt64.le_iff_toNat_le.2 (by omega)), most]
  unfold checkedAdd
  by_cases fits : lhs.toNat + rhs.toNat < 2 ^ 64
  · rw [if_pos fits, if_neg (by rw [gt_iff_lt, lt_iff_toNat_lt, room]; omega), UInt64.ofNat_add,
      ofNat_toNat, ofNat_toNat]
  · rw [if_neg fits, if_pos (by rw [gt_iff_lt, lt_iff_toNat_lt, room]; omega)]

/-- The sums of `BootstrapAlignedMalloc`. -/
theorem checkedAdd_needed {alignment size : UInt64} (valid : ValidAlignment alignment) :
    ((checkedAdd kHeaderBytes size).bind fun payload =>
      checkedAdd payload (effectiveAlignment alignment - 1)) =
      if neededBytes alignment size < 2 ^ 64 then some (UInt64.ofNat (neededBytes alignment size))
        else none := by
  obtain ⟨isMax, isPow, _⟩ := effectiveAlignment_spec valid
  have padding : (effectiveAlignment alignment - 1).toNat = max alignment.toNat 16 - 1 := by
    rw [Alignment.toNat_sub_one (Alignment.isPow_iff.2 isPow).1, isMax]
  have header : kHeaderBytes.toNat = 48 := rfl
  rw [checkedAdd_eq, header]
  unfold neededBytes
  by_cases fits : 48 + size.toNat < 2 ^ 64
  · rw [if_pos fits, Option.bind_some, checkedAdd_eq, padding, toNat_ofNat', Nat.mod_eq_of_lt fits]
  · rw [if_neg fits, if_neg (by omega)]
    rfl

/-- Pages are a power of two, and rounding the bytes up to whole pages does not wrap. -/
def PagesFit (pageSize : Int64) (bytes : Nat) : Prop :=
  (∃ k, (pageAlignment pageSize).toNat = 2 ^ k) ∧ bytes + ((pageAlignment pageSize).toNat - 1) < 2 ^ 64

/-- The bytes in whole pages. -/
def inPages (pageSize : Int64) (bytes : Nat) : Nat :=
  stepsTo 0 (pageAlignment pageSize).toNat bytes * (pageAlignment pageSize).toNat

variable {pageSize : Int64}

theorem pageAlignment_pos {bytes : Nat} (fit : PagesFit pageSize bytes) :
    0 < (pageAlignment pageSize).toNat := by
  obtain ⟨⟨k, isPow⟩, _⟩ := fit
  rw [isPow]
  exact Nat.two_pow_pos k

theorem le_inPages {bytes : Nat} (fit : PagesFit pageSize bytes) : bytes ≤ inPages pageSize bytes := by
  have reached : bytes ≤ 0 + inPages pageSize bytes := le_stepsTo (pageAlignment_pos fit)
  rwa [Nat.zero_add] at reached

/-- `PageAlign`: whole pages, or zero if that cannot be computed. -/
theorem pageAlign_cases (pageSize : Int64) (size : UInt64) :
    PagesFit pageSize size.toNat ∧ (pageAlign pageSize size).toNat = inPages pageSize size.toNat ∨
      ¬PagesFit pageSize size.toNat ∧ pageAlign pageSize size = 0 := by
  have most : kSizeMax.toNat = 2 ^ 64 - 1 := rfl
  unfold pageAlign PagesFit
  by_cases isPow : ∃ k, (pageAlignment pageSize).toNat = 2 ^ k
  · have less := Alignment.toNat_sub_one (Alignment.isPow_iff.2 isPow).1
    have bound := (pageAlignment pageSize).toNat_lt
    have room : (kSizeMax - (pageAlignment pageSize - 1)).toNat =
      2 ^ 64 - 1 - ((pageAlignment pageSize).toNat - 1) := by
      rw [UInt64.toNat_sub_of_le _ _ (UInt64.le_iff_toNat_le.2 (by omega)), most, less]
    have pos : 0 < (pageAlignment pageSize).toNat := by
      obtain ⟨k, isPow⟩ := isPow
      rw [isPow]
      exact Nat.two_pow_pos k
    simp only [isPowerOfTwo_iff.2 isPow, Bool.not_true, Bool.false_or, decide_eq_true_eq, gt_iff_lt,
      lt_iff_toNat_lt, room]
    by_cases fits : size.toNat + ((pageAlignment pageSize).toNat - 1) < 2 ^ 64
    · obtain ⟨k, isPow'⟩ := isPow
      rw [if_neg (by omega), Alignment.toNat_up isPow' (by omega)]
      exact .inl ⟨⟨⟨k, isPow'⟩, fits⟩, rfl⟩
    · rw [if_pos (by omega)]
      exact .inr ⟨fun both => fits both.2, rfl⟩
  · have notPow : isPowerOfTwo (pageAlignment pageSize) = false :=
      Bool.eq_false_iff.2 fun yes => isPow (isPowerOfTwo_iff.1 yes)
    simp only [notPow, Bool.not_false, Bool.true_or, if_true]
    exact .inr ⟨fun both => isPow both.1, trivial⟩

/-- What `BootstrapAlignedMalloc` does before it calls mmap. -/
theorem bootstrapMapSize_cases (pageSize : Int64) (alignment size : UInt64) :
    (¬ValidAlignment alignment ∧ bootstrapMapSize pageSize alignment size = .error .einval) ∨
      (ValidAlignment alignment ∧ ¬PagesFit pageSize (neededBytes alignment size) ∧
        bootstrapMapSize pageSize alignment size = .error .enomem) ∨
      ValidAlignment alignment ∧ PagesFit pageSize (neededBytes alignment size) ∧
        ∃ mapSize : UInt64, mapSize.toNat = inPages pageSize (neededBytes alignment size) ∧
          bootstrapMapSize pageSize alignment size = .ok mapSize := by
  have accepted : (!isPowerOfTwo alignment || decide (alignment < kPointerAlign)) = true ↔
    ¬ValidAlignment alignment := by
    rw [ValidAlignment, ← isPowerOfTwo_iff, Bool.or_eq_true, Bool.not_eq_true', decide_eq_true_eq,
      lt_iff_toNat_lt, not_and_or, Bool.not_eq_true, Nat.not_le]
    rfl
  unfold bootstrapMapSize
  by_cases valid : ValidAlignment alignment
  · rw [if_neg (accepted.not_left.2 valid), checkedAdd_needed valid]
    by_cases fits : neededBytes alignment size < 2 ^ 64
    · have total : (UInt64.ofNat (neededBytes alignment size)).toNat = neededBytes alignment size := by
        rw [toNat_ofNat', Nat.mod_eq_of_lt fits]
      rw [if_pos fits]
      obtain ⟨fit, rounded⟩ | ⟨notFit, failed⟩ :=
        pageAlign_cases pageSize (UInt64.ofNat (neededBytes alignment size))
      · rw [total] at fit rounded
        have pos : pageAlign pageSize (UInt64.ofNat (neededBytes alignment size)) ≠ 0 := by
          intro zero
          have enough := le_inPages fit
          rw [← rounded, zero] at enough
          exact absurd enough (by unfold neededBytes; simp)
        exact .inr (.inr ⟨valid, fit, _, rounded, if_neg pos⟩)
      · rw [total] at notFit
        exact .inr (.inl ⟨valid, notFit, if_pos failed⟩)
    · rw [if_neg fits]
      exact .inr (.inl ⟨valid, fun fit => fits (Nat.lt_of_le_of_lt (Nat.le_add_right _ _) fit.2), rfl⟩)
  · exact .inl ⟨valid, if_pos (accepted.2 valid)⟩

/-! ### The addresses -/

/-- The payload of a block in a mapping that begins at `map`. -/
def payloadAt (map alignment : UInt64) : Nat :=
  stepsTo 0 (max alignment.toNat 16) (map.toNat + 48) * max alignment.toNat 16

/-- The payload is aligned, the header fits below it, and the padding is smaller than the alignment. -/
theorem payloadAt_spec {map alignment : UInt64} (valid : ValidAlignment alignment) :
    alignment.toNat ∣ payloadAt map alignment ∧ map.toNat + 48 ≤ payloadAt map alignment ∧
      payloadAt map alignment ≤ map.toNat + 48 + (max alignment.toNat 16 - 1) := by
  obtain ⟨isMax, _, divides⟩ := effectiveAlignment_spec valid
  rw [isMax] at divides
  have reached : map.toNat + 48 ≤ 0 + payloadAt map alignment := le_stepsTo (by omega)
  have below : payloadAt map alignment ≤ map.toNat + 48 - 0 + max alignment.toNat 16 - 1 :=
    Nat.div_mul_le_self _ _
  exact ⟨Nat.dvd_mul_left_of_dvd divides _, by omega, by omega⟩

theorem placedPayload_eq {map alignment : UInt64} (valid : ValidAlignment alignment)
    (fits : map.toNat + 48 + (max alignment.toNat 16 - 1) ≤ 2 ^ 64) :
    placedPayload map alignment = UInt64.ofNat (payloadAt map alignment) := by
  obtain ⟨isMax, ⟨k, isPow⟩, _⟩ := effectiveAlignment_spec valid
  have first : (map + kHeaderBytes).toNat = map.toNat + 48 :=
    ByteMemory.toNat_add (show map.toNat + 48 < 2 ^ 64 by omega)
  unfold placedPayload payloadAt
  rw [Alignment.up_eq isPow (by omega), first, isMax]

/-- What is known once the bytes to map are. -/
theorem bootstrapMapSize_ok {alignment size mapSize : UInt64}
    (computed : bootstrapMapSize pageSize alignment size = .ok mapSize) :
    ValidAlignment alignment ∧ PagesFit pageSize (neededBytes alignment size) ∧
      mapSize.toNat = inPages pageSize (neededBytes alignment size) := by
  obtain ⟨_, failed⟩ | ⟨_, _, failed⟩ | ⟨valid, fit, mapSize', rounded, computed'⟩ :=
    bootstrapMapSize_cases pageSize alignment size
  · cases computed.symm.trans failed
  · cases computed.symm.trans failed
  · cases computed.symm.trans computed'
    exact ⟨valid, fit, rounded⟩

/-- A block in a mapping that does not wrap: where its payload is. -/
theorem payloadAt_inside {alignment size mapSize map : UInt64}
    (computed : bootstrapMapSize pageSize alignment size = .ok mapSize)
    (fits : map.toNat + mapSize.toNat ≤ 2 ^ 64) :
    placedPayload map alignment = UInt64.ofNat (payloadAt map alignment) ∧
      alignment.toNat ∣ payloadAt map alignment ∧ map.toNat + 48 ≤ payloadAt map alignment ∧
      payloadAt map alignment + size.toNat ≤ map.toNat + mapSize.toNat := by
  obtain ⟨valid, fit, rounded⟩ := bootstrapMapSize_ok computed
  obtain ⟨aligned, above, below⟩ := payloadAt_spec valid
  have enough := le_inPages fit
  rw [← rounded, neededBytes] at enough
  exact ⟨placedPayload_eq valid (by omega), aligned, above, by omega⟩

/-- If the bytes to map can be computed, nothing has wrapped, and in every mapping of that size which does
not wrap the pointer is aligned and the header below it and the payload lie inside. (The mapping may end
at `2 ^ 64`.) Otherwise the call fails with `EINVAL` or `ENOMEM` and changes nothing. -/
theorem bootstrap_block_placed (pageSize : Int64) (alignment size : UInt64) (heap : BootstrapHeap) :
    (∀ mapSize, bootstrapMapSize pageSize alignment size = .ok mapSize →
      ValidAlignment alignment ∧ neededBytes alignment size < 2 ^ 64 ∧
      mapSize.toNat = inPages pageSize (neededBytes alignment size) ∧
      ∀ map : UInt64, map.toNat + mapSize.toNat ≤ 2 ^ 64 → ∃ payload,
        (bootstrapAlignedMalloc pageSize alignment size (some map) heap).pointer = UInt64.ofNat payload ∧
        (map.toNat + mapSize.toNat < 2 ^ 64 →
          (bootstrapAlignedMalloc pageSize alignment size (some map) heap).pointer.toNat = payload) ∧
        alignment.toNat ∣ (bootstrapAlignedMalloc pageSize alignment size (some map) heap).pointer.toNat ∧
        map.toNat + 48 ≤ payload ∧ payload + size.toNat ≤ map.toNat + mapSize.toNat) ∧
    (bootstrapMapSize pageSize alignment size = .error .einval ↔ ¬ValidAlignment alignment) ∧
    (bootstrapMapSize pageSize alignment size = .error .enomem ↔
      ValidAlignment alignment ∧ ¬PagesFit pageSize (neededBytes alignment size)) ∧
    ∀ errno answer, bootstrapMapSize pageSize alignment size = .error errno →
      bootstrapAlignedMalloc pageSize alignment size answer heap =
      { pointer := 0, errno := some errno, heap := heap } := by
  refine ⟨fun mapSize computed => ?_, ?_, ?_, fun errno answer failed => ?_⟩
  · obtain ⟨valid, fit, rounded⟩ := bootstrapMapSize_ok computed
    refine ⟨valid, Nat.lt_of_le_of_lt (Nat.le_add_right _ _) fit.2, rounded, fun map fits => ?_⟩
    obtain ⟨placed, aligned, above, below⟩ := payloadAt_inside computed fits
    have pointer : (bootstrapAlignedMalloc pageSize alignment size (some map) heap).pointer =
        UInt64.ofNat (payloadAt map alignment) := by
      rw [bootstrapAlignedMalloc, computed, ← placed]
      exact UInt64.sub_add_cancel _ _
    refine ⟨payloadAt map alignment, pointer, fun below' => ?_, ?_, above, below⟩
    · rw [pointer, toNat_ofNat', Nat.mod_eq_of_lt (by omega)]
    · obtain ⟨⟨k, isPow⟩, _⟩ := valid
      rw [pointer, toNat_ofNat', Nat.dvd_mod_iff]
      · exact aligned
      · rw [isPow]
        exact Nat.pow_dvd_pow 2 (Nat.le_of_lt ((Nat.pow_lt_pow_iff_right (by decide)).1
          (isPow ▸ alignment.toNat_lt)))
  · obtain ⟨invalid, result⟩ | ⟨valid, _, result⟩ | ⟨valid, _, mapSize, _, result⟩ :=
      bootstrapMapSize_cases pageSize alignment size
    · simp [result, invalid]
    · simp [result, valid]
    · simp [result, valid]
  · obtain ⟨invalid, result⟩ | ⟨valid, notFit, result⟩ | ⟨valid, fit, mapSize, _, result⟩ :=
      bootstrapMapSize_cases pageSize alignment size
    · simp [result, invalid]
    · simp [result, valid, notFit]
    · simp [result, fit]
  · rw [bootstrapAlignedMalloc, failed]

/-- A block of 100 bytes that is aligned to a page. -/
theorem bootstrap_block_placed_page :
    bootstrapMapSize 4096 4096 100 = .ok 8192 ∧
      4096 ∣ (bootstrapAlignedMalloc 4096 4096 100 (some 0x10000) ⟨fun _ => 0, 0, []⟩).pointer.toNat := by
  have computed : bootstrapMapSize 4096 4096 100 = .ok 8192 := by decide +kernel
  obtain ⟨_, _, _, placed⟩ := (bootstrap_block_placed 4096 4096 100 ⟨fun _ => 0, 0, []⟩).1 8192 computed
  obtain ⟨payload, _, _, aligned, _⟩ := placed 0x10000 (by decide)
  exact ⟨computed, aligned⟩

end MallocHook
