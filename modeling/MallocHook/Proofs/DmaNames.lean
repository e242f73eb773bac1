/-
Module: MallocHook.Proofs.DmaNames
Purpose: Which mapped regions the mapping pass takes for dma-bufs, and when the descriptor pass agrees.
Trusted boundary: none
Main exports: dmaBytes_header, dma_passes_agree_iff, dma_passes_disagree
-/
import MallocHook.Core.ProcReaders
import MallocHook.Proofs.InodeDedup

namespace MallocHook

variable {region : MapsRegion} {set : DmaInodeSet}

theorem MapsRegion.scanInode_header :
    scanInode region.header = some (region.start, region.stop, region.inode) := by
  rw [scanInode, scanRange_header]
  simp [word_fromPerms, word_fromOffset, word_fromDev, unsigned_fromInode]

/-- What the mapping pass looks for. -/
def containsDmaBuf (text : CString) : Bool := (strstr "/dmabuf".toList text).isSome

/-- What the mapping pass counts for a region with an inode that the set does not hold. -/
theorem dmaBytes_header (ordered : region.start < region.stop)
    (unseen : ∀ slot, set.occupant slot ≠ some region.inode) (sawAny : Bool) :
    (dmaBytesFromMapsLine region.header set sawAny).1 =
      if containsDmaBuf region.path then region.stop - region.start else 0 := by
  have found : strstr "/dmabuf".toList region.header = strstr "/dmabuf".toList region.path :=
    MapsRegion.strstr_header "dmabuf".toList
  rw [dmaBytesFromMapsLine, found, MapsRegion.scanInode_header, containsDmaBuf]
  cases strstr "/dmabuf".toList region.path with
  | none => rfl
  | some rest =>
      rw [if_neg (Option.some_ne_none rest), Option.isSome_some, if_pos rfl]
      dsimp only
      rw [if_neg (UInt64.not_le.2 ordered), insertInode_unseen unseen, if_pos rfl]

/-- The mapping pass counts a region that it has not seen exactly when the descriptor pass would accept its
path, if and only if "/dmabuf" occurs in the path exactly when the descriptor pass accepts it. -/
theorem dma_passes_agree_iff (region : MapsRegion) (ordered : region.start < region.stop) (set : DmaInodeSet)
    (unseen : ∀ slot, set.occupant slot ≠ some region.inode) (sawAny : Bool) :
    (dmaBytesFromMapsLine region.header set sawAny).1 =
        (if linkNamesDmaBuf region.path then region.stop - region.start else 0) ↔
      ("/dmabuf".toList <:+: region.path ↔ linkNamesDmaBuf region.path = true) := by
  have positive : region.stop - region.start ≠ 0 := by
    rw [ne_eq, UInt64.sub_eq_iff_eq_add, UInt64.zero_add]
    rintro same
    rw [same] at ordered
    exact UInt64.lt_irrefl _ ordered
  rw [dmaBytes_header ordered unseen, ← strstr_isSome, ← containsDmaBuf]
  generalize region.stop - region.start = bytes at positive
  cases containsDmaBuf region.path <;> cases linkNamesDmaBuf region.path <;> simp [positive, positive.symm]

/-! ### Paths on which the passes disagree -/

/-- A shared mapping of one page with a given inode and path. -/
def onePage (inode : UInt64) (path : List Char) : MapsRegion where
  start := 0x7000
  stop := 0x8000
  perms := ⟨true, true, false, true⟩
  offset := 0
  devMajor := 0
  devMinor := 10
  inode := inode
  width := 8
  padding := 1
  path := path
  apart := fun _ => Nat.one_pos

/-- A pass that has seen nothing. -/
def freshPass : DmaInodeSet := resetDmaInodeSet .zero

theorem freshPass_unseen (inode : UInt64) (slot : Fin kSlots) : freshPass.occupant slot ≠ some inode := by
  have empty : freshPass.occupant = fun _ => none := (stampsPast_run []).reset.2
  rw [empty]
  exact (Option.some_ne_none inode).symm

/-- A file in a directory of that name is counted although the descriptor pass would not, and a buffer
under its other name is lost. -/
theorem dma_passes_disagree :
    linkNamesDmaBuf "/vendor/dmabuf/heap.so".toList = false ∧
      (dmaBytesFromMapsLine (onePage 519 "/vendor/dmabuf/heap.so".toList).header freshPass false).1 =
      0x1000 ∧
      linkNamesDmaBuf "anon_inode:dmabuf".toList = true ∧
      (dmaBytesFromMapsLine (onePage 748 "anon_inode:dmabuf".toList).header freshPass false).1 = 0 := by
  refine ⟨by decide, ?_, by decide, ?_⟩
  · rw [dmaBytes_header (by decide) (freshPass_unseen _)]
    decide
  · rw [dmaBytes_header (by decide) (freshPass_unseen _)]
    decide

/-- A buffer as a device shows it. -/
theorem dma_passes_agree_buffer :
    (dmaBytesFromMapsLine (onePage 519 "/dmabuf:qcom,system".toList).header freshPass false).1 =
      if linkNamesDmaBuf "/dmabuf:qcom,system".toList then 0x8000 - 0x7000 else 0 :=
  (dma_passes_agree_iff (onePage 519 "/dmabuf:qcom,system".toList) (by decide) freshPass (freshPass_unseen _)
    false).2 (by rw [← strstr_isSome]; decide)

end MallocHook
