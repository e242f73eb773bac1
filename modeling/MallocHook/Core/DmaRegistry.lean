/-
Module: MallocHook.Core.DmaRegistry
Purpose: The descriptor side of the hook: the dma-buf descriptors the process holds, pending ION
  allocations, and the ioctl requests that create either.
Trusted boundary: translation of namespace DMA_BUF of backtrace/src/malloc_debug.cpp, of
  backtrace/include/HookSourcePolicy.h and of the vendored headers under backtrace/driver
Main exports: DmaRegistry, registerDmaFd, takeDmaFd
-/
import MallocHook.Core.LiveTable

namespace MallocHook

/-- A file descriptor, as the hook passes it around. -/
abbrev Fd := Int32

variable (fd : Fd)

/-- `reinterpret_cast<void*>(fd)`, the key of a descriptor in the live table. -/
def fdPointer : Pointer := fd.toInt64.toUInt64

/-- The descriptor whose key a pointer would be. -/
def pointerFd (pointer : Pointer) : Fd := pointer.toInt64.toInt32

@[simp] theorem pointerFd_fdPointer : pointerFd (fdPointer fd) = fd := by
  simp [pointerFd, fdPointer]

theorem fdPointer_inj {fd other : Fd} (same : fdPointer fd = fdPointer other) : fd = other := by
  rw [← pointerFd_fdPointer fd, same, pointerFd_fdPointer]

/-! ### Requests -/

/-- `_IOWR(type, nr, size)`. -/
def iowr (type nr size : UInt32) : UInt32 :=
  ((3 : UInt32) <<< 30) ||| (size <<< 16) ||| (type <<< 8) ||| nr

variable (request : UInt32)

def iocType : UInt32 := (request >>> 8) &&& 0xff
def iocNr : UInt32 := request &&& 0xff
def iocSize : UInt32 := (request >>> 16) &&& 0x3fff

/-- `ALLOC_HOOK_ION_IOC_MAGIC`, the letter I. -/
def ionIocMagic : UInt32 := 0x49

def sizeofIonAllocationData : UInt32 := 32
def sizeofIonNewAllocationData : UInt32 := 24
def sizeofIonFdData : UInt32 := 8
def sizeofIonHandleData : UInt32 := 4

def dmaHeapIoctlAlloc : UInt32 := iowr 0x48 0 24
def camMemIonMapPa : UInt32 := iowr 0x49 0 88
def kbaseIoctlMemAlloc : UInt32 := iowr 0x80 5 32
def kbaseIoctlMemAllocEx : UInt32 := iowr 0x80 59 64
def ioctlKgslGpuobjAlloc : UInt32 := iowr 0x09 0x45 48

def isIonRequest (request nr size : UInt32) : Bool :=
  iocType request == ionIocMagic && iocNr request == nr && iocSize request == size

def isIonLegacyAlloc : Bool := isIonRequest request 0 sizeofIonAllocationData
def isIonNewAlloc : Bool := isIonRequest request 0 sizeofIonNewAllocationData
def isIonFdRequest (request nr : UInt32) : Bool := isIonRequest request nr sizeofIonFdData
def isIonFree : Bool := isIonRequest request 1 sizeofIonHandleData

def createsDmaFd : Bool :=
  request == dmaHeapIoctlAlloc || isIonNewAlloc request || isIonFdRequest request 2 ||
    isIonFdRequest request 4

def canRegisterDmaFd : Bool := createsDmaFd request || request == camMemIonMapPa

/-- The fields the hook reads behind `arg`: a length, a descriptor (`fd` or `memID`) and an ION handle. -/
structure IoctlArg where
  len : UInt64
  fd : UInt32
  handle : Int32
deriving DecidableEq, Repr, Inhabited

/-! ### Descriptors -/

structure DmaFdInfo where
  size : Nat
  tracked : Bool
deriving DecidableEq, Repr, Inhabited

/-- `dma_fds` and `pending_ion_allocations`. -/
structure DmaRegistry where
  dmaFds : AList fun _ : Fd => DmaFdInfo
  pendingIonAllocations : AList fun _ : UInt64 => Nat

namespace DmaRegistry

def empty : DmaRegistry := ⟨∅, ∅⟩

variable (registry : DmaRegistry) (fd : Fd)

/-- `RegisterDmaFd`: `none` when it refuses, otherwise whether the caller should track the descriptor. -/
def registerDmaFd (size : Nat) : Option Bool × DmaRegistry :=
  if fd < 0 ∨ size = 0 then (none, registry)
  else
    match registry.dmaFds.lookup fd with
    | none => (some true, { registry with dmaFds := registry.dmaFds.insert fd ⟨size, false⟩ })
    | some info =>
        (some !info.tracked,
          { registry with dmaFds := registry.dmaFds.insert fd { info with size := size } })

def lookupDmaFd : Option DmaFdInfo := registry.dmaFds.lookup fd

def markDmaFdTracked : DmaRegistry :=
  match registry.dmaFds.lookup fd with
  | none => registry
  | some info => { registry with dmaFds := registry.dmaFds.insert fd { info with tracked := true } }

def takeDmaFd : Option DmaFdInfo × DmaRegistry :=
  match registry.dmaFds.lookup fd with
  | none => (none, registry)
  | some info => (some info, { registry with dmaFds := registry.dmaFds.erase fd })

variable (ionFd : Fd) (handle : Int32)

def ionHandleKey : UInt64 :=
  (ionFd.toUInt32.toUInt64 <<< 32) ||| handle.toUInt32.toUInt64

def recordIonAllocation (size : Nat) : DmaRegistry :=
  if size = 0 then registry
  else
    { registry with
      pendingIonAllocations := registry.pendingIonAllocations.insert (ionHandleKey ionFd handle) size }

def lookupIonAllocation : Nat :=
  (registry.pendingIonAllocations.lookup (ionHandleKey ionFd handle)).getD 0

def dropIonAllocation : DmaRegistry :=
  { registry with
    pendingIonAllocations := registry.pendingIonAllocations.erase (ionHandleKey ionFd handle) }

def dropIonAllocationsForFd : DmaRegistry :=
  let ofFd := registry.pendingIonAllocations.keys.filter fun (key : UInt64) =>
    (key >>> 32).toUInt32 == ionFd.toUInt32
  { registry with
    pendingIonAllocations := ofFd.foldl (fun pending key => pending.erase key)
      registry.pendingIonAllocations }

/-- `is_dma_buf`: the size, when the descriptor is a dma-buf. `fdinfo` is the size the kernel reports for
one that names an exporter. -/
def isDmaBuf (fdinfo : Option Nat) : Option Nat :=
  match registry.lookupDmaFd fd with
  | some info => some info.size
  | none => fdinfo.filter fun size => decide (size > 0)

variable (request : UInt32) (arg : Option IoctlArg)

/-- `HandleIonIoctl`: the descriptor and size it recognised, and the registry after it. -/
def handleIonIoctl : Option (Fd × Nat) × DmaRegistry :=
  match arg with
  | none => (none, registry)
  | some arg =>
      if iocType request != ionIocMagic then (none, registry)
      else if isIonLegacyAlloc request then
        (none, registry.recordIonAllocation ionFd arg.handle arg.len.toNat)
      else if isIonNewAlloc request then
        (if arg.fd.toInt32 ≥ 0 ∧ arg.len.toNat > 0 then some (arg.fd.toInt32, arg.len.toNat)
          else none, registry)
      else if isIonFdRequest request 2 || isIonFdRequest request 4 then
        let size := registry.lookupIonAllocation ionFd arg.handle
        (if arg.fd.toInt32 ≥ 0 ∧ size > 0 then some (arg.fd.toInt32, size) else none, registry)
      else if isIonFdRequest request 5 then (none, registry)
      else if isIonFree request then (none, registry.dropIonAllocation ionFd arg.handle)
      else (none, registry)

/-- Whether `handle_dma_node` leaves the request to the next `mmap` of the thread. -/
def marksPending : Bool :=
  request == kbaseIoctlMemAlloc || request == kbaseIoctlMemAllocEx || request == ioctlKgslGpuobjAlloc

/-- `handle_dma_node`, apart from the mark of `marksPending`: the descriptor and size it recognised. -/
def handleDmaNode (fdinfo : Option Nat) : Option (Fd × Nat) :=
  if marksPending request then none
  else if request == dmaHeapIoctlAlloc then
    arg.bind fun arg =>
      if arg.fd.toInt32 ≥ 0 ∧ arg.len.toNat > 0 then some (arg.fd.toInt32, arg.len.toNat) else none
  else if request == camMemIonMapPa then
    arg.bind fun arg => (registry.isDmaBuf arg.fd.toInt32 fdinfo).map fun size => (arg.fd.toInt32, size)
  else none

/-- `ShouldTrackDmaMapping`: the size to account, if any, and the registry after it. -/
def shouldTrackDmaMapping (mapShared : Bool) (fdinfo : Option Nat) : Option Nat × DmaRegistry :=
  if fd < 0 ∨ !mapShared then (none, registry)
  else
    match registry.lookupDmaFd fd with
    | some info => (if info.tracked then none else some info.size, registry)
    | none =>
        match registry.isDmaBuf fd fdinfo with
        | none => (none, registry)
        | some size =>
            let registered := registry.registerDmaFd fd size
            (if registered.1 = some true then some size else none, registered.2)

/-! ### What each function does to `dma_fds` -/

theorem lookup_takeDmaFd (fd other : Fd) :
    (registry.takeDmaFd fd).2.dmaFds.lookup other =
      if other = fd then none else registry.dmaFds.lookup other := by
  unfold takeDmaFd
  split
  · next absent =>
      split
      · next same => rw [same, absent]
      · rfl
  · split
    · next same => rw [same, AList.lookup_erase]
    · next differ => rw [AList.lookup_erase_ne differ]

theorem lookup_markDmaFdTracked (fd other : Fd) :
    (registry.markDmaFdTracked fd).dmaFds.lookup other =
      if other = fd then (registry.dmaFds.lookup fd).map fun info => { info with tracked := true }
      else registry.dmaFds.lookup other := by
  unfold markDmaFdTracked
  split
  · next absent =>
      split
      · next same => rw [same, absent, Option.map_none]
      · rfl
  · next info held =>
      split
      · next same => rw [same, AList.lookup_insert, held, Option.map_some]
      · next differ => rw [AList.lookup_insert_ne differ]

/-- Decoding an ION request touches only the legacy allocations. -/
theorem handleIonIoctl_dmaFds :
    (registry.handleIonIoctl ionFd request arg).2.dmaFds = registry.dmaFds := by
  unfold handleIonIoctl recordIonAllocation
  cases arg with
  | none => rfl
  | some arg =>
      simp only
      split_ifs <;> rfl

end DmaRegistry

/-! ### Mappings -/

inductive MmapCaptureKind where
  | none
  | anonymous
  | pendingIoctl
deriving DecidableEq, Repr, Inhabited

def mapShared : UInt32 := 0x1
def mapFixed : UInt32 := 0x10
def mapAnonymous : UInt32 := 0x20
def mremapDontunmap : UInt32 := 4

/-- `flags & flag`. -/
def hasFlag (flags flag : UInt32) : Bool := flags &&& flag != 0

/-- `MAP_FAILED`. -/
def mapFailed : Pointer := uintptrMax

/-- `MappingSucceeded`. -/
def mappingSucceeded (result : Pointer) : Bool := result != 0 && result != mapFailed

/-- `ClassifyMmap`. -/
def classifyMmap (result : Pointer) (flags : UInt32) (fd : Fd) (pendingIoctl : Bool) : MmapCaptureKind :=
  if result = mapFailed then .none
  else if pendingIoctl then .pendingIoctl
  else if fd < 0 ∧ hasFlag flags mapAnonymous then .anonymous
  else .none

end MallocHook
