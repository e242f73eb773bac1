/-
Module: MallocHook.Core.Bootstrap
Purpose: The allocator that serves the process until the C library is known. Every block is a mapping
  with a header below the payload, and the headers are linked in a list.
Trusted boundary: translation of the Bootstrap functions of src/alloc_hook.cpp. Memory is a function
  on addresses; mmap answers with pages that are not mapped, and munmap of a mapping succeeds. The
  program may store anywhere but in a header. The loops over the list take fuel and are `none` when
  it runs out.
Main exports: BootstrapHeap, bootstrapAlignedMalloc
-/
import MallocHook.Lib.ByteMemory
import MallocHook.Lib.Machine

namespace MallocHook

/-! ### Sizes and addresses -/

inductive Errno
  | einval
  | enomem
deriving DecidableEq, Repr

/-- `SIZE_MAX`. -/
def kSizeMax : UInt64 := 0xffffffffffffffff

/-- `sizeof(BootstrapHeader)`: five words, padded to the alignment. -/
def kHeaderBytes : UInt64 := 48

/-- `alignof(BootstrapHeader)` and `alignof(std::max_align_t)`. -/
def kMaxAlign : UInt64 := 16

/-- `alignof(void*)`. -/
def kPointerAlign : UInt64 := 8

def kBootstrapMagic : UInt64 := 0x6d616c6c6f635f68

def isPowerOfTwo (value : UInt64) : Bool := value != 0 && (value &&& (value - 1)) == 0

def checkedAdd (lhs rhs : UInt64) : Option UInt64 := if rhs > kSizeMax - lhs then none else some (lhs + rhs)

variable (pageSize : Int64)

/-- The alignment that `PageAlign` takes from what `sysconf(_SC_PAGESIZE)` returns. -/
def pageAlignment : UInt64 := if pageSize > 0 then pageSize.toUInt64 else 4096

/-- `PageAlign`. -/
def pageAlign (size : UInt64) : UInt64 :=
  let alignment := pageAlignment pageSize
  if !isPowerOfTwo alignment || decide (size > kSizeMax - (alignment - 1)) then 0
  else (size + alignment - 1) &&& ~~~(alignment - 1)

/-- `std::max(alignment, alignof(BootstrapHeader))`. -/
def effectiveAlignment (alignment : UInt64) : UInt64 :=
  if alignment < kMaxAlign then kMaxAlign else alignment

/-- `BootstrapAlignedMalloc` up to the call of mmap: the number of bytes to map. -/
def bootstrapMapSize (alignment size : UInt64) : Except Errno UInt64 :=
  if !isPowerOfTwo alignment || decide (alignment < kPointerAlign) then .error .einval
  else
    match (checkedAdd kHeaderBytes size).bind fun payload =>
      checkedAdd payload (effectiveAlignment alignment - 1) with
    | none => .error .enomem
    | some total =>
        let mapSize := pageAlign pageSize total
        if mapSize = 0 then .error .enomem else .ok mapSize

/-- `aligned_payload`. -/
def placedPayload (map alignment : UInt64) : UInt64 :=
  let firstPayload := map + kHeaderBytes
  (firstPayload + effectiveAlignment alignment - 1) &&& ~~~(effectiveAlignment alignment - 1)

/-! ### The heap -/

/-- The memory, `g_bootstrap_list` (zero for null) and the addresses and sizes the kernel has mapped. -/
structure BootstrapHeap where
  memory : ByteMemory
  list : UInt64
  mappings : List (UInt64 × UInt64)

/-- What a call returns (zero for null), what it sets `errno` to, and the heap that it leaves. -/
structure Returned where
  pointer : UInt64
  errno : Option Errno := none
  heap : BootstrapHeap

namespace BootstrapHeap

variable (heap : BootstrapHeap)

/-! The fields of a header. -/

variable (header : UInt64)

def mapBase : UInt64 := heap.memory.word header
def mapSize : UInt64 := heap.memory.word (header + 8)
def requestedSize : UInt64 := heap.memory.word (header + 16)
def magic : UInt64 := heap.memory.word (header + 24)
def next : UInt64 := heap.memory.word (header + 32)

/-- Fill in a header and put it at the front of the list. -/
def push (header map mapSize size : UInt64) : BootstrapHeap where
  memory := ((((heap.memory.setWord header map).setWord (header + 8) mapSize).setWord
    (header + 16) size).setWord
    (header + 24) kBootstrapMagic).setWord (header + 32) heap.list
  list := header
  mappings := (map, mapSize) :: heap.mappings

end BootstrapHeap

/-! ### The functions -/

/-- `BootstrapAlignedMalloc`. `answer` is what mmap returns, none for `MAP_FAILED`. -/
def bootstrapAlignedMalloc (alignment size : UInt64) (answer : Option UInt64) (heap : BootstrapHeap) :
    Returned :=
  match bootstrapMapSize pageSize alignment size with
  | .error errno => { pointer := 0, errno := some errno, heap := heap }
  | .ok mapSize =>
      match answer with
      | none => { pointer := 0, heap := heap }
      | some map =>
          let header := placedPayload map alignment - kHeaderBytes
          { pointer := header + kHeaderBytes, heap := heap.push header map mapSize size }

/-- `BootstrapMalloc`. -/
def bootstrapMalloc (size : UInt64) : Option UInt64 → BootstrapHeap → Returned :=
  bootstrapAlignedMalloc pageSize kMaxAlign size

/-- Enough for a list that does not repeat a header. -/
def kListFuel : Nat := 2 ^ 64 + 1

/-- The loop of `IsBootstrapPointer`. -/
def findBlock (heap : BootstrapHeap) (pointer : UInt64) : Nat → UInt64 → Option Bool
  | 0, _ => none
  | fuel + 1, header =>
      if header = 0 then some false
      else if heap.magic header == kBootstrapMagic && header + kHeaderBytes == pointer then some true
      else findBlock heap pointer fuel (heap.next header)

/-- `IsBootstrapPointer`. -/
def isBootstrapPointer (heap : BootstrapHeap) (pointer : UInt64) : Option Bool :=
  if pointer = 0 then some false else findBlock heap pointer kListFuel heap.list

/-- A place that holds a link: `g_bootstrap_list`, or the field `next` of a header. -/
inductive ListLink
  | list
  | next (header : UInt64)
deriving DecidableEq, Repr

namespace BootstrapHeap

/-- `*current`. -/
def load (heap : BootstrapHeap) : ListLink → UInt64
  | .list => heap.list
  | .next header => heap.next header

/-- `*current = value`. -/
def store (heap : BootstrapHeap) (value : UInt64) : ListLink → BootstrapHeap
  | .list => { heap with list := value }
  | .next header => { heap with memory := heap.memory.setWord (header + 32) value }

end BootstrapHeap

/-- The loop of `BootstrapFree`: the link that leads to the header, or the last one. -/
def findLink (heap : BootstrapHeap) (header : UInt64) : Nat → ListLink → Option ListLink
  | 0, _ => none
  | fuel + 1, current =>
      if heap.load current != 0 && heap.load current != header then
        findLink heap header fuel (.next (heap.load current))
      else some current

/-- `BootstrapFree` once the loop has ended: unlink the header, mark it and unmap the block. -/
def releaseBlock (heap : BootstrapHeap) (header : UInt64) (current : ListLink) : BootstrapHeap :=
  let heap := if heap.load current = header then heap.store (heap.next header) current else heap
  let mapSize := heap.mapSize header
  let heap := { heap with memory := heap.memory.setWord (header + 24) 0 }
  { heap with mappings := heap.mappings.erase (heap.mapBase header, mapSize) }

/-- `BootstrapFree`. -/
def bootstrapFree (pointer : UInt64) (heap : BootstrapHeap) : Option BootstrapHeap :=
  (isBootstrapPointer heap pointer).bind fun isBootstrap =>
    if !isBootstrap then some heap
    else (findLink heap (pointer - kHeaderBytes) kListFuel .list).map
      (releaseBlock heap (pointer - kHeaderBytes))

/-- `BootstrapCalloc`. -/
def bootstrapCalloc (nmemb size : UInt64) (answer : Option UInt64) (heap : BootstrapHeap) : Returned :=
  if nmemb.toNat * size.toNat ≥ 2 ^ 64 then { pointer := 0, errno := some .enomem, heap := heap }
  else
    let total := nmemb * size
    let returned := bootstrapMalloc pageSize total answer heap
    if returned.pointer != 0 then
      { returned with
        heap := { returned.heap with memory := returned.heap.memory.fill returned.pointer total.toNat 0 } }
    else returned

/-- `BootstrapRealloc`. -/
def bootstrapRealloc (pointer size : UInt64) (answer : Option UInt64) (heap : BootstrapHeap) :
    Option Returned :=
  if pointer = 0 then some (bootstrapMalloc pageSize size answer heap)
  else if size = 0 then (bootstrapFree pointer heap).map fun heap => { pointer := 0, heap := heap }
  else
    (isBootstrapPointer heap pointer).bind fun isBootstrap =>
      let oldSize := if isBootstrap then heap.requestedSize (pointer - kHeaderBytes) else 0
      let returned := bootstrapMalloc pageSize size answer heap
      if returned.pointer != 0 && oldSize != 0 then
        let copied := returned.heap.memory.copy returned.pointer pointer (min oldSize.toNat size.toNat)
        (bootstrapFree pointer { returned.heap with memory := copied }).map fun heap =>
          { returned with heap := heap }
      else some returned

/-! ### Runs -/

/-- The calls, with what mmap answers, and a byte that the program stores. -/
inductive BootstrapCall
  | malloc (size : UInt64) (answer : Option UInt64)
  | alignedMalloc (alignment size : UInt64) (answer : Option UInt64)
  | calloc (nmemb size : UInt64) (answer : Option UInt64)
  | realloc (pointer size : UInt64) (answer : Option UInt64)
  | free (pointer : UInt64)
  | store (address : UInt64) (value : UInt8)
deriving DecidableEq, Repr

/-- The heap, the blocks neither freed nor replaced, with the sizes asked for, and what the last call
returned. -/
structure BootstrapRun where
  heap : BootstrapHeap
  live : List (UInt64 × UInt64)
  result : UInt64

/-- The kernel maps pages that are not mapped, not at address zero and not across the end of the address
space. -/
def mayMap (mappings : List (UInt64 × UInt64)) (map mapSize : UInt64) : Bool :=
  map != 0 && decide (map.toNat + mapSize.toNat < 2 ^ 64) && mappings.all fun other =>
    decide (map.toNat + mapSize.toNat ≤ other.1.toNat ∨ other.1.toNat + other.2.toNat ≤ map.toNat)

/-- The answer of mmap to a request for memory. -/
def mayAnswer (mappings : List (UInt64 × UInt64)) (alignment size : UInt64) (answer : Option UInt64) :
    Bool :=
  answer.all fun map =>
    match bootstrapMapSize pageSize alignment size with
    | .ok mapSize => mayMap mappings map mapSize
    | .error _ => true

namespace BootstrapCall

/-- What the kernel and the program may do. The program does not store in the header of a block. -/
def allowed (run : BootstrapRun) : BootstrapCall → Bool
  | .malloc size answer => mayAnswer pageSize run.heap.mappings kMaxAlign size answer
  | .alignedMalloc alignment size answer => mayAnswer pageSize run.heap.mappings alignment size answer
  | .calloc nmemb size answer => mayAnswer pageSize run.heap.mappings kMaxAlign (nmemb * size) answer
  | .realloc _ size answer => mayAnswer pageSize run.heap.mappings kMaxAlign size answer
  | .free _ => true
  | .store address _ =>
      run.live.all fun block => !decide ((address - (block.1 - kHeaderBytes)).toNat < kHeaderBytes.toNat)

/-- What a call does: the pointer that it returns and the heap. -/
def perform (heap : BootstrapHeap) : BootstrapCall → Option (UInt64 × BootstrapHeap)
  | .malloc size answer =>
      let returned := bootstrapMalloc pageSize size answer heap
      some (returned.pointer, returned.heap)
  | .alignedMalloc alignment size answer =>
      let returned := bootstrapAlignedMalloc pageSize alignment size answer heap
      some (returned.pointer, returned.heap)
  | .calloc nmemb size answer =>
      let returned := bootstrapCalloc pageSize nmemb size answer heap
      some (returned.pointer, returned.heap)
  | .realloc pointer size answer =>
      (bootstrapRealloc pageSize pointer size answer heap).map fun returned =>
        (returned.pointer, returned.heap)
  | .free pointer => (bootstrapFree pointer heap).map fun heap => (0, heap)
  | .store address value => some (0, { heap with memory := heap.memory.fill address 1 value })

/-- The live blocks after a call that returned `pointer`. A `realloc` to no bytes frees the block. -/
def liveAfter (live : List (UInt64 × UInt64)) (pointer : UInt64) : BootstrapCall → List (UInt64 × UInt64)
  | .malloc size _ => if pointer = 0 then live else (pointer, size) :: live
  | .alignedMalloc _ size _ => if pointer = 0 then live else (pointer, size) :: live
  | .calloc nmemb size _ => if pointer = 0 then live else (pointer, nmemb * size) :: live
  | .realloc old size _ =>
      if old ≠ 0 ∧ size = 0 then live.filter fun block => block.1 != old
      else if pointer = 0 then live
      else (pointer, size) :: live.filter fun block => block.1 != old
  | .free old => live.filter fun block => block.1 != old
  | .store _ _ => live

end BootstrapCall

/-- Any calls, with any pointers, from an empty list and any memory. A call that does not return ends the
run. -/
def bootstrapMachine (memory : ByteMemory) : Machine BootstrapRun BootstrapCall where
  init := { heap := { memory := memory, list := 0, mappings := [] }, live := [], result := 0 }
  step run call :=
    if call.allowed pageSize run then
      (call.perform pageSize run.heap).map fun done =>
        { heap := done.2, live := call.liveAfter run.live done.1, result := done.1 }
    else none

end MallocHook
