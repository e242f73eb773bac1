/-
Module: MallocHook.Core.EntryPoints
Purpose: The malloc family as the process calls it: who serves a call, the bootstrap allocator, the C
  library or the tracker.
Trusted boundary: translation of RESOLVE and of the malloc family of src/alloc_hook.cpp. The flags,
  Bypassed and what dlsym finds are inputs; the calls that dlsym makes come before the one it is
  called for.
Main exports: LibcSymbol, EntryCall, Served, EntryCall.serve
-/
import MallocHook.Core.Bootstrap

namespace MallocHook

/-- The functions that `RESOLVE` looks up. -/
inductive LibcSymbol
  | malloc
  | free
  | calloc
  | realloc
  | memalign
  | alignedAlloc
  | posixMemalign
deriving DecidableEq, Repr

/-- What a call reads: `allocHook_setup`, `g_resolving_symbols`, `Bypassed`, and what dlsym finds. -/
structure EntryView where
  setup : Bool := false
  resolving : Bool := false
  bypassed : Bool := false
  found : LibcSymbol → Bool := fun _ => true

/-- Who serves a call. A `free` that is refused does nothing, any other call returns an error. -/
inductive Served
  | bootstrap (call : BootstrapCall)
  | libc
  | tracker
  | refused
deriving DecidableEq, Repr

/-- `RESOLVE` of the symbols: which of the `m_sys_` pointers are set afterwards. -/
def EntryView.resolve (view : EntryView) (sys : LibcSymbol → Bool) (symbols : List LibcSymbol)
    (symbol : LibcSymbol) : Bool :=
  sys symbol || (symbols.contains symbol && !view.resolving && view.found symbol)

/-- The test that the entry points share. -/
def EntryView.route (view : EntryView) (known : Bool) (unresolved : Served) : Served :=
  if view.setup || view.resolving || !known || view.bypassed then if !known then unresolved
    else .libc else .tracker

/-- A call, or a byte that the program stores. `posix_memalign` may be given no place for its result. -/
inductive EntryCall
  | malloc (size : UInt64)
  | calloc (nmemb size : UInt64)
  | memalign (alignment bytes : UInt64)
  | alignedAlloc (alignment size : UInt64)
  | posixMemalign (hasResult : Bool) (alignment size : UInt64)
  | realloc (pointer size : UInt64)
  | free (pointer : UInt64)
  | store (address : UInt64) (value : UInt8)
deriving DecidableEq, Repr

namespace EntryCall

/-- The block that is given back, zero for none. -/
def pointer : EntryCall → UInt64
  | .realloc pointer _ | .free pointer => pointer
  | _ => 0

/-- What is looked up: `free` of a bootstrap block returns before. -/
def symbols (isBootstrap : Bool) : EntryCall → List LibcSymbol
  | .malloc _ => [.malloc]
  | .calloc .. => [.calloc]
  | .memalign .. => [.memalign]
  | .alignedAlloc .. => [.alignedAlloc]
  | .posixMemalign .. => [.memalign, .posixMemalign]
  | .realloc .. => [.realloc]
  | .free _ => if isBootstrap then [] else [.free]
  | .store .. => []

/-- The entry points after `RESOLVE`. `answer` is what mmap returns to the bootstrap allocator. -/
def serve (view : EntryView) (sys : LibcSymbol → Bool) (answer : Option UInt64) (isBootstrap : Bool) :
    EntryCall → Served
  | .malloc size => view.route (sys .malloc) (.bootstrap (.malloc size answer))
  | .calloc nmemb size => view.route (sys .calloc) (.bootstrap (.calloc nmemb size answer))
  | .memalign alignment bytes =>
      view.route (sys .memalign) (.bootstrap (.alignedMalloc alignment bytes answer))
  | .alignedAlloc alignment size => view.route (sys .alignedAlloc)
      (if !isPowerOfTwo alignment || decide (alignment < kPointerAlign) ||
        size % alignment != 0 then .refused
        else .bootstrap (.alignedMalloc alignment size answer))
  | .posixMemalign hasResult alignment size => view.route (sys .posixMemalign)
      (if !hasResult || !isPowerOfTwo alignment || decide (alignment < 8) || alignment % 8 != 0 then .refused
        else .bootstrap (.alignedMalloc alignment size answer))
  | .realloc pointer size =>
      if isBootstrap then .bootstrap (.realloc pointer size answer)
      else view.route (sys .realloc) (.bootstrap (.realloc pointer size answer))
  | .free pointer => if isBootstrap then .bootstrap (.free pointer) else view.route (sys .free) .refused
  | .store address value => .bootstrap (.store address value)

end EntryCall

/-- The `m_sys_` pointers that are set, and the bootstrap allocator. -/
structure EntryRun where
  sys : LibcSymbol → Bool
  boot : BootstrapRun

/-- A call, what it reads, and what mmap answers. -/
structure EntryEvent where
  call : EntryCall
  view : EntryView := {}
  answer : Option UInt64 := none

/-- Who serves a call, and the `m_sys_` pointers after it; none if it does not return. -/
def EntryEvent.serves (event : EntryEvent) (run : EntryRun) : Option (Served × (LibcSymbol → Bool)) :=
  (isBootstrapPointer run.boot.heap event.call.pointer).map fun isBootstrap =>
    let sys := event.view.resolve run.sys (event.call.symbols isBootstrap)
    (event.call.serve event.view sys event.answer isBootstrap, sys)

/-- Any calls at any time, from the start of the process on. -/
def entryPoints (pageSize : Int64) (memory : ByteMemory) : Machine EntryRun EntryEvent where
  init := { sys := fun _ => false, boot := (bootstrapMachine pageSize memory).init }
  step run event :=
    (event.serves run).bind fun
      | (.bootstrap call, sys) =>
          ((bootstrapMachine pageSize memory).step run.boot call).map fun boot =>
            { sys := sys, boot := boot }
      | (_, sys) => some { run with sys := sys }

end MallocHook
