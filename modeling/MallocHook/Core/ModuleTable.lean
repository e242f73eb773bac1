/-
Module: MallocHook.Core.ModuleTable
Purpose: The table by which a report turns program counters into addresses of files, built from
  /proc/self/maps and the ELF headers in memory.
Trusted boundary: translation of ModuleTable of backtrace/src/PointerData.cpp, for a 64-bit
  little-endian system; memory is a function from addresses to bytes
Main exports: ModuleRange, firstLoadVaddr, moduleBase
-/
import MallocHook.Core.ProcMaps
import MallocHook.Lib.ByteMemory
import MallocHook.Lib.LineStream
import MallocHook.Lib.RangeTable
import MallocHook.Lib.SortedRuns
import MallocHook.Lib.Tally

namespace MallocHook

structure RawMapping where
  start : UInt64
  stop : UInt64
  offset : UInt64
  executable : Bool
  readable : Bool
  name : List Char
deriving DecidableEq, Repr

structure ModuleRange where
  start : UInt64
  stop : UInt64
  loadBias : UInt64
  name : List Char
deriving DecidableEq, Repr

/-! ### ELF headers in memory -/

/-- `sizeof(Elf64_Ehdr)`. -/
def kEhdrBytes : UInt64 := 64

/-- `sizeof(Elf64_Phdr)`. -/
def kPhdrBytes : Nat := 56

/-- `PT_LOAD`. -/
def kPtLoad : Nat := 1

variable (memory : ByteMemory) (base : UInt64)

/-- The fields of `Elf64_Ehdr` that are read, at their offsets. -/
def hasMagic : Bool :=
  memory base == 0x7f && memory (base + 1) == 0x45 && memory (base + 2) == 0x4c && memory (base + 3) == 0x46

def phoff : UInt64 := memory.word (base + 32)

def phentsize : Nat := memory.read (base + 54) 2

def phnum : Nat := memory.read (base + 56) 2

/-- `p_type` and `p_vaddr` of a program header. -/
def ptype (i : Nat) : Nat :=
  memory.read (base + phoff memory base + UInt64.ofNat (i * kPhdrBytes)) 4

def pvaddr (i : Nat) : UInt64 :=
  memory.word (base + phoff memory base + UInt64.ofNat (i * kPhdrBytes) + 16)

/-- `FirstLoadVaddr`. -/
def firstLoadVaddr (mapping : RawMapping) : Option UInt64 :=
  let length := mapping.stop - mapping.start
  let base := mapping.start
  if mapping.readable = false ∨ length < kEhdrBytes then none
  else if hasMagic memory base = false then none
  else if phentsize memory base ≠ kPhdrBytes ∨ phnum memory base = 0 then none
  else if phoff memory base > length ∨
      UInt64.ofNat (phnum memory base * kPhdrBytes) > length - phoff memory base then none
  else ((List.range (phnum memory base)).find? fun i => ptype memory base i = kPtLoad).map
    (pvaddr memory base)

/-- The load bias that a mapping of the start of a file gives. -/
def loadBias (mapping : RawMapping) : UInt64 :=
  match firstLoadVaddr memory mapping with
  | none => mapping.start
  | some vaddr => if vaddr ≤ mapping.start then mapping.start - vaddr else mapping.start

/-! ### Lines -/

/-- `sscanf` with "%lx-%lx %7s %lx": what it assigns, and what follows. -/
def scanModuleLine (line : CString) : Option (UInt64 × UInt64 × List Char × UInt64 × CString) := do
  let (start, stop, rest) ← scanRange line
  let (perms, rest) ← Scanf.wordUpTo 7 rest
  let (offset, rest) ← Scanf.unsigned 16 rest
  return (start, stop, perms, offset, rest)

/-- Where the format goes on with " %*s %*s %n": the path begins after two more words. Without them it is
the whole line. -/
def scanPath (line rest : CString) : CString :=
  match Scanf.word rest >>= Scanf.word with
  | none => line
  | some rest => Scanf.skipSpace rest

/-- `ParseLine`. -/
def parseLine (entry : List Char) : Option RawMapping :=
  let line := cString entry
  match scanModuleLine line with
  | none => none
  | some (start, stop, perms, offset, rest) =>
      let path := (scanPath line rest).dropWhile (· == ' ')
      if path = [] ∨ path.head? = some '[' then none
      else
        some
          { start := start
            stop := stop
            offset := offset
            executable := perms.contains 'x'
            readable := perms.contains 'r'
            name := path }

/-- The lines of a file, with what follows the last newline. -/
def contentLines (content : List Char) : List (List Char) :=
  let lines := LineStream.cut '\n' content
  if lines.2 = [] then lines.1 else lines.1 ++ [lines.2]

def parseMaps (content : List Char) : List RawMapping := (contentLines content).filterMap parseLine

/-! ### The table -/

/-- The body of the loop that fills `module_base`. -/
def noteBase (base : AList fun _ : List Char => UInt64) (mapping : RawMapping) :
    AList fun _ : List Char => UInt64 :=
  if mapping.offset ≠ 0 ∨ mapping.readable = false then base
  else Tally.lower base mapping.name (loadBias memory mapping)

def moduleBase (mappings : List RawMapping) : AList fun _ : List Char => UInt64 :=
  mappings.foldl (noteBase memory) ∅

def moduleRange (base : AList fun _ : List Char => UInt64) (mapping : RawMapping) : ModuleRange where
  start := mapping.start
  stop := mapping.stop
  loadBias := (base.lookup mapping.name).getD (mapping.start - mapping.offset)
  name := mapping.name

/-- The ranges before they are sorted; none when the file could not be opened. -/
def moduleRanges (file : Option (List Char)) : List ModuleRange :=
  let mappings := parseMaps (file.getD [])
  (mappings.filter RawMapping.executable).map (moduleRange (moduleBase memory mappings))

/-- `a.start < b.start`. -/
def startsFirst (a b : ModuleRange) : Bool := decide (a.start < b.start)

/-- `Build` may leave this table. -/
def BuildsModuleTable (file : Option (List Char)) (ranges : List ModuleRange) : Prop :=
  SortOutcome startsFirst (moduleRanges memory file) ranges

/-- `Resolve`: the relative address and the path. -/
def resolve (ranges : List ModuleRange) (pc : UInt64) : Option (UInt64 × List Char) :=
  (RangeTable.locate ModuleRange.start ModuleRange.stop ranges pc).map fun range =>
    (pc - range.loadBias, range.name)

end MallocHook
