/-
Module: MallocHook.Core.ProcReaders
Purpose: The readers of /proc of the sampler: what each does with one line, and the loop they share.
Trusted boundary: translation of the line readers of backtrace/src/ObservedMemory.cpp
Main exports: readFile, readGpuMmapBytesFrom, readGpuSmapsReading
-/
import MallocHook.Core.DmaInodeSet
import MallocHook.Core.ObservedMemory
import MallocHook.Core.ProcMaps
import MallocHook.Lib.LineStream

namespace MallocHook

/-! ### Reading a file -/

/-- Open a file and read it to its end: `none` when `fuel` reads do not do, else the state reached, or
nothing for a file that could not be opened. `choices` says how many bytes each read returns. -/
def readFile {σ : Type} (reader : Refill Char σ) (fuel : Nat) (choices : List Nat) (s : σ) :
    Option (List Char) → Option (Option σ)
  | none => some none
  | some content => (reader.readLoop fuel choices s [] content).map fun ended => some ended.1

/-! ### Device regions of smaps -/

/-- `GpuRegionScan`. -/
structure GpuRegionScan where
  inGpuRegion : Bool := false
  regionSize : UInt64 := 0
deriving DecidableEq, Repr

/-- Whether a header names a device node. -/
def namesGpuNode (line : CString) : Bool := (mapsLinePath line).any isGpuNodePath

/-- `sscanf(line + 4, "%ld")` on a line that begins with "Rss:". -/
def scanRss (line : CString) : Option Int := (Scanf.long (line.drop 4)).map Prod.fst

/-- A size in KiB as bytes in a `size_t`. -/
def kibibytes (kb : Int) : UInt64 := UInt64.ofInt kb * 1024

/-- `GpuMmapBytesFromSmapsLine`. -/
def gpuMmapBytesFromSmapsLine (line : CString) (scan : GpuRegionScan) : UInt64 × GpuRegionScan :=
  match scanRange line with
  | some (start, stop, _) =>
      (0, { inGpuRegion := namesGpuNode line, regionSize := if stop > start then stop - start else 0 })
  | none =>
      if scan.inGpuRegion = false ∨ "Rss:".toList.isPrefixOf line = false then (0, scan)
      else
        let scan := { scan with inGpuRegion := false }
        match scanRss line with
        | none => (0, scan)
        | some rssKb =>
            let resident := kibibytes (if rssKb < 0 then 0 else rssKb)
            (if scan.regionSize > resident then scan.regionSize - resident else 0, scan)

/-- A total and what is carried from line to line. -/
structure GpuMmapState where
  total : UInt64 := 0
  scan : GpuRegionScan := {}
deriving DecidableEq, Repr

def GpuMmapState.line (s : GpuMmapState) (line : CString) : GpuMmapState :=
  { total := s.total + (gpuMmapBytesFromSmapsLine line s.scan).1
    scan := (gpuMmapBytesFromSmapsLine line s.scan).2 }

/-- `GpuMmapBytesFromSmapsText`: the lines, and what follows the last newline if it is not empty. -/
def gpuMmapBytesFromSmapsText (text : CString) : UInt64 :=
  let lines := LineStream.cut '\n' text
  ((if lines.2 = [] then lines.1 else lines.1 ++ [lines.2]).foldl GpuMmapState.line {}).total

def gpuMmapReader : Refill Char GpuMmapState where
  newline := '\n'
  size := 16384
  step s line := s.line (cString line)
  reset s := { s with scan := {} }

/-- `ReadGpuMmapBytesFrom`. -/
def readGpuMmapBytesFrom (fuel : Nat) (choices : List Nat) (file : Option (List Char)) :
    Option (Option UInt64) :=
  (readFile gpuMmapReader fuel choices {} file).map (·.map GpuMmapState.total)

/-! ### Device regions of maps -/

/-- `GpuMappedBytesFromMapsLine`. -/
def gpuMappedBytesFromMapsLine (line : CString) : UInt64 :=
  match scanRange line with
  | none => 0
  | some (start, stop, _) =>
      if stop ≤ start then 0 else if namesGpuNode line = false then 0 else stop - start

def gpuMappedReader : Refill Char UInt64 where
  newline := '\n'
  size := 16384
  step total line := total + gpuMappedBytesFromMapsLine (cString line)
  reset := id

/-- `ReadGpuMappedBytesFrom`. -/
def readGpuMappedBytesFrom (fuel : Nat) (choices : List Nat) (file : Option (List Char)) :
    Option (Option UInt64) :=
  readFile gpuMappedReader fuel choices 0 file

/-! ### The three sums over smaps -/

/-- `GpuSmapsReading` while it is filled, with its mapped total and the flag between lines. -/
structure SmapsScan where
  reading : GpuSmapsReading := ⟨0, 0⟩
  deviceMappedBytes : UInt64 := 0
  inDevice : Bool := false
deriving DecidableEq, Repr

/-- The body of the loop of `ReadGpuSmapsReading`. -/
def SmapsScan.line (s : SmapsScan) (line : CString) : SmapsScan :=
  match scanRange line with
  | some (lo, hi, _) =>
      { s with
        inDevice := namesGpuNode line
        deviceMappedBytes :=
          if namesGpuNode line = true ∧ hi > lo then s.deviceMappedBytes + (hi - lo)
            else s.deviceMappedBytes }
  | none =>
      if "Rss:".toList.isPrefixOf line = false then s
      else
        match scanRss line with
        | none => s
        | some rssKb =>
            if rssKb < 0 then s
            else
              let rss := kibibytes rssKb
              { s with
                reading :=
                  { allRssBytes := s.reading.allRssBytes + rss
                    deviceRssBytes :=
                      if s.inDevice then s.reading.deviceRssBytes + rss else s.reading.deviceRssBytes } }

def smapsReader : Refill Char SmapsScan where
  newline := '\n'
  size := 16384
  step s line := s.line (cString line)
  reset s := { s with inDevice := false }

/-- `ReadGpuSmapsReading`: the reading, and its mapped total. -/
def readGpuSmapsReading (fuel : Nat) (choices : List Nat) (file : Option (List Char)) :
    Option (Option (GpuSmapsReading × UInt64)) :=
  (readFile smapsReader fuel choices {} file).map (·.map fun s => (s.reading, s.deviceMappedBytes))

/-! ### dma-bufs that are mapped -/

/-- `sscanf` with "%lx-%lx %*s %*s %*s %llu". -/
def scanInode (line : CString) : Option (UInt64 × UInt64 × UInt64) := do
  let (start, stop, rest) ← scanRange line
  let rest ← Scanf.word rest
  let rest ← Scanf.word rest
  let rest ← Scanf.word rest
  let (inode, _) ← Scanf.unsigned 10 rest
  return (start, stop, inode)

/-- What the mapping pass carries: its total, the inodes of the pass and whether a dma-buf was seen. -/
structure DmaScan where
  total : UInt64 := 0
  set : DmaInodeSet
  sawAny : Bool

/-- `DmaBytesFromMapsLine`: the bytes, the inodes and the flag. -/
def dmaBytesFromMapsLine (line : CString) (set : DmaInodeSet) (sawAny : Bool) :
    UInt64 × DmaInodeSet × Bool :=
  if strstr "/dmabuf".toList line = none then (0, set, sawAny)
  else
    match scanInode line with
    | none => (0, set, sawAny)
    | some (start, stop, inode) =>
        if stop ≤ start then (0, set, sawAny)
        else (if (insertInode set inode).1 then stop - start else 0, (insertInode set inode).2, true)

def DmaScan.line (s : DmaScan) (line : CString) : DmaScan :=
  let counted := dmaBytesFromMapsLine line s.set s.sawAny
  { total := s.total + counted.1, set := counted.2.1, sawAny := counted.2.2 }

def dmaMapsReader : Refill Char DmaScan where
  newline := '\n'
  size := 16384
  step s line := s.line (cString line)
  reset := id

/-- `ReadDmaBytesFromMaps`: the bytes, the inodes and the flag. -/
def readDmaBytesFromMaps (fuel : Nat) (choices : List Nat) (set : DmaInodeSet) (sawAny : Bool)
    (file : Option (List Char)) : Option DmaScan :=
  (readFile dmaMapsReader fuel choices { set, sawAny } file).map (·.getD { set, sawAny })

/-! ### ION -/

/-- `sscanf` with "%255s %d %d %llu": pid and size. -/
def scanIon (line : CString) : Option (Int32 × UInt64) := do
  let (_, rest) ← Scanf.wordUpTo 255 line
  let (entryPid, rest) ← Scanf.int rest
  let (_, rest) ← Scanf.int rest
  let (size, _) ← Scanf.unsigned 10 rest
  return (entryPid, size)

/-- What a line of the ION file adds for a process. -/
def ionBytesFromLine (pid : Int32) (line : CString) : UInt64 :=
  match scanIon line with
  | none => 0
  | some (entryPid, size) => if entryPid = pid then size else 0

def ionReader (pid : Int32) : Refill Char UInt64 where
  newline := '\n'
  size := 8192
  step total line := total + ionBytesFromLine pid (cString line)
  reset := id

/-- `ReadIonProcInfoBytesFrom`. -/
def readIonProcInfoBytesFrom (pid : Int32) (fuel : Nat) (choices : List Nat) (file : Option (List Char)) :
    Option (Option UInt64) :=
  readFile (ionReader pid) fuel choices 0 file

end MallocHook
