/-
Module: MallocHook.Core.MappingRss
Purpose: The residency of the process by backing mapping, read from smaps for a peak: the classifier of
  lines, and the ranking of the sums.
Trusted boundary: translation of CollectMappingRss of backtrace/src/PointerData.cpp and
  ReadStatusField of backtrace/src/ObservedMemory.cpp
Main exports: readStatusField, mappingName, MappingScan
-/
import Mathlib.Data.List.DropRight
import Mathlib.Data.UInt
import MallocHook.Core.PeakSnapshot
import MallocHook.Core.ProcMaps
import MallocHook.Lib.LineStream
import MallocHook.Lib.SortedRuns
import MallocHook.Lib.Tally

namespace MallocHook

/-! ### Fields -/

/-- The value of decimal digits in a `size_t`. -/
def decimalValue (digits : List Char) : UInt64 :=
  digits.foldl (fun value c => value * 10 + UInt64.ofNat (c.toNat - '0'.toNat)) 0

/-- `ReadStatusField`. -/
def readStatusField (text key : CString) : UInt64 :=
  match strstr key text with
  | none => 0
  | some found => decimalValue (((found.drop key.length).dropWhile isFieldBlank).takeWhile Char.isDigit)

/-! ### Headers -/

def kAnonymous : String := "[anonymous]"

/-- The most bytes a read may return. -/
def kSmapsChunkBytes : Nat := 16384

/-- Skip fields that end in blanks; `none` when there is no further blank. -/
def skipBlankFields : Nat → List Char → Option (List Char)
  | 0, line => some line
  | fields + 1, line =>
      if ' ' ∈ line then skipBlankFields fields ((line.dropWhile (· != ' ')).dropWhile (· == ' ')) else none

/-- The name under which a path is charged. -/
def mappingName (path : List Char) : String :=
  let path := path.rdropWhile fun c => c == ' ' || c == '\r'
  if path = [] then kAnonymous else String.ofList path

/-- Whether a line is taken for a header. -/
def looksLikeHeader (line : List Char) : Bool := line.head?.any Char.isDigit && decide ('-' ∈ line)

def isFileName (name : String) : Bool := name.toList.head? == some '/'

/-! ### The scan -/

/-- The sums by name of `rss_kb` and `size_kb`, the totals of both kinds, and the current mapping. -/
structure MappingScan where
  byMapping : AList fun _ : String => UInt64 × UInt64 := ∅
  file : UInt64 × UInt64 := 0
  anon : UInt64 × UInt64 := 0
  current : String := kAnonymous

namespace MappingScan

/-- Charge an amount to the current mapping and to the totals of its kind. -/
def charge (s : MappingScan) (amount : UInt64 × UInt64) : MappingScan :=
  { s with
    byMapping := Tally.charge s.byMapping s.current amount
    file := if isFileName s.current then s.file + amount else s.file
    anon := if isFileName s.current then s.anon else s.anon + amount }

/-- The body of the loop over lines of `CollectMappingRss`. -/
def line (s : MappingScan) (line : List Char) : MappingScan :=
  if "Rss:".toList.isPrefixOf line then s.charge (readStatusField (cString line) "Rss:".toList, 0)
  else if "Size:".toList.isPrefixOf line then s.charge (0, readStatusField (cString line) "Size:".toList)
  else if looksLikeHeader line then { s with current := mappingName ((skipBlankFields 5 line).getD []) }
  else s

def totals (s : MappingScan) : MappingTotals where
  fileRssKb := s.file.1.toNat
  anonRssKb := s.anon.1.toNat
  fileSizeKb := s.file.2.toNat
  anonSizeKb := s.anon.2.toNat

/-- The entries of the map, in some order. -/
def entries (s : MappingScan) : List MappingRss :=
  s.byMapping.entries.map fun entry => ⟨entry.1, entry.2.1.toNat, entry.2.2.toNat⟩

end MappingScan

/-- The state after the chunks that the reads returned. -/
def scanMappings (chunks : List (List Char)) : MappingScan :=
  (chunks.foldl (LineStream.pour '\n' MappingScan.line) ({}, [])).1

/-- `a.rss_kb > b.rss_kb`. -/
def rssFirst (a b : MappingRss) : Bool := decide (a.rssKb > b.rssKb)

/-- `CollectMappingRss` may return this ranking and these totals, for some chunks read or a file that
could not be opened. -/
def CollectsMappingRss (file : Option (List (List Char))) (topN : Nat) (ranked : List MappingRss)
    (totals : MappingTotals) : Prop :=
  match file with
  | none => ranked = [] ∧ totals = ⟨0, 0, 0, 0⟩
  | some chunks =>
      (∃ sorted, SortOutcome rssFirst (scanMappings chunks).entries sorted ∧ ranked = sorted.take topN) ∧
        totals = (scanMappings chunks).totals

end MallocHook
