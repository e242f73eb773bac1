/-
Module: MallocHook.Core.AllocTrack
Purpose: The reader of the allocation markers: the stack, the size and the name in the text of an event,
  and the pairing of begin and end markers first in, first out.
Trusted boundary: translation of extract_allocation_timings of
  scripts/build_perfetto_alloc_track.py, from the print events on; `dict` is a function from names
Main exports: FtracePrint, Lifetime, hashRe, sizeRe
-/
import Mathlib.Data.List.Infix

namespace MallocHook

/-- An ftrace event with a `print` in it: its timestamp and the bytes of `buf`. -/
structure FtracePrint where
  ts : Nat
  buf : List Char
deriving DecidableEq, Repr

/-- One entry of the list that is returned. -/
structure Lifetime where
  hashIndex : Nat
  sizeBytes : Option Nat
  ts : Nat
  dur : Nat
deriving DecidableEq, Repr

/-! ### The regular expressions -/

/-- `$`: the end, or a line feed that is the end. -/
def atEnd (text : List Char) : Bool := text == [] || text == ['\n']

/-- `(\d+)` with a lookahead. None used here accepts a digit, so only the longest run of digits can match.
-/
def digitsBefore (lookahead : List Char → Bool) (text : List Char) : Option Nat :=
  let digits := text.takeWhile Char.isDigit
  if digits ≠ [] ∧ lookahead (text.dropWhile Char.isDigit) = true then some (Nat.ofDigitChars 10 digits 0)
  else none

/-- `\.h(\d+)(?=\.s|\[|\||$)`, at the start of the text. -/
def hashHere : List Char → Option Nat
  | '.' :: 'h' :: rest =>
      digitsBefore (fun rest => ".s".toList.isPrefixOf rest || "[".toList.isPrefixOf rest ||
        "|".toList.isPrefixOf rest || atEnd rest) rest
  | _ => none

/-- `\.s(\d+)(?=\[|\||$)`, at the start of the text. -/
def sizeHere : List Char → Option Nat
  | '.' :: 's' :: rest =>
      digitsBefore (fun rest => "[".toList.isPrefixOf rest || "|".toList.isPrefixOf rest || atEnd rest) rest
  | _ => none

/-- `search`: the leftmost match. -/
def searchFor (here : List Char → Option Nat) : List Char → Option Nat
  | [] => here []
  | c :: rest => (here (c :: rest)).or (searchFor here rest)

def hashRe : List Char → Option Nat := searchFor hashHere

def sizeRe : List Char → Option Nat := searchFor sizeHere

/-- `rsplit(b"|", 1)[0]`. -/
def beforeLastBar (text : List Char) : List Char :=
  if '|' ∈ text then (text.reverse.dropWhile (· ≠ '|')).tail.reverse else text

/-- `buf[1:].rsplit(b"|", 1)[0]`. -/
def markerName (buf : List Char) : List Char := beforeLastBar buf.tail

/-! ### The loop -/

/-- The begin markers that are not paired yet: under each name, stacks, sizes and timestamps. -/
abbrev Begins := List Char → List (Nat × Option Nat × Nat)

/-- One marker: what it leaves unpaired and the lifetime that it ends, if it does. -/
def pairMarker (begins : Begins) (event : FtracePrint) : Begins × List Lifetime :=
  match hashRe event.buf with
  | none => (begins, [])
  | some hi =>
      let sizeBytes := sizeRe event.buf
      let name := markerName event.buf
      if event.buf.head? = some 'S' then
        (Function.update begins name (begins name ++ [(hi, sizeBytes, event.ts)]), [])
      else if event.buf.head? = some 'F' then
        match begins name with
        | [] => (begins, [])
        | (beginHi, beginSize, bts) :: later =>
            (Function.update begins name later,
              [⟨beginHi, beginSize, bts, if event.ts ≥ bts then event.ts - bts else 0⟩])
      else (begins, [])

/-- The loop over the markers. -/
def pairMarkers (begins : Begins) : List FtracePrint → List Lifetime
  | [] => []
  | event :: rest => (pairMarker begins event).2 ++ pairMarkers (pairMarker begins event).1 rest

/-- `extract_allocation_timings`, for prints that may be of anything. -/
def extractAllocationTimings (events : List FtracePrint) : List Lifetime :=
  pairMarkers (fun _ => []) (events.filter fun event => decide ("memory_".toList <:+: event.buf))

end MallocHook
