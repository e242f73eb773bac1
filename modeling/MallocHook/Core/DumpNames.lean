/-
Module: MallocHook.Core.DumpNames
Purpose: The names of the reports: how the library writes them, and how the analysis script reads them
  and makes tags of them.
Trusted boundary: translation of the file names in debug_finalize and signal_dump_thread of
  backtrace/src/malloc_debug.cpp, and of the dump tags of scripts/process_memory_stack.py; the
  classes of Python's regular expressions outside ASCII
Main exports: reportFileName, FsDecoding, dumpTagParts
-/
import MallocHook.Core.TrackOverlay
import MallocHook.Lib.PosixPath

namespace MallocHook

open PosixPath WireFormat

/-! ### Writing -/

/-- The reports that a process writes of itself: by `debug_finalize`, and by `signal_dump_thread`. -/
inductive ReportKind where
  | exit
  | signal
deriving DecidableEq, Repr

namespace ReportKind

/-- How the name tells the kind. -/
def word : ReportKind → List Char
  | exit => "exit".toList
  | signal => "signal".toList

/-- `sizeof(file_name)`. -/
def fileNameBytes : ReportKind → Nat
  | exit => 512
  | signal => 256

end ReportKind

/-- `%d` and `%ld`. -/
def decimal (value : Int) : List Char := (if value < 0 then ['-'] else []) ++ Nat.toDigits 10 value.natAbs

/-- What the format puts between the dump prefix and the extension: `exit.pid_%d.time_%ld`. -/
def reportStem (kind : ReportKind) (pid time : Int) : List Char :=
  kind.word ++ ".pid_".toList ++ decimal pid ++ ".time_".toList ++ decimal time

/-- `snprintf` into `file_name`, which cuts the name to the bytes that fit before the final zero. -/
def reportFileName (kind : ReportKind) (dumpPrefix : Bytes) (pid time : Int) : Bytes :=
  (dumpPrefix ++ ('.' :: reportStem kind pid time ++ ".txt".toList).map fun c => UInt8.ofNat c.toNat).take
    (kind.fileNameBytes - 1)

/-! ### Reading -/

/-- How the script sees the bytes of a file name as text. An ASCII byte is its character. -/
structure FsDecoding where
  decode : Bytes → Path
  decode_nil : decode [] = []
  decode_ascii : ∀ (front : Bytes) (byte : UInt8) (back : Bytes), byte < 128 →
    decode (front ++ byte :: back) = decode front ++ Char.ofNat byte.toNat :: decode back

/-- A decoding byte by byte. -/
def latin1Decoding : FsDecoding where
  decode := latin1
  decode_nil := rfl
  decode_ascii := by simp [latin1]

/-- The classes `\d` and `\w` of a text pattern. -/
structure TextClasses where
  digit : Char → Bool
  word : Char → Bool
  digit_ascii : ∀ c : Char, c.toNat < 128 → digit c = c.isDigit
  word_ascii : ∀ c : Char, c.toNat < 128 → word c = (c.isAlphanum || c == '_')

/-- Classes without a character outside ASCII. -/
def asciiClasses : TextClasses where
  digit := Char.isDigit
  word := fun c => c.isAlphanum || c == '_'
  digit_ascii := fun _ _ => rfl
  word_ascii := fun _ _ => rfl

/-- What `dump_tag_parts` returns. -/
structure DumpTagParts where
  kind : List Char
  pid : List Char
  time : List Char
deriving DecidableEq, Repr

variable (classes : TextClasses)

/-- `NAME\.(\d+)` at the start: the digits. -/
def numberHere (name : String) (input : List Char) : Option (List Char) := do
  let input ← literal (name ++ ".") input
  let (number, _) ← runOf classes.digit input
  return number

/-- `re.search(r"NAME\.(\d+)", stem)`: the digits at the first place where it matches. -/
def searchNumber (name : String) (stem : List Char) : Option (List Char) :=
  stem.tails.findSome? (numberHere classes name)

/-- `exit(\.|$)` at the start. -/
def exitHere (input : List Char) : Bool :=
  (literal "exit" input).any fun rest => rest.head? == some '.' || atEnd rest

/-- `re.search(r"(^|\.)exit(\.|$)", stem)`. -/
def searchExit (stem : List Char) : Bool :=
  exitHere stem || stem.tails.any fun input => (literal "." input).any exitHere

/-- `re.sub(r"^backtrace_heap\.?", "", stem)`. -/
def dropHeapName (stem : List Char) : List Char :=
  (literal "backtrace_heap" stem).elim stem fun rest => (literal "." rest).getD rest

/-- `re.sub(r"[^...]+", "_", text)`: every run of characters outside the class becomes one underscore. -/
def replaceRuns (keep : Char → Bool) (inRun : Bool) : List Char → List Char
  | [] => []
  | c :: rest =>
      if keep c then c :: replaceRuns keep false rest
      else if inRun then replaceRuns keep true rest
      else '_' :: replaceRuns keep true rest

/-- `[\w.-]`. -/
def TextClasses.inTag (c : Char) : Bool := classes.word c || c == '.' || c == '-'

/-- The name without `.txt`. -/
def stemOf (name : List Char) : List Char :=
  if ".txt".toList <:+ name then name.take (name.length - ".txt".toList.length) else name

/-- `dump_tag_parts`. -/
def dumpTagParts (logFile : Path) : DumpTagParts :=
  let stem := stemOf (basename logFile)
  let pidMatch := searchNumber classes "pid" stem
  let timeMatch := searchNumber classes "time" stem
  { kind :=
      if pidMatch.isSome || timeMatch.isSome then if searchExit stem then "exit".toList else "peak".toList
      else replaceRuns classes.inTag false (if dropHeapName stem = [] then stem else dropHeapName stem)
    pid := pidMatch.elim [] fun number => "pid".toList ++ number
    time := timeMatch.elim [] fun number => 't' :: number }

/-- The parts of a tag. -/
inductive TagKey where
  | kind
  | pid
  | time
deriving DecidableEq, Repr

def DumpTagParts.get (parts : DumpTagParts) : TagKey → List Char
  | .kind => parts.kind
  | .pid => parts.pid
  | .time => parts.time

/-- `"-".join(p[k] for k in keys if p[k])`. -/
def tagOf (keys : List TagKey) (parts : DumpTagParts) : List Char :=
  ['-'].intercalate ((keys.map parts.get).filter (· ≠ []))

/-- The keys that are tried in turn. -/
def tagLevels : List (List TagKey) := [[.kind], [.kind, .pid], [.kind, .pid, .time]]

/-- The last resort of `build_dump_tags`: a tag that was there before gets its number. -/
def numberRepeats (before : List (List Char)) : List (List Char) → List (List Char)
  | [] => []
  | tag :: later =>
      let count := before.count tag + 1
      (if count = 1 then tag else tag ++ '#' :: Nat.toDigits 10 count) :: numberRepeats (tag :: before) later

/-- `build_dump_tags`. -/
def buildDumpTags (logFiles : List Path) : List (List Char) :=
  let parts := logFiles.map (dumpTagParts classes)
  match tagLevels.find? fun keys => decide (parts.map (tagOf keys)).Nodup with
  | some keys => parts.map (tagOf keys)
  | none => numberRepeats [] (parts.map (tagOf [.kind, .pid, .time]))

/-- `tagged_output_path`. -/
def taggedOutputPath (path : Path) (tag : List Char) (multi : Bool) : Path :=
  if multi then (splitext path).1 ++ '.' :: (tag ++ (splitext path).2) else path

end MallocHook
