/-
Module: MallocHook.Core.ConfigInit
Purpose: The configuration of a process, read from its environment: the options of the tracker, and
  whether the process is only to be sampled.
Trusted boundary: translation of backtrace/src/Config.cpp; `strtol` is that of a libc with a
  64-bit `long`, in the C locale
Main exports: Environ, strtol, findExternalSampleIntervalMs
-/
import MallocHook.Core.StackTable

namespace MallocHook

open Option

/-- A C string, without its terminator. -/
abbrev CString := List Char

/-- `environ`: `none` for a null pointer, else its entries. -/
abbrev Environ := Option (List CString)

/-- Name and value of an entry, split at its first `=`. -/
def splitEntry (entry : CString) : Option (CString × CString) :=
  if '=' ∈ entry then some (entry.takeWhile (· != '='), (entry.dropWhile (· != '=')).tail) else none

variable (environ : Environ)

/-- `getenv`: the value of the first entry with that name. -/
def Environ.getenv (name : String) : Option CString :=
  (environ.getD []).findSome? fun entry =>
    (splitEntry entry).bind fun (entryName, value) => if entryName = name.toList then some value else none

/-! ### Numbers -/

/-- `isspace` of the C locale. -/
def isSpace (c : Char) : Bool := c == ' ' || (9 ≤ c.toNat && c.toNat ≤ 13)

def longMax : Int := 2 ^ 63 - 1

def longMin : Int := -2 ^ 63

/-- What `strtol` returns, how many characters it read, and whether it set `errno`. -/
structure StrtolResult where
  value : Int
  consumed : Nat
  outOfRange : Bool
deriving DecidableEq, Repr

/-- The sign in front of a number, and what follows it. -/
def splitSign : CString → Bool × CString
  | '-' :: rest => (true, rest)
  | '+' :: rest => (false, rest)
  | text => (false, text)

/-- `strtol` in base 10. Without a digit nothing is read; a value outside `long` is clamped. -/
def strtol (text : CString) : StrtolResult :=
  let (negative, body) := splitSign (text.dropWhile isSpace)
  let digits := body.takeWhile Char.isDigit
  let consumed := text.length - (body.length - digits.length)
  let magnitude : Int := Nat.ofDigitChars 10 digits 0
  let value := if negative then -magnitude else magnitude
  if digits = [] then ⟨0, 0, false⟩
  else if value > longMax then ⟨longMax, consumed, true⟩
  else if value < longMin then ⟨longMin, consumed, true⟩
  else ⟨value, consumed, false⟩

inductive ParseError where
  | unset
  | outOfRange
  | notDecimal
deriving DecidableEq, Repr

/-- The text of the error; an unset variable has none. -/
def ParseError.text : ParseError → Option String
  | .unset => none
  | .outOfRange => some "Numerical result out of range"
  | .notDecimal => some "expected a non-negative decimal integer"

/-- `ParseValueQuiet`. -/
def parseValueQuiet : Option CString → Except ParseError Nat
  | none => .error .unset
  | some value =>
      let read := strtol value
      if read.outOfRange then .error .outOfRange
      else if read.consumed = 0 ∨ read.consumed ≠ value.length ∨ read.value < 0 then .error .notDecimal
      else .ok read.value.toNat

/-- `ParseValue`: the number, and what is printed when there is none. -/
def parseValue (value : Option CString) : Except ParseError Nat × List CString :=
  let parsed := parseValueQuiet value
  (parsed,
    match value, parsed with
    | some text, .error error =>
        error.text.elim [] fun message => ["Error ".toList ++ text ++ ':' :: message.toList ++ ['\n']]
    | _, _ => [])

/-- The out-parameter of both parsers, zero unless a number was read. -/
def parsedOrZero (parsed : Except ParseError Nat) : Nat := parsed.toOption.getD 0

@[simp] theorem parsedOrZero_ok (value : Nat) : parsedOrZero (.ok value) = value := rfl

@[simp] theorem parsedOrZero_error (error : ParseError) : parsedOrZero (.error error) = 0 := rfl

/-! ### Variables -/

def kDumpPeakValueEnv : String := "DUMP_PEAK_VALUE_MB"
def kPeakSampleIntervalEnv : String := "ALLOC_HOOK_PEAK_SAMPLE_MS"
def kPeakStepEnv : String := "DUMP_PEAK_STEP_MB"
def kDumpPathEnv : String := "ALLOC_HOOK_DUMP_PREFIX"
def kCaptureModeEnv : String := "ALLOC_HOOK_CAPTURE_MODE"
def kMinSizeEnv : String := "BACKTRACE_MIN_SIZE"
def kExternalSampleIntervalSuffix : String := "AUTO_SHOW_MEM_USE_DURATION_MS"

/-- The value of an entry whose name ends in the suffix. -/
def externalValue (entry : CString) : Option CString :=
  (splitEntry entry).bind fun (name, value) =>
    if kExternalSampleIntervalSuffix.toList.isSuffixOf name then some value else none

/-- The loop of `FindExternalSampleIntervalMs`: it goes on behind an entry that has no positive value. -/
def findExternal : List CString → Option Nat
  | [] => none
  | entry :: rest =>
      match externalValue entry with
      | none => findExternal rest
      | some value =>
          match parseValueQuiet (some value) with
          | .ok interval => if interval > 0 then some interval else findExternal rest
          | .error _ => findExternal rest

/-- `FindExternalSampleIntervalMs`. -/
def findExternalSampleIntervalMs : Option Nat := environ.bind findExternal

/-! ### The two decisions -/

/-- The interval as the `unsigned` that is handed out; zero is no interval. -/
def handOut (peakSampleMs : Nat) : Bool × UInt32 :=
  if peakSampleMs = 0 then (false, 0) else (true, UInt32.ofNat peakSampleMs)

/-- `Config::ObserveOnlyRequested`: its answer and `*interval_ms`. -/
def observeOnlyRequested : Bool × UInt32 :=
  if parsedOrZero (parseValueQuiet (environ.getenv kDumpPeakValueEnv)) > 0 then (false, 0)
  else
    match parseValueQuiet (environ.getenv kPeakSampleIntervalEnv) with
    | .ok peakSampleMs =>
        if peakSampleMs > 0 ∧ parsedOrZero (parseValueQuiet (environ.getenv kPeakStepEnv)) > 0 then
          (false, 0)
        else handOut peakSampleMs
    | .error _ => (findExternalSampleIntervalMs environ).elim (false, 0) handOut

inductive StackCaptureMode where
  | fast
  | accurate
deriving DecidableEq, Repr, Inhabited

/-- `ParseCaptureMode`, with `strcasecmp` on ASCII. -/
def parseCaptureMode (value : Option CString) : StackCaptureMode :=
  if value.map (List.map Char.toLower) = some "accurate".toList then .accurate else .fast

/-- What differs between the platforms the library is built for. -/
structure Platform where
  ohos : Bool
  defaultBacktraceSignal : Int

def optionDumpOnSignal : UInt64 := 0x80

/-- All members of `Config`: those of the tracker, the unwinder, the report and the sampler. -/
structure Settings extends Config where
  backtraceDumpSignal : Int
  backtraceFrames : Nat
  backtraceDumpOnExit : Bool
  backtraceDumpPath : CString
  observedPeakSampleMs : UInt32
  captureMode : StackCaptureMode
deriving DecidableEq, Repr

def defaultBacktraceFrames : Nat := 128
def defaultBacktraceDumpPath : CString := "/data/local/tmp/trace/backtrace_heap".toList
def defaultOhosBacktraceMinSizeBytes : Nat := 40960
def kPeakRecordingMinSizeBytes : Nat := 1024
def kDefaultPeakSampleMs : Nat := 50

/-- Megabytes as bytes in a `size_t`. -/
def megabytes (count : Nat) : Nat := count * 1024 * 1024 % 2 ^ 64

/-- `record_peak`: a floor, or an explicit positive interval together with a positive step. -/
def asksForReport (peakFloorMb : Nat) (explicitSampleInterval : Bool) (peakSampleMs peakStepMb : Nat) :
    Bool :=
  decide (peakFloorMb > 0) ||
    (explicitSampleInterval && decide (peakSampleMs > 0) && decide (peakStepMb > 0))

/-- `Config::Init`: the settings, and what it prints about variables it cannot read. -/
def Settings.init (platform : Platform) (environ : Environ) : Settings × List CString :=
  let dumpPath := environ.getenv kDumpPathEnv
  let platformMinSize := if platform.ohos then defaultOhosBacktraceMinSizeBytes else 0
  let (explicitMinSize, minSizePrinted) := parseValue (environ.getenv kMinSizeEnv)
  let minSizeBytes := explicitMinSize.toOption.getD platformMinSize
  let (explicitSampleInterval, intervalPrinted) := parseValue (environ.getenv kPeakSampleIntervalEnv)
  let adoptedSampleInterval :=
    if explicitSampleInterval.isOk then none else findExternalSampleIntervalMs environ
  let peakSampleMs := (explicitSampleInterval.toOption.or adoptedSampleInterval).getD 0
  let (floor, floorPrinted) := parseValue (environ.getenv kDumpPeakValueEnv)
  let peakFloorMb := parsedOrZero floor
  let (step, stepPrinted) := parseValue (environ.getenv kPeakStepEnv)
  let peakStepMb := parsedOrZero step
  let recordPeak := asksForReport peakFloorMb explicitSampleInterval.isOk peakSampleMs peakStepMb
  let options := optionBacktraceSpecificSizes ||| optionTrackAllocs
  ({  options :=
        (if recordPeak then options ||| optionRecordMemoryPeak ||| optionBacktrace else options) |||
          optionDumpOnSignal
      backtraceMinSizeBytes :=
        -- a filter of the platform's own is not relaxed
        if recordPeak && !explicitMinSize.isOk && decide (minSizeBytes = 0) then kPeakRecordingMinSizeBytes
        else minSizeBytes
      backtraceMaxSizeBytes := 2 ^ 64 - 1
      backtraceDumpPeakVal := megabytes peakFloorMb
      peakRecordStepBytes := megabytes peakStepMb
      peakRetention := if peakFloorMb > 0 then .firstCrossing else .chaseMax
      backtraceDumpSignal := platform.defaultBacktraceSignal
      backtraceFrames := defaultBacktraceFrames
      backtraceDumpOnExit := recordPeak
      backtraceDumpPath := if dumpPath.getD [] = [] then defaultBacktraceDumpPath else dumpPath.getD []
      observedPeakSampleMs :=
        if recordPeak then
          if explicitSampleInterval.isOk || adoptedSampleInterval.isSome then UInt32.ofNat peakSampleMs
          else UInt32.ofNat kDefaultPeakSampleMs
        else 0
      captureMode := parseCaptureMode (environ.getenv kCaptureModeEnv) },
    minSizePrinted ++ intervalPrinted ++ floorPrinted ++ stepPrinted)

/-! ### The cadence, in the terms of the environment -/

/-- The numbers that variables of host frameworks publish, in the order of the environment. -/
def publishedIntervals : List Nat :=
  (environ.getD []).filterMap fun entry =>
    (externalValue entry).bind fun value => (parseValueQuiet (some value)).toOption

/-- The explicit interval if it parses, else the first positive number a framework publishes, else none. -/
def effectiveCadence : Nat :=
  match parseValueQuiet (environ.getenv kPeakSampleIntervalEnv) with
  | .ok interval => interval
  | .error _ => ((publishedIntervals environ).find? (0 < ·)).getD 0

/-- The loop over the environment finds the first positive number that is published. -/
theorem findExternalSampleIntervalMs_eq :
    findExternalSampleIntervalMs environ = (publishedIntervals environ).find? (0 < ·) := by
  cases environ with
  | none => rfl
  | some entries =>
      simp only [findExternalSampleIntervalMs, bind_some, publishedIntervals, getD_some]
      induction entries with
      | nil => rfl
      | cons entry rest ih =>
          rw [findExternal, List.filterMap_cons]
          cases externalValue entry with
          | none => exact ih
          | some value =>
              cases parsed : parseValueQuiet (some value) with
              | error error => simpa only [parsed, bind_some, Except.toOption] using ih
              | ok interval =>
                  simp only [parsed, bind_some, Except.toOption, List.find?_cons]
                  by_cases positive : interval > 0
                  · simp only [positive, if_true, decide_true]
                  · simpa only [positive, if_false, decide_false, Except.toOption] using ih

end MallocHook
