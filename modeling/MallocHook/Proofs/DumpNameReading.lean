/-
Module: MallocHook.Proofs.DumpNameReading
Purpose: What the analysis script reads from the names that the library writes. It looks for `pid.` and
  `time.`, so only a directory too long for the buffer can be read, in place of the name.
Trusted boundary: NumberIn, ExitIn, HeapReport, HeapReport.ReadAs, TagsSeparate
Main exports: searchExit_iff, dump_names_read_iff
-/
import Mathlib.Data.List.Chain
import MallocHook.Core.DumpNames
import MallocHook.Lib.Scanf

namespace MallocHook

open PosixPath WireFormat List

/-! ### The characters of a name -/

/-- The characters that a tag may have: all of them are ASCII, and a slash is none of them. -/
def tagChar (c : Char) : Bool := c.isAlphanum || c == '_' || c == '.' || c == '-'

theorem toNat_lt_of_tagChar {c : Char} (plain : tagChar c) : c.toNat < 128 := by
  rw [tagChar] at plain
  simp only [Bool.or_eq_true, beq_iff_eq] at plain
  rcases plain with ((letter | rfl) | rfl) | rfl
  · have ranges : ((decide (c.val ≥ 'A'.val ∧ c.val ≤ 'Z'.val) ||
      decide (c.val ≥ 'a'.val) && decide (c.val ≤ 'z'.val)) ||
        decide (c.val ≥ '0'.val) && decide (c.val ≤ '9'.val)) = true := letter
    simp only [Bool.or_eq_true, Bool.and_eq_true, decide_eq_true_eq, UInt32.le_iff_toNat_le] at ranges
    rcases ranges with (upper | lower) | digit
    · exact Nat.lt_of_le_of_lt upper.2 (by decide)
    · exact Nat.lt_of_le_of_lt lower.2 (by decide)
    · exact Nat.lt_of_le_of_lt digit.2 (by decide)
  all_goals decide

theorem inTag_of_tagChar (classes : TextClasses) {c : Char} (plain : tagChar c) : classes.inTag c := by
  rw [TextClasses.inTag, classes.word_ascii c (toNat_lt_of_tagChar plain)]
  exact plain

theorem decimal_ne_nil (value : Int) : decimal value ≠ [] := by
  simp [decimal, Nat.toDigits_ne_nil]

theorem mem_decimal {value : Int} {c : Char} (member : c ∈ decimal value) : c = '-' ∨ c.isDigit := by
  rcases mem_append.1 member with sign | digit
  · split at sign
    · exact .inl (mem_singleton.1 sign)
    · cases sign
  · exact .inr (Nat.isDigit_of_mem_toDigits (by decide) (by decide) digit)

theorem decimal_injective : Function.Injective decimal := by
  have digits := Scanf.toDigits_injective (by decide : 2 ≤ 10) (by decide)
  intro one two same
  by_cases oneNegative : one < 0 <;> by_cases twoNegative : two < 0 <;>
    simp only [decimal, oneNegative, twoNegative, if_true, if_false, nil_append, singleton_append] at same
  · have := digits (List.cons.inj same).2
    omega
  · exact absurd (same ▸ mem_cons_self) (Scanf.notMem_toDigits _ rfl)
  · exact absurd (same ▸ mem_cons_self) (Scanf.notMem_toDigits _ rfl)
  · have := digits same
    omega

/-! ### The names that are written -/

/-- A report of the library with a dump prefix whose base name is `backtrace_heap`. -/
structure HeapReport where
  kind : ReportKind
  /-- The dump prefix up to its base name. -/
  directory : Bytes
  closed : directory = [] ∨ directory.getLast? = some 47
  pid : Int
  time : Int

namespace HeapReport

variable (report : HeapReport)

def dumpPrefix : Bytes := report.directory ++ asciiBytes "backtrace_heap"

def fileName : Bytes := reportFileName report.kind report.dumpPrefix report.pid report.time

/-- The bytes of the name that the buffer has room for. -/
def room : Nat := report.kind.fileNameBytes - 1

/-- The base name before it is cut, without its extension. -/
def stem : List Char := "backtrace_heap".toList ++ '.' :: reportStem report.kind report.pid report.time

/-- The base name before it is cut. -/
def name : List Char := report.stem ++ ".txt".toList

theorem fileName_eq :
    report.fileName = (report.directory ++ report.name.map fun c => UInt8.ofNat c.toNat).take
    report.room := by
  unfold fileName reportFileName dumpPrefix name stem room asciiBytes
  generalize "backtrace_heap".toList = heap
  generalize ".txt".toList = extension
  simp only [map_append, append_assoc, cons_append, map_cons]

theorem tagChar_of_mem_name : ∀ c ∈ report.name, tagChar c := by
  have word : ∀ c ∈ report.kind.word, tagChar c := by
    refine all_eq_true.1 ?_
    cases report.kind <;> decide
  have number (value : Int) : ∀ c ∈ decimal value, tagChar c := by
    intro c member
    rcases mem_decimal member with rfl | digit
    · decide
    · simp [tagChar, Char.isAlphanum, digit]
  have heap : ∀ c ∈ "backtrace_heap".toList, tagChar c := all_eq_true.1 (by decide)
  have process : ∀ c ∈ ".pid_".toList, tagChar c := all_eq_true.1 (by decide)
  have moment : ∀ c ∈ ".time_".toList, tagChar c := all_eq_true.1 (by decide)
  have extension : ∀ c ∈ ".txt".toList, tagChar c := all_eq_true.1 (by decide)
  unfold name stem reportStem
  refine forall_mem_append.2 ⟨forall_mem_append.2 ⟨heap, ?_⟩, extension⟩
  refine forall_mem_cons.2 ⟨by decide, ?_⟩
  refine forall_mem_append.2 ⟨forall_mem_append.2 ⟨?_, moment⟩, number _⟩
  exact forall_mem_append.2 ⟨forall_mem_append.2 ⟨word, process⟩, number _⟩

end HeapReport

/-! ### Where the patterns match -/

/-- The first place in the text where the name stands with a dot and a digit is followed by these digits. -/
def NumberIn (classes : TextClasses) (name : String) (text number : List Char) : Prop :=
  ∃ front back, text = front ++ ((name ++ ".").toList ++ (number ++ back)) ∧
    number ≠ [] ∧ (∀ c ∈ number, classes.digit c) ∧ (∀ c ∈ back.head?, ¬ classes.digit c) ∧
    ∀ front' c back', text = front' ++ ((name ++ ".").toList ++ c :: back') → classes.digit c →
      front.length ≤ front'.length

/-- One of the parts between the dots of the text is `exit`. At the end a line feed may follow it. -/
def ExitIn (text : List Char) : Prop :=
  ∃ front back, text = front ++ ("exit".toList ++ back) ∧ (front = [] ∨ front.getLast? = some '.') ∧
    (back.head? = some '.' ∨ back = [] ∨ back = ['\n'])

section

variable {classes : TextClasses} {name : String} {text number : List Char}

theorem literal_eq_some_iff {rest : List Char} :
    literal name text = some rest ↔ text = name.toList ++ rest := by
  unfold literal
  constructor
  · split
    · next begins =>
        rintro ⟨⟩
        exact (prefix_iff_eq_append.1 begins).symm
    · rintro ⟨⟩
  · rintro rfl
    simp

theorem numberHere_eq_some_iff : numberHere classes name text = some number ↔
    ∃ back, text = (name ++ ".").toList ++ (number ++ back) ∧ number ≠ [] ∧ (∀ c ∈ number, classes.digit c) ∧
      ∀ c ∈ back.head?, ¬ classes.digit c := by
  simp only [numberHere, runOf, bind, Option.bind_eq_some_iff, literal_eq_some_iff]
  constructor
  · rintro ⟨rest, rfl, ⟨run, after⟩, digits, ⟨⟩⟩
    split at digits <;> cases digits
    next nonempty =>
    refine ⟨_, by rw [takeWhile_append_dropWhile], nonempty, fun c member => mem_takeWhile_imp member, ?_⟩
    intro c first
    have := head?_dropWhile_not classes.digit rest
    rw [first] at this
    simpa using this
  · rintro ⟨back, rfl, nonempty, digits, stops⟩
    have stop : back.takeWhile classes.digit = [] := by
      cases back with
      | nil => rfl
      | cons c back => exact takeWhile_cons_of_neg (stops c rfl)
    have run : (number ++ back).takeWhile classes.digit = number := by
      rw [takeWhile_append_of_pos digits, stop, append_nil]
    exact ⟨_, rfl, (number, _), by rw [run, if_neg nonempty], rfl⟩

theorem searchNumber_eq_some_iff :
    searchNumber classes name text = some number ↔ NumberIn classes name text number := by
  induction text with
  | nil =>
      rw [searchNumber, tails, findSome?_singleton, numberHere_eq_some_iff]
      refine iff_of_false ?_ ?_
      · simp
      · simp [NumberIn]
  | cons c rest ih =>
      have step : searchNumber classes name (c :: rest) =
          (numberHere classes name (c :: rest)).or (searchNumber classes name rest) := by
        rw [searchNumber, tails, findSome?_cons]
        cases numberHere classes name (c :: rest) <;> rfl
      rw [step]
      cases here : numberHere classes name (c :: rest) with
      | some first =>
          obtain ⟨back', same', nonempty', digits', stops'⟩ := numberHere_eq_some_iff.1 here
          rw [Option.some_or, ← here, numberHere_eq_some_iff]
          constructor
          · rintro ⟨back, same, nonempty, digits, stops⟩
            exact ⟨[], back, same, nonempty, digits, stops, fun _ _ _ _ _ => Nat.zero_le _⟩
          · rintro ⟨front, back, same, nonempty, digits, stops, leftmost⟩
            obtain ⟨d, number', rfl⟩ := exists_cons_of_ne_nil nonempty'
            have empty := leftmost [] d (number' ++ back') same' (digits' d mem_cons_self)
            obtain rfl : front = [] := length_eq_zero_iff.1 (Nat.le_zero.1 empty)
            exact ⟨back, same, nonempty, digits, stops⟩
      | none =>
          rw [Option.none_or, ih]
          constructor
          · rintro ⟨front, back, rfl, nonempty, digits, stops, leftmost⟩
            refine ⟨c :: front, back, rfl, nonempty, digits, stops, fun front' d back' same digit => ?_⟩
            cases front' with
            | nil =>
                rw [same, nil_append, numberHere, literal_append] at here
                simp [runOf, digit] at here
            | cons c' front' => exact Nat.succ_le_succ (leftmost front' d back' (List.cons.inj same).2 digit)
          · rintro ⟨front, back, same, nonempty, digits, stops, leftmost⟩
            cases front with
            | nil =>
                have found := numberHere_eq_some_iff.2 ⟨back, same, nonempty, digits, stops⟩
                rw [here] at found
                cases found
            | cons c' front =>
                obtain ⟨rfl, rfl⟩ := List.cons.inj same
                refine ⟨front, back, rfl, nonempty, digits, stops, fun front' d back' same' digit => ?_⟩
                exact Nat.le_of_succ_le_succ (leftmost (c :: front') d back' (congrArg (c :: ·) same') digit)

theorem searchExit_iff : searchExit text ↔ ExitIn text := by
  have here (text : List Char) : exitHere text ↔
      ∃ back, text = "exit".toList ++ back ∧ (back.head? = some '.' ∨ back = [] ∨ back = ['\n']) := by
    simp only [exitHere, Option.any_eq_true, literal_eq_some_iff, Bool.or_eq_true, beq_iff_eq, atEnd]
  simp only [searchExit, Bool.or_eq_true, any_eq_true, Option.any_eq_true, here, mem_tails]
  constructor
  · rintro (⟨back, rfl, ends⟩ | ⟨input, ⟨front, rfl⟩, rest, isDot, back, rfl, ends⟩)
    · exact ⟨[], back, rfl, .inl rfl, ends⟩
    · rw [literal_eq_some_iff.1 isDot]
      exact ⟨front ++ ['.'], back, by simp, .inr (by simp), ends⟩
  · rintro ⟨front, back, rfl, rfl | last, ends⟩
    · exact .inl ⟨back, rfl, ends⟩
    · obtain ⟨front, rfl⟩ := List.getLast?_eq_some_iff.1 last
      refine .inr ⟨'.' :: ("exit".toList ++ back), ⟨front, by simp⟩, _, literal_append "." _,
        back, rfl, ends⟩

end
/-! ### Neither pattern matches -/

/-- A dot behind `d` or `e`, as both patterns need it, does not occur. -/
def DotApart (before after : Char) : Prop := after = '.' → before ≠ 'd' ∧ before ≠ 'e'

theorem isChain_of_undotted {text : List Char} (undotted : '.' ∉ text) : text.IsChain DotApart := by
  refine (pairwise_of_forall_mem_list ?_).isChain
  rintro before - after member rfl
  exact absurd member undotted

theorem isChain_append_dot {front back : List Char} (chain : front.IsChain DotApart)
    (last : front.getLast? ≠ some 'd' ∧ front.getLast? ≠ some 'e') (undotted : '.' ∉ back) :
    (front ++ '.' :: back).IsChain DotApart := by
  have behind : ('.' :: back).IsChain DotApart := by
    cases back with
    | nil => exact .singleton _
    | cons c back =>
        refine .cons_cons ?_ (isChain_of_undotted undotted)
        rintro rfl
        exact absurd mem_cons_self undotted
  refine isChain_append.2 ⟨chain, behind, ?_⟩
  intro c isLast next isDot _
  exact ⟨fun same => last.1 (same ▸ isLast), fun same => last.2 (same ▸ isLast)⟩

theorem notMem_decimal (value : Int) {c : Char} (other : ¬(c = '-' ∨ c.isDigit)) : c ∉ decimal value :=
  fun member => other (mem_decimal member)

theorem getLast?_append_decimal (front : List Char) (value : Int) :
    (front ++ decimal value).getLast? ≠ some 'd' ∧ (front ++ decimal value).getLast? ≠ some 'e' := by
  rw [List.getLast?_append_of_ne_nil _ (decimal_ne_nil value)]
  constructor
  · exact fun isLast => notMem_decimal value (by decide) (mem_of_getLast? isLast)
  · exact fun isLast => notMem_decimal value (by decide) (mem_of_getLast? isLast)

/-- The dots of a name, with what stands between them. -/
theorem HeapReport.name_eq (report : HeapReport) :
    report.name =
      (("backtrace_heap".toList ++ '.' :: report.kind.word) ++ '.' ::
      ("pid_".toList ++ decimal report.pid) ++
        '.' :: ("time_".toList ++ decimal report.time)) ++ '.' :: "txt".toList := by
  unfold name stem reportStem
  rw [show ".pid_".toList = '.' :: "pid_".toList by decide, show ".time_".toList = '.' ::
    "time_".toList by decide,
    show ".txt".toList = '.' :: "txt".toList by decide]
  generalize "backtrace_heap".toList = heap
  generalize "pid_".toList = pid
  generalize "time_".toList = time
  generalize "txt".toList = extension
  simp only [append_assoc, cons_append]

theorem HeapReport.isChain_name (report : HeapReport) : report.name.IsChain DotApart := by
  have kind : ("backtrace_heap".toList ++ '.' :: report.kind.word).IsChain DotApart := by
    refine isChain_append_dot (isChain_of_undotted (by decide)) (by decide) ?_
    cases report.kind <;> decide
  have kindLast : ("backtrace_heap".toList ++ '.' :: report.kind.word).getLast? ≠ some 'd' ∧
      ("backtrace_heap".toList ++ '.' :: report.kind.word).getLast? ≠ some 'e' := by
    cases report.kind <;> decide
  have number {text : List Char} (value : Int) (undotted : '.' ∉ text) : '.' ∉ text ++ decimal value := by
    rw [mem_append]
    exact not_or.2 ⟨undotted, notMem_decimal value (by decide)⟩
  have numberLast (front text : List Char) (value : Int) :
      (front ++ '.' :: (text ++ decimal value)).getLast? ≠ some 'd' ∧
        (front ++ '.' :: (text ++ decimal value)).getLast? ≠ some 'e' := by
    rw [← cons_append, ← append_assoc]
    exact getLast?_append_decimal _ value
  rw [report.name_eq]
  refine isChain_append_dot (isChain_append_dot (isChain_append_dot kind kindLast ?_) ?_ ?_) ?_ (by decide)
  · exact number _ (by decide)
  · exact numberLast _ _ _
  · exact number _ (by decide)
  · exact numberLast _ _ _

variable {classes : TextClasses}

theorem HeapReport.searchNumber_eq_none (report : HeapReport) (classes : TextClasses) {stem : List Char}
    (part : stem <:+: report.name) :
    searchNumber classes "pid" stem = none ∧ searchNumber classes "time" stem = none := by
  have unmatched {name : String} {c : Char} (ends : [c, '.'] <:+: (name ++ ".").toList)
    (letter : c = 'd' ∨ c = 'e') : searchNumber classes name stem = none := by
    rw [Option.eq_none_iff_forall_ne_some]
    intro number found
    obtain ⟨front, back, rfl, -⟩ := searchNumber_eq_some_iff.1 found
    have named : (name ++ ".").toList <:+: report.name := (infix_append' _ _ _).trans part
    have chain := report.isChain_name.infix (ends.trans named)
    have apart : DotApart c '.' := isChain_pair.1 chain
    have := apart rfl
    grind
  exact ⟨unmatched (c := 'd') (by decide) (.inl rfl), unmatched (c := 'e') (by decide) (.inr rfl)⟩

/-! ### What is read -/

section

variable (fs : FsDecoding)

theorem FsDecoding.decode_text (front : Bytes) {text : List Char} (ascii : ∀ c ∈ text, c.toNat < 128) :
    fs.decode (front ++ text.map fun c => UInt8.ofNat c.toNat) = fs.decode front ++ text := by
  induction text generalizing front with
  | nil => rw [map_nil, append_nil, append_nil]
  | cons c text ih =>
      have small := ascii c mem_cons_self
      have byte : (UInt8.ofNat c.toNat).toNat = c.toNat :=
        UInt8.toNat_ofNat_of_lt' (Nat.lt_trans small (by decide))
      have rest := ih [] fun c member => ascii c (mem_cons_of_mem _ member)
      rw [nil_append, fs.decode_nil, nil_append] at rest
      rw [map_cons, fs.decode_ascii _ _ _ (UInt8.lt_iff_toNat_lt.2 (by rw [byte]; exact small)), rest, byte,
        Char.ofNat_toNat]

theorem FsDecoding.decode_closed {directory : Bytes}
    (closed : directory = [] ∨ directory.getLast? = some 47) :
    fs.decode directory = [] ∨ (fs.decode directory).getLast? = some '/' := by
  rcases closed with rfl | last
  · exact .inl fs.decode_nil
  · obtain ⟨front, rfl⟩ := List.getLast?_eq_some_iff.1 last
    right
    rw [fs.decode_ascii front 47 [] (by decide), fs.decode_nil]
    simp

end

theorem stemOf_isPrefix (name : List Char) : stemOf name <+: name := by
  unfold stemOf
  split
  · exact take_prefix _ _
  · exact prefix_refl _

theorem stemOf_append (stem : List Char) : stemOf (stem ++ ".txt".toList) = stem := by
  rw [stemOf, if_pos (suffix_append _ _), length_append, Nat.add_sub_cancel, take_left]

theorem dropHeapName_append (rest : List Char) :
    dropHeapName ("backtrace_heap".toList ++ '.' :: rest) = rest := by
  have dot : literal "." ('.' :: rest) = some rest := literal_append "." rest
  rw [dropHeapName, literal_append, Option.elim_some, dot, Option.getD_some]

theorem replaceRuns_of_forall {keep : Char → Bool} {inRun : Bool} {text : List Char}
    (kept : ∀ c ∈ text, keep c) : replaceRuns keep inRun text = text := by
  induction text generalizing inRun with
  | nil => rfl
  | cons c text ih =>
      obtain ⟨head, tail⟩ := forall_mem_cons.1 kept
      rw [replaceRuns, if_pos head, ih tail]

namespace HeapReport

variable (report : HeapReport) (classes : TextClasses) (fs : FsDecoding)

/-- Read from the name: the process, the time, and the kind `exit` exactly for the report at exit. -/
def ReadAs (path : Path) : Prop :=
  (dumpTagParts classes path).pid = "pid".toList ++ decimal report.pid ∧
    (dumpTagParts classes path).time = 't' :: decimal report.time ∧
    ((dumpTagParts classes path).kind = "exit".toList ↔ report.kind = .exit)

instance (path : Path) : Decidable (report.ReadAs classes path) :=
    inferInstanceAs (Decidable (_ ∧ _ ∧ (_ ↔ _)))

/-- The text has the number of the process behind its first `pid.`, the time behind its first `time.`, and
a part `exit` exactly for the report at exit. -/
def SpeltIn (text : List Char) : Prop :=
  NumberIn classes "pid" text (decimal report.pid) ∧ NumberIn classes "time" text (decimal report.time) ∧
    (ExitIn text ↔ report.kind = .exit)

variable {report}

/-- With room for the directory, what follows it is a part of the base name. -/
theorem decode_fileName (short : report.directory.length ≤ report.room) :
    basename (fs.decode report.fileName) = report.name.take (report.room - report.directory.length) := by
  have plain (c : Char) (member : c ∈ report.name.take (report.room - report.directory.length)) :
    tagChar c :=
    report.tagChar_of_mem_name c (mem_of_mem_take member)
  have ascii := fun c member => toNat_lt_of_tagChar (plain c member)
  have unslashed : '/' ∉ report.name.take (report.room - report.directory.length) := by
    intro member
    cases plain '/' member
  rw [report.fileName_eq, take_append, take_of_length_le short, ← map_take, fs.decode_text _ ascii,
    basename_append (fs.decode_closed report.closed) unslashed]

theorem fileName_of_long (long : report.room < report.directory.length) :
    report.fileName = report.directory.take report.room := by
  rw [report.fileName_eq, take_append_of_le_length long.le]

theorem pid_of_short (short : report.directory.length ≤ report.room) :
    (dumpTagParts classes (fs.decode report.fileName)).pid = [] := by
  have part : stemOf (basename (fs.decode report.fileName)) <:+: report.name := by
    rw [decode_fileName fs short]
    exact IsPrefix.isInfix <| (stemOf_isPrefix _).trans <| take_prefix _ _
  simp only [dumpTagParts, (report.searchNumber_eq_none classes part).1, Option.elim_none]

/-- The stem of a name is read as it was written exactly if it spells the process, the time and the kind. -/
theorem readAs_iff_spelt {path : Path} :
    report.ReadAs classes path ↔ report.SpeltIn classes (stemOf (basename path)) := by
  simp only [ReadAs, SpeltIn, ← searchNumber_eq_some_iff, ← searchExit_iff, dumpTagParts]
  cases searchNumber classes "pid" (stemOf (basename path)) with
  | none => simp
  | some pid =>
      cases searchNumber classes "time" (stemOf (basename path)) with
      | none => simp
      | some time => cases searchExit (stemOf (basename path)) <;> simp

/-- A name is read as written exactly if the buffer has no room for its directory, and the part that fits
ends with a component that spells the report. -/
theorem readAs_iff :
    report.ReadAs classes (fs.decode report.fileName) ↔
      report.room < report.directory.length ∧
        report.SpeltIn classes (stemOf (basename (fs.decode (report.directory.take report.room)))) := by
  by_cases long : report.room < report.directory.length
  · simp only [fileName_of_long long, long, true_and, readAs_iff_spelt]
  · refine iff_of_false ?_ fun both => long both.1
    rintro ⟨pid, -⟩
    rw [pid_of_short classes fs (Nat.le_of_not_lt long)] at pid
    cases pid

/-- A name that fits is read as a kind alone. -/
theorem dumpTagParts_of_fits (fits : report.directory.length + report.name.length ≤ report.room) :
    dumpTagParts classes (fs.decode report.fileName) =
      { kind := reportStem report.kind report.pid report.time, pid := [], time := [] } := by
  have base : basename (fs.decode report.fileName) = report.name := by
    rw [decode_fileName fs (by omega), take_of_length_le (by omega)]
  have stem : stemOf report.name = report.stem := stemOf_append _
  have part : report.stem <:+: report.name := (prefix_append _ _).isInfix
  obtain ⟨pidUnmatched, timeUnmatched⟩ := report.searchNumber_eq_none classes part
  have short : dropHeapName report.stem = reportStem report.kind report.pid report.time :=
    dropHeapName_append _
  have nonempty : reportStem report.kind report.pid report.time ≠ [] :=
    append_ne_nil_of_right_ne_nil _ (decimal_ne_nil _)
  have kept : ∀ c ∈ reportStem report.kind report.pid report.time, classes.inTag c := by
    intro c member
    refine inTag_of_tagChar classes (report.tagChar_of_mem_name c ?_)
    exact mem_append_left _ (mem_append_right _ (mem_cons_of_mem _ member))
  simp only [dumpTagParts, base, stem, pidUnmatched, timeUnmatched, short, if_neg nonempty,
    replaceRuns_of_forall kept,
    Option.isSome_none, Bool.or_self, Bool.false_eq_true, if_false, Option.elim_none]

end HeapReport

/-! ### Tags of the names that are read -/

/-- The parts are all there, and the dash that joins them is in none. -/
def DumpTagParts.Plain (parts : DumpTagParts) : Prop := ∀ key, parts.get key ≠ [] ∧ '-' ∉ parts.get key

theorem searchNumber_digits {name : String} {stem number : List Char}
    (found : searchNumber classes name stem = some number) : ∀ c ∈ number, classes.digit c := by
  obtain ⟨_, _, -, -, digits, -⟩ := searchNumber_eq_some_iff.1 found
  exact digits

theorem notMem_of_digits {number : List Char} (digits : ∀ c ∈ number, classes.digit c) {c : Char}
    (ascii : c.toNat < 128) (other : c.isDigit = false) : c ∉ number := by
  intro member
  have digit := digits c member
  rw [classes.digit_ascii c ascii, other] at digit
  cases digit

theorem dumpTagParts_plain {path : Path} (pid : (dumpTagParts classes path).pid ≠ [])
    (time : (dumpTagParts classes path).time ≠ []) : (dumpTagParts classes path).Plain := by
  cases pidFound : searchNumber classes "pid" (stemOf (basename path)) with
  | none => exact absurd (by simp only [dumpTagParts, pidFound, Option.elim_none]) pid
  | some process =>
      cases timeFound : searchNumber classes "time" (stemOf (basename path)) with
      | none => exact absurd (by simp only [dumpTagParts, timeFound, Option.elim_none]) time
      | some moment =>
          have processDashless := notMem_of_digits (searchNumber_digits pidFound) (c := '-') (by decide) rfl
          have momentDashless := notMem_of_digits (searchNumber_digits timeFound) (c := '-') (by decide) rfl
          intro key
          cases key with
          | kind =>
              simp only [DumpTagParts.get, dumpTagParts, pidFound, Option.isSome_some, Bool.true_or, if_true]
              split <;> decide
          | pid =>
              simp only [DumpTagParts.get, dumpTagParts, pidFound, Option.elim_some, mem_append, not_or]
              exact ⟨append_ne_nil_of_left_ne_nil (by decide) _, by decide, processDashless⟩
          | time =>
              simp only [DumpTagParts.get, dumpTagParts, timeFound, Option.elim_some, mem_cons, not_or]
              exact ⟨cons_ne_nil _ _, by decide, momentDashless⟩

/-- Two tags are the same exactly if the parts are. -/
theorem tagOf_inj {one two : DumpTagParts} (onePlain : one.Plain) (twoPlain : two.Plain) {keys : List TagKey}
    (nonempty : keys ≠ []) : tagOf keys one = tagOf keys two ↔ ∀ key ∈ keys, one.get key = two.get key := by
  have split {parts : DumpTagParts} (plain : parts.Plain) : (tagOf keys parts).splitOn '-' =
    keys.map parts.get := by
    have all : (keys.map parts.get).filter (· ≠ []) = keys.map parts.get := by
      rw [filter_eq_self]
      rintro part member
      obtain ⟨key, -, rfl⟩ := mem_map.1 member
      simpa using (plain key).1
    rw [tagOf, all]
    refine splitOn_intercalate '-' ?_ (by simpa using nonempty)
    intro part member
    obtain ⟨key, -, rfl⟩ := mem_map.1 member
    exact (plain key).2
  rw [← map_inj_left]
  constructor
  · intro same
    rw [← split onePlain, same, split twoPlain]
  · intro same
    simp only [tagOf, same]

/-- Some level tells all tags apart and the tags are those of such a level, or those of the last level are
numbered. -/
theorem buildDumpTags_cases (classes : TextClasses) (logFiles : List Path) :
    (∃ keys ∈ tagLevels, ((logFiles.map (dumpTagParts classes)).map (tagOf keys)).Nodup ∧
      buildDumpTags classes logFiles = (logFiles.map (dumpTagParts classes)).map (tagOf keys)) ∨
    (∀ keys ∈ tagLevels, ¬ ((logFiles.map (dumpTagParts classes)).map (tagOf keys)).Nodup) ∧
      buildDumpTags classes logFiles =
        numberRepeats [] ((logFiles.map (dumpTagParts classes)).map (tagOf [.kind, .pid, .time])) := by
  cases found : tagLevels.find? fun keys => decide
    ((logFiles.map (dumpTagParts classes)).map (tagOf keys)).Nodup with
  | some keys =>
      have distinct := List.find?_some found
      exact .inl ⟨keys, mem_of_find?_eq_some found,
        of_decide_eq_true distinct, by simp only [buildDumpTags, found]⟩
  | none =>
      refine .inr ⟨fun keys level distinct => ?_, by simp only [buildDumpTags, found]⟩
      exact List.find?_eq_none.1 found keys level (decide_eq_true distinct)

section

variable (classes : TextClasses) (fs : FsDecoding)

/-- What is read from the name of a report. -/
def HeapReport.parts (report : HeapReport) : DumpTagParts := dumpTagParts classes (fs.decode report.fileName)

/-- Reports that differ in the kind, the process or the time get different tags, made of some of these
parts, that differ exactly where the parts do. -/
def TagsSeparate (reports : List HeapReport) : Prop :=
  (reports.Pairwise fun one two => one.kind ≠ two.kind ∨ one.pid ≠ two.pid ∨ one.time ≠ two.time) →
    ∃ keys ∈ tagLevels,
      buildDumpTags classes (reports.map fun report => fs.decode report.fileName) =
        reports.map (fun report => tagOf keys (report.parts classes fs)) ∧
      (reports.map fun report => tagOf keys (report.parts classes fs)).Nodup ∧
      ∀ one ∈ reports, ∀ two ∈ reports,
        (tagOf keys (one.parts classes fs) = tagOf keys (two.parts classes fs) ↔
          ∀ key ∈ keys, (one.parts classes fs).get key = (two.parts classes fs).get key)

variable {classes fs} {reports : List HeapReport}

theorem HeapReport.ReadAs.plain {report : HeapReport} {path : Path} (read : report.ReadAs classes path) :
    (dumpTagParts classes path).Plain := by
  obtain ⟨pid, time, -⟩ := read
  refine dumpTagParts_plain ?_ ?_
  · rw [pid]
    exact append_ne_nil_of_left_ne_nil (by decide) _
  · rw [time]
    exact cons_ne_nil _ _

/-- The three parts are enough to tell apart what is written in them. -/
theorem HeapReport.ReadAs.same {one two : HeapReport} (oneRead : one.ReadAs classes (fs.decode one.fileName))
    (twoRead : two.ReadAs classes (fs.decode two.fileName))
    (same : ∀ key, (one.parts classes fs).get key = (two.parts classes fs).get key) :
    one.kind = two.kind ∧ one.pid = two.pid ∧ one.time = two.time := by
  have kind : (one.parts classes fs).kind = (two.parts classes fs).kind := same .kind
  have pid : (one.parts classes fs).pid = (two.parts classes fs).pid := same .pid
  have time : (one.parts classes fs).time = (two.parts classes fs).time := same .time
  simp only [HeapReport.parts] at kind pid time
  obtain ⟨onePid, oneTime, oneKind⟩ := oneRead
  obtain ⟨twoPid, twoTime, twoKind⟩ := twoRead
  rw [onePid, twoPid, append_cancel_left_eq] at pid
  rw [oneTime, twoTime] at time
  rw [kind, twoKind] at oneKind
  refine ⟨?_, decimal_injective pid, decimal_injective (List.cons.inj time).2⟩
  cases oneIs : one.kind <;> cases twoIs : two.kind <;> simp_all

theorem tagsSeparate_of_readAs
    (read : ∀ report ∈ reports, report.ReadAs classes (fs.decode report.fileName)) :
    TagsSeparate classes fs reports := by
  intro differ
  have injective {keys : List TagKey} (level : keys ∈ tagLevels) : ∀ one ∈ reports, ∀ two ∈ reports,
      (tagOf keys (one.parts classes fs) = tagOf keys (two.parts classes fs) ↔
        ∀ key ∈ keys, (one.parts classes fs).get key = (two.parts classes fs).get key) := by
    intro one oneMember two twoMember
    refine tagOf_inj (read one oneMember).plain (read two twoMember).plain ?_
    rintro rfl
    exact absurd level (by decide)
  -- the last level is enough, so the search for a level succeeds
  have enough : (reports.map fun report => tagOf [.kind, .pid, .time] (report.parts classes fs)).Nodup := by
    refine pairwise_map.2 (differ.imp_of_mem ?_)
    intro one two oneMember twoMember differ same
    have parts := (injective (by decide) one oneMember two twoMember).1 same
    have := (read one oneMember).same (read two twoMember) fun key => parts key (by cases key <;> decide)
    grind
  have tags (keys : List TagKey) :
      ((reports.map fun report => fs.decode report.fileName).map (dumpTagParts classes)).map (tagOf keys) =
        reports.map fun report => tagOf keys (report.parts classes fs) := by
    simp only [map_map, Function.comp_def, HeapReport.parts]
  rcases buildDumpTags_cases classes (reports.map fun report => fs.decode report.fileName) with
    ⟨keys, level, distinct, result⟩ | ⟨clash, -⟩
  · rw [tags] at distinct result
    exact ⟨keys, level, result, distinct, injective level⟩
  · refine absurd ?_ (clash [.kind, .pid, .time] (by decide))
    rwa [tags]

/-- The names of some reports are read as they were written, with tags that tell them apart, exactly if in
each of them the directory is too long for the buffer and the last component of what is left of it spells
the report. -/
theorem dump_names_read_iff (classes : TextClasses) (fs : FsDecoding) (reports : List HeapReport) :
    ((∀ report ∈ reports, report.ReadAs classes (fs.decode report.fileName)) ∧
      TagsSeparate classes fs reports ↔
      ∀ report ∈ reports, report.room < report.directory.length ∧
        report.SpeltIn classes (stemOf (basename (fs.decode (report.directory.take report.room))))) ∧
    ∀ report ∈ reports, report.directory.length + report.name.length ≤ report.room →
      dumpTagParts classes (fs.decode report.fileName) =
        { kind := reportStem report.kind report.pid report.time, pid := [], time := [] } := by
  refine ⟨?_, fun report _ fits => HeapReport.dumpTagParts_of_fits classes fs fits⟩
  simp only [← HeapReport.readAs_iff]
  exact ⟨fun read => read.1, fun read => ⟨read, tagsSeparate_of_readAs read⟩⟩

-- a directory that the buffer cuts where a name of the other form ends
example : HeapReport.ReadAs ⟨.signal, .replicate 243 47 ++ asciiBytes "pid.5.time.7/", .inr (by decide), 5,
  7⟩ asciiClasses
    (latin1Decoding.decode (reportFileName .signal
      (.replicate 243 47 ++ asciiBytes "pid.5.time.7/backtrace_heap") 5 7)) := by decide +kernel

end

/-- A report in the directory of traces. -/
def tracedReport (kind : ReportKind) (pid time : Int) : HeapReport where
  kind := kind
  directory := asciiBytes "/data/local/tmp/trace/"
  closed := .inr (by decide)
  pid := pid
  time := time

/-- A report at exit and one on a signal of another process: neither the process nor the time nor the kind
`exit` is read, and the tags have no part in common. -/
theorem dump_names_read_underscores :
    let exit := tracedReport .exit 123 456
    let signal := tracedReport .signal 124 456
    exit.fileName = asciiBytes "/data/local/tmp/trace/backtrace_heap.exit.pid_123.time_456.txt" ∧
    dumpTagParts asciiClasses (latin1Decoding.decode exit.fileName) =
      { kind := "exit.pid_123.time_456".toList, pid := [], time := [] } ∧
    dumpTagParts asciiClasses (latin1Decoding.decode signal.fileName) =
      { kind := "signal.pid_124.time_456".toList, pid := [], time := [] } ∧
    buildDumpTags asciiClasses (([exit, signal]).map fun report => latin1Decoding.decode report.fileName) =
      ["exit.pid_123.time_456".toList, "signal.pid_124.time_456".toList] ∧
    ¬ exit.ReadAs asciiClasses (latin1Decoding.decode exit.fileName) := by
  intro exit signal
  decide +kernel

end MallocHook
