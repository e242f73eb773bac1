/-
Module: MallocHook.Proofs.MarkerPairing
Purpose: The markers of the tracker and their reader agree as long as no `Remap` resizes a record with a
  stack in place: its end is then written under a name that was never opened.
Trusted boundary: none
Main exports: Follows, InStep, markers_pair_up
-/
import MallocHook.Lib.Scanf
import MallocHook.Core.AllocTrack
import MallocHook.Core.TraceMarkers

namespace MallocHook

open List Function Option LiveTable

/-! ### The text of a marker -/

section

variable {here : List Char → Option Nat}

/-- A text before the first full stop has no match. -/
theorem searchFor_skip (atStop : ∀ c rest, c ≠ '.' → here (c :: rest) = none) {before : List Char}
    (noStop : '.' ∉ before) (text : List Char) : searchFor here (before ++ text) = searchFor here text := by
  induction before with
  | nil => rfl
  | cons c rest ih =>
      rw [mem_cons, not_or] at noStop
      rw [cons_append, searchFor, atStop c _ (Ne.symm noStop.1), none_or, ih noStop.2]

theorem hashHere_atStop (c : Char) (rest : List Char) (notStop : c ≠ '.') : hashHere (c :: rest) = none := by
  unfold hashHere
  split
  · next same => exact absurd (List.cons.inj same).1 notStop
  · rfl

theorem sizeHere_atStop (c : Char) (rest : List Char) (notStop : c ≠ '.') : sizeHere (c :: rest) = none := by
  unfold sizeHere
  split
  · next same => exact absurd (List.cons.inj same).1 notStop
  · rfl

variable {c : Char}

/-- A number in decimal is read back, where the lookahead accepts what follows. -/
theorem digitsBefore_toDigits {lookahead : List Char → Bool} (n : Nat) {rest : List Char}
    (notDigit : c.isDigit = false) (accepts : lookahead (c :: rest) = true) :
    digitsBefore lookahead (Nat.toDigits 10 n ++ c :: rest) = some n := by
  have digits : ∀ d ∈ Nat.toDigits 10 n, d.isDigit = true :=
    fun d member => Nat.isDigit_of_mem_toDigits (by decide) (by decide) member
  have taken : (Nat.toDigits 10 n ++ c :: rest).takeWhile Char.isDigit = Nat.toDigits 10 n := by
    rw [takeWhile_append_of_pos digits, takeWhile_cons_of_neg (by simp [notDigit]), append_nil]
  have left : (Nat.toDigits 10 n ++ c :: rest).dropWhile Char.isDigit = c :: rest := by
    rw [dropWhile_append_of_pos digits, dropWhile_cons_of_neg (by simp [notDigit])]
  rw [digitsBefore, taken, left, if_pos ⟨Nat.toDigits_ne_nil, accepts⟩, Nat.ofDigitChars_ten_toDigits]

theorem notMem_mtype (type : MemType) (absent : c = '.' ∨ c = '@' ∨ c = '|') : c ∉ mtype type := by
  rcases absent with rfl | rfl | rfl <;> cases type <;> decide

/-- What comes after a character is determined, when it is not in what comes before. -/
theorem append_cons_inj {before before' after after' : List Char} (absent : c ∉ before)
    (absent' : c ∉ before') (same : before ++ c :: after = before' ++ c :: after') :
    before = before' ∧ after = after' := by
  rcases append_eq_append_iff.1 same with ⟨between, rfl, rest⟩ | ⟨between, rfl, rest⟩ <;> cases between
  · exact ⟨(append_nil _).symm, (List.cons.inj rest).2⟩
  · exact absurd (mem_append_right _ ((List.cons.inj rest).1 ▸ mem_cons_self)) absent'
  · exact ⟨append_nil _, (List.cons.inj rest).2.symm⟩
  · exact absurd (mem_append_right _ ((List.cons.inj rest).1 ▸ mem_cons_self)) absent

variable {format : PointerFormat} {pid : Nat}

/-- Two allocations with the same name are the same. -/
theorem AllocName.text_injective : Injective (AllocName.text format pid) := by
  rintro ⟨pointer, hashIndex, type, size⟩ ⟨pointer', hashIndex', type', size'⟩ same
  simp only [AllocName.text, List.cons.injEq, true_and, append_cancel_left_eq] at same
  obtain ⟨sameType, same⟩ := append_cons_inj (notMem_mtype type (.inr (.inl rfl)))
    (notMem_mtype type' (.inr (.inl rfl))) same
  obtain ⟨samePointer, same⟩ := append_cons_inj (format.plain pointer).1 (format.plain pointer').1 same
  obtain ⟨sameHash, same⟩ := append_cons_inj (Scanf.notMem_toDigits hashIndex (by decide))
    (Scanf.notMem_toDigits hashIndex' (by decide)) (List.cons.inj same).2
  have sameType : type = type' := by
    revert sameType
    cases type <;> cases type' <;> decide
  have decimal : Injective (Nat.toDigits 10) := Scanf.toDigits_injective (by decide) (by decide)
  rw [format.injective samePointer, decimal sameHash, sameType, decimal (List.cons.inj same).2]

/-- What stands before a bar that is the last one. -/
theorem beforeLastBar_append {before after : List Char} (last : '|' ∉ after) :
    beforeLastBar (before ++ '|' :: after) = before := by
  have dropped : (after.reverse ++ '|' :: before.reverse).dropWhile (· ≠ '|') = '|' :: before.reverse := by
    rw [dropWhile_append_of_pos, dropWhile_cons_of_neg (by simp)]
    intro c member
    have notBar : c ≠ '|' := fun same => last (same ▸ mem_reverse.1 member)
    simpa using notBar
  rw [beforeLastBar, if_pos (by simp), reverse_append, reverse_cons, append_assoc,
    singleton_append, dropped, tail_cons, reverse_reverse]

/-- A marker as it stands in the trace. The kernel adds a line feed. -/
def AllocMarker.buf (format : PointerFormat) (pid : Nat) (lineFeed : Bool) (marker : AllocMarker) :
    List Char :=
  marker.text format pid ++ if lineFeed then ['\n'] else []

/-- The reader finds in a marker what was written there. -/
theorem AllocMarker.read (marker : AllocMarker) (format : PointerFormat) (pid : Nat) (lineFeed : Bool) :
    "memory_".toList <:+: marker.buf format pid lineFeed ∧
      hashRe (marker.buf format pid lineFeed) = some marker.name.hashIndex ∧
      sizeRe (marker.buf format pid lineFeed) = some marker.name.size ∧
      markerName (marker.buf format pid lineFeed) = marker.name.text format pid ∧
      (marker.buf format pid lineFeed).head? = some (phaseChar marker.phase) := by
  obtain ⟨phase, ⟨pointer, hashIndex, type, size⟩, owner⟩ := marker
  let ending : List Char := if lineFeed then ['\n'] else []
  let rest := Nat.toDigits 10 pointer.toNat ++ ending
  let front := phaseChar phase :: '|' :: (Nat.toDigits 10 pid ++ ("|memory_".toList ++
    (mtype type ++ '@' :: format.print pointer)))
  have buf : AllocMarker.buf format pid lineFeed ⟨phase, ⟨pointer, hashIndex, type, size⟩, owner⟩ =
      front ++ '.' :: 'h' :: (Nat.toDigits 10 hashIndex ++ '.' :: 's' ::
        (Nat.toDigits 10 size ++ '|' :: rest)) := by
    simp [AllocMarker.buf, AllocMarker.text, AllocName.text, front, rest, ending]
  have noStop : '.' ∉ front := by
    have phaseStop : '.' ≠ phaseChar phase := by cases phase <;> decide
    simp [front, phaseStop, Scanf.notMem_toDigits, notMem_mtype, (format.plain pointer).1]
  have noBar : '|' ∉ rest := by
    have endingBar : '|' ∉ ending := by
      simp only [ending]
      split <;> simp
    simp [rest, Scanf.notMem_toDigits, endingBar]
  refine ⟨?_, ?_, ?_, ?_, ?_⟩
  · exact ⟨phaseChar phase :: '|' :: (Nat.toDigits 10 pid ++ ['|']), _, by
      rw [buf]
      simp [front]
      rfl⟩
  · rw [buf, hashRe, searchFor_skip hashHere_atStop noStop, searchFor, hashHere,
      digitsBefore_toDigits hashIndex (by decide) (by simp), some_or]
  · have noStop' : '.' ∉ 'h' :: Nat.toDigits 10 hashIndex := by simp [Scanf.notMem_toDigits]
    rw [buf, sizeRe, searchFor_skip sizeHere_atStop noStop, searchFor,
      show sizeHere ('.' :: 'h' :: _) = none from rfl, none_or, ← cons_append,
      searchFor_skip sizeHere_atStop noStop', searchFor, sizeHere,
      digitsBefore_toDigits size (by decide) (by simp), some_or]
  · have tail : (AllocMarker.buf format pid lineFeed ⟨phase, ⟨pointer, hashIndex, type, size⟩, owner⟩).tail =
        AllocName.text format pid ⟨pointer, hashIndex, type, size⟩ ++ '|' :: rest := by
      simp [AllocMarker.buf, AllocMarker.text, rest, ending]
    rw [markerName, tail, beforeLastBar_append noBar]
  · rfl

end

/-! ### The reader -/

section

variable {format : PointerFormat} {pid : Nat} {lineFeed : Bool}

/-- A marker and when it was written. -/
structure TimedMarker where
  ts : Nat
  marker : AllocMarker
deriving DecidableEq

/-- The marker as an event of the trace. -/
def TimedMarker.print (format : PointerFormat) (pid : Nat) (lineFeed : Bool) (event : TimedMarker) :
    FtracePrint :=
  ⟨event.ts, event.marker.buf format pid lineFeed⟩

/-- The lifetime from one marker to another, of what the first one says. -/
def lifetimeOf (pair : TimedMarker × TimedMarker) : Lifetime where
  hashIndex := pair.1.marker.name.hashIndex
  sizeBytes := some pair.1.marker.name.size
  ts := pair.1.ts
  dur := if pair.2.ts ≥ pair.1.ts then pair.2.ts - pair.1.ts else 0

/-- What the reader keeps of a begin marker. -/
def TimedMarker.begun (event : TimedMarker) : Nat × Option Nat × Nat :=
  (event.marker.name.hashIndex, some event.marker.name.size, event.ts)

variable {waiting : AllocName → List TimedMarker}

/-- The lists of the reader, by the text of the names, stay those of pairing by the names. -/
theorem update_begins {begins : Begins}
    (same : ∀ name, begins (name.text format pid) = (waiting name).map TimedMarker.begun)
    (name : AllocName) (events : List TimedMarker) (other : AllocName) :
    update begins (name.text format pid) (events.map TimedMarker.begun) (other.text format pid) =
      (update waiting name events other).map TimedMarker.begun := by
  by_cases here : other = name
  · rw [here, update_self, update_self]
  · rw [update_of_ne here, update_of_ne fun sameText => here (AllocName.text_injective sameText)]
    exact same other

section

variable {begins : Begins} {event : FtracePrint} {hi : Nat} {sizeBytes : Option Nat} {name : List Char}

theorem pairMarker_begin (isHash : hashRe event.buf = some hi) (isSize : sizeRe event.buf = sizeBytes)
    (isName : markerName event.buf = name) (isBegin : event.buf.head? = some 'S') :
    pairMarker begins event = (update begins name (begins name ++ [(hi, sizeBytes, event.ts)]), []) := by
  unfold pairMarker
  rw [isHash]
  dsimp only
  rw [if_pos isBegin, isSize, isName]

/-- An end marker looks for the first beginning of its name. -/
theorem pairMarker_end (begins : Begins) (event : FtracePrint) (isHash : hashRe event.buf = some hi)
    (isName : markerName event.buf = name) (isEnd : event.buf.head? = some 'F') :
    (begins name = [] → pairMarker begins event = (begins, [])) ∧
      ∀ beginHi beginSize bts later, begins name = (beginHi, beginSize, bts) :: later →
        pairMarker begins event = (update begins name later,
          [⟨beginHi, beginSize, bts, if event.ts ≥ bts then event.ts - bts else 0⟩]) := by
  have notBegin : ¬event.buf.head? = some 'S' := by
    rw [isEnd]
    decide
  subst isName
  unfold pairMarker
  rw [isHash]
  dsimp only
  rw [if_neg notBegin, if_pos isEnd]
  refine ⟨fun unpaired => ?_, fun beginHi beginSize bts later paired => ?_⟩
  · rw [unpaired]
  · rw [paired]

end

/-- On markers the reader pairs by the names. -/
theorem pairMarkers_eq_pairs {begins : Begins}
    (same : ∀ name, begins (name.text format pid) = (waiting name).map TimedMarker.begun)
    (events : List TimedMarker) :
    pairMarkers begins (events.map (TimedMarker.print format pid lineFeed)) =
      (Spans.pairs TimedMarker.marker waiting events).map lifetimeOf := by
  induction events generalizing begins waiting with
  | nil => rfl
  | cons event rest ih =>
      obtain ⟨-, isHash, isSize, isName, isPhase⟩ := AllocMarker.read event.marker format pid lineFeed
      rw [map_cons, pairMarkers, Spans.pairs]
      cases phase : event.marker.phase with
      | begins =>
          rw [phase] at isPhase
          rw [pairMarker_begin isHash isSize isName isPhase, nil_append]
          refine ih fun name => ?_
          have joined : begins (event.marker.name.text format pid) ++ [event.begun] =
              (waiting event.marker.name ++ [event]).map TimedMarker.begun := by
            rw [same, map_append, map_singleton]
          exact joined ▸ update_begins same _ _ name
      | ends =>
          rw [phase] at isPhase
          obtain ⟨unpaired, paired⟩ := pairMarker_end begins (TimedMarker.print format pid lineFeed event)
            isHash isName isPhase
          cases here : waiting event.marker.name with
          | nil =>
              rw [unpaired (by rw [same, here, map_nil])]
              exact ih same
          | cons first later =>
              rw [paired _ _ _ _ (by rw [same, here, map_cons])]
              exact congrArg (lifetimeOf (first, event) :: ·) (ih (update_begins same _ later))

/-- None of them is passed over. -/
theorem extractAllocationTimings_eq_pairs (events : List TimedMarker) :
    extractAllocationTimings (events.map (TimedMarker.print format pid lineFeed)) =
      (Spans.pairs TimedMarker.marker (fun _ => []) events).map lifetimeOf := by
  have mentioned : ∀ print ∈ events.map (TimedMarker.print format pid lineFeed),
      "memory_".toList <:+: print.buf := by
    intro print there
    obtain ⟨event, -, rfl⟩ := mem_map.1 there
    exact (AllocMarker.read event.marker format pid lineFeed).1
  rw [extractAllocationTimings, filter_eq_self.2 fun print there => decide_eq_true (mentioned print there)]
  exact pairMarkers_eq_pairs (fun _ => rfl) events

end

/-! ### What is open -/

/-- The live records with a stack, each under its name. -/
def openRecords (find : Pointer → Option PointerInfo) (records : Pointer → Nat) (name : AllocName) :
    Option Nat :=
  (find name.pointer).bind fun info =>
    if info.hashIndex > kBacktraceEmptyIndex ∧ allocName name.pointer info = name then
      some (records name.pointer)
    else none

/-- The markers are bracketed, and the names they leave open are those of the live records with a stack. -/
structure Follows (trace : Trace) (find : Pointer → Option PointerInfo) : Prop where
  bracketed : Spans.Bracketed (fun _ => none) trace.markers
  opened : Spans.after (fun _ => none) trace.markers = openRecords find trace.records

namespace Follows

variable {trace : Trace} {find : Pointer → Option PointerInfo} {pointer : Pointer} {info : PointerInfo}

theorem empty : Follows .empty LiveTable.empty.find := ⟨trivial, rfl⟩

variable {records : Pointer → Nat}

theorem openRecords_of_find {name : AllocName} (found : find name.pointer = some info) :
    openRecords find records name =
      if info.hashIndex > kBacktraceEmptyIndex ∧ allocName name.pointer info = name then
        some (records name.pointer)
      else none := by
  rw [openRecords, found, bind_some]

theorem openRecords_of_vacant {name : AllocName} (vacant : find name.pointer = none) :
    openRecords find records name = none := by
  rw [openRecords, vacant, bind_none]

/-- Records at other pointers stay open. -/
theorem openRecords_congr {find' : Pointer → Option PointerInfo} {records records' : Pointer → Nat}
    {name : AllocName} (sameFind : find' name.pointer = find name.pointer)
    (sameRecord : records' name.pointer = records name.pointer) :
    openRecords find' records' name = openRecords find records name := by
  rw [openRecords, openRecords, sameFind, sameRecord]

section

variable (follows : Follows trace find)
include follows

/-- The end of a live record closes its name. -/
theorem released (found : find pointer = some info) :
    Follows (trace.released pointer info) (update find pointer none) := by
  have gone : ∀ name : AllocName, name.pointer = pointer →
      openRecords (update find pointer none) trace.records name = none :=
    fun name here => openRecords_of_vacant (by rw [here, update_self])
  have others : ∀ name : AllocName, name.pointer ≠ pointer →
      openRecords find trace.records name = openRecords (update find pointer none) trace.records name :=
    fun name elsewhere => (openRecords_congr (update_of_ne elsewhere _ _) rfl).symm
  unfold Trace.released
  split
  · next traced =>
      have isOpen : openRecords find trace.records (allocName pointer info) =
        some (trace.records pointer) := by
        rw [openRecords_of_find (show find (allocName pointer info).pointer = some info from found)]
        exact if_pos ⟨traced, rfl⟩
      refine ⟨Spans.bracketed_append.2 ⟨follows.bracketed, ?_, trivial⟩, ?_⟩
      · rw [follows.opened]
        exact isOpen
      · rw [Spans.after_append, follows.opened]
        funext name
        by_cases same : name = allocName pointer info
        · rw [same, gone _ rfl]
          exact update_self _ _ _
        · refine (update_of_ne same _ _).trans ?_
          by_cases here : name.pointer = pointer
          · rw [gone name here, openRecords_of_find (here ▸ found), if_neg]
            rintro ⟨-, isName⟩
            exact same (here ▸ isName.symm)
          · exact others name here
  · next untraced =>
      refine ⟨follows.bracketed, follows.opened.trans ?_⟩
      funext name
      by_cases here : name.pointer = pointer
      · rw [gone name here, openRecords_of_find (here ▸ found), if_neg fun both => untraced both.1]
      · exact others name here

/-- Whatever record a pointer has is over. -/
theorem vacated (pointer : Pointer) :
    Follows ((find pointer).elim trace (trace.released pointer)) (update find pointer none) := by
  cases found : find pointer with
  | none =>
      have unchanged : update find pointer none = find := by rw [← found, update_eq_self]
      rw [unchanged]
      exact follows
  | some info => exact follows.released found

/-- The beginning of a record opens its name. -/
theorem recorded (vacant : find pointer = none) (info : PointerInfo) :
    Follows (trace.recorded pointer info) (update find pointer (some info)) := by
  have closed : ∀ name : AllocName, name.pointer = pointer → openRecords find trace.records name = none :=
    fun name here => openRecords_of_vacant (here ▸ vacant)
  have new : ∀ name : AllocName, name.pointer = pointer →
      openRecords (update find pointer (some info))
          (update trace.records pointer trace.begun) name =
        if info.hashIndex > kBacktraceEmptyIndex ∧ allocName pointer info = name then some trace.begun
        else none := by
    intro name here
    subst here
    rw [openRecords_of_find (update_self _ _ _), update_self]
  have others : ∀ name : AllocName, name.pointer ≠ pointer →
      openRecords find trace.records name = openRecords (update find pointer (some info))
        (update trace.records pointer trace.begun) name := fun name elsewhere =>
    (openRecords_congr (update_of_ne elsewhere _ _) (update_of_ne elsewhere _ _)).symm
  unfold Trace.recorded
  split
  · next traced =>
      refine ⟨Spans.bracketed_append.2 ⟨follows.bracketed, ?_, trivial⟩, ?_⟩
      · rw [follows.opened]
        exact closed _ rfl
      · rw [Spans.after_append, follows.opened]
        funext name
        by_cases same : name = allocName pointer info
        · rw [same, new _ rfl, if_pos ⟨traced, rfl⟩]
          exact update_self _ _ _
        · refine (update_of_ne same _ _).trans ?_
          by_cases here : name.pointer = pointer
          · rw [closed name here, new name here, if_neg fun both => same both.2.symm]
          · exact others name here
  · next untraced =>
      refine ⟨follows.bracketed, follows.opened.trans ?_⟩
      funext name
      by_cases here : name.pointer = pointer
      · rw [closed name here, new name here, if_neg fun both => untraced both.1]
      · exact others name here

/-- A record that is resized in place has no stack, or the size it had. -/
theorem resized (found : find pointer = some info) {newSize : Nat}
    (keeps : info.hashIndex > kBacktraceEmptyIndex → info.size = newSize) :
    Follows trace (update find pointer (some { info with size := newSize })) := by
  refine ⟨follows.bracketed, follows.opened.trans ?_⟩
  funext name
  by_cases here : name.pointer = pointer
  · rw [openRecords_of_find (here ▸ found), openRecords_of_find (by rw [here]; exact update_self _ _ _)]
    by_cases traced : info.hashIndex > kBacktraceEmptyIndex
    · rw [← keeps traced]
    · rw [if_neg fun both => traced both.1, if_neg fun both => traced both.1]
  · exact (openRecords_congr (update_of_ne here _ _) rfl).symm

end

/-- `Remap` re-keys a record, or leaves its name as it is. -/
theorem remapped {live : LiveTable} {oldPointer newPointer : Pointer} {newSize : Nat}
    {result : LiveTable.SectionResult} (follows : Follows trace live.find)
    (remapped : live.remap oldPointer newPointer newSize = some result)
    (keeps : newPointer = oldPointer → ∀ info, live.find oldPointer = some info →
      info.hashIndex > kBacktraceEmptyIndex → info.size = newSize) :
    Follows (trace.remapped oldPointer newPointer newSize result) result.table.find := by
  obtain ⟨info, found, -, rfl⟩ := live.remap_eq_some remapped
  rw [find_rekey_eq_update]
  simp only [Trace.remapped, rekey_displaced, rekey_moved, elim_some]
  by_cases inPlace : oldPointer = newPointer
  · subst inPlace
    rw [if_neg (by simp), if_pos rfl, elim_none, update_idem]
    exact follows.resized found (keeps rfl info found)
  · rw [if_pos inPlace, if_neg (Ne.symm inPlace)]
    have found : update live.find newPointer none oldPointer = some info := by
      rw [update_of_ne inPlace, found]
    have left := (follows.vacated newPointer).released found
    rw [update_comm (Ne.symm inPlace)] at left
    have vacant :
        update (update live.find oldPointer none) newPointer none newPointer = none :=
      update_self _ _ _
    have arrived := left.recorded vacant { info with size := newSize }
    rw [update_idem] at arrived
    exact arrived

end Follows

/-- The record of `pointer` is out of the table, and its end is not written yet. -/
def Taken (pointer : Pointer) (previous : Option PointerInfo) (trace : Trace) (live : LiveTable) : Prop :=
  ∃ find, Follows trace find ∧ find pointer = previous ∧ live.find = update find pointer none

namespace Taken

variable {pointer : Pointer} {previous : Option PointerInfo} {info : PointerInfo} {trace : Trace}
  {live : LiveTable}

theorem takeEntry (follows : Follows trace live.find) :
    Taken pointer (live.takeEntry pointer).1 trace (live.takeEntry pointer).2 :=
  ⟨live.find, follows, (live.takeEntry_fst pointer).symm, live.find_takeEntry_eq_update pointer⟩

/-- Its end is written. -/
theorem released (taken : Taken pointer previous trace live) :
    Follows (previous.elim trace (trace.released pointer)) live.find := by
  obtain ⟨find, follows, rfl, rest⟩ := taken
  rw [rest]
  exact follows.vacated pointer

/-- It goes back. -/
theorem restored (taken : Taken pointer (some info) trace live) :
    Follows trace (live.restoreEntry pointer info).find := by
  obtain ⟨find, follows, found, rest⟩ := taken
  rw [find_restoreEntry_eq_update, rest, update_idem, ← found, update_eq_self]
  exact follows

end Taken

/-! ### Runs -/

variable {τ ε : Type*} [DecidableEq τ] {config : Config} {env : Environment (Option τ) ε} {t : Option τ}
  {op : Op (Option τ)} {next : List (Op (Option τ))}

/-- What an operation does, it does to the hook, and it writes its markers. -/
theorem traced_exec {hook : Hook (Option τ) ε} {trace : Trace} {traced' : Hook (Option τ) ε × Trace}
    {answer : Answer}
    (executed : (tracedCode config env).exec t (hook, trace) op answer = some (traced', next)) :
    execOp config env t hook op answer = some (traced'.1, next) ∧ traced'.2 = trace.note hook op answer := by
  obtain ⟨⟨hook', next'⟩, ran, ⟨⟩⟩ := map_eq_some_iff.1 executed
  exact ⟨ran, rfl⟩

variable {traced traced' : Hook (Option τ) ε × Trace}

/-- Operations that take no record and move none keep the markers in step with the table. -/
theorem steady_follows {answer : Answer}
    (steady : op.Steady) (follows : Follows traced.2 traced.1.live.find)
    (executed : (tracedCode config env).exec t traced op answer = some (traced', next)) :
    Follows traced'.2 traced'.1.live.find ∧ ∀ later ∈ next, later.Steady := by
  obtain ⟨hook, trace⟩ := traced
  obtain ⟨executed, written⟩ := traced_exec executed
  refine ⟨?_, steady_next steady executed⟩
  rw [written]
  rcases execOp_cases executed with
    ⟨frameOp, rfl, framed⟩ | ⟨shardOp, live', rfl, -, sectioned, same⟩ |
      ⟨systemOp, world, rfl, -, same, -⟩ | ⟨peakOp, rfl, peaked⟩ | ⟨dmaOp, rfl, transacted⟩
  · rw [← (Prod.mk.inj framed).1]
    exact follows
  · rw [same]
    cases shardOp with
    | addEntry pointer trackedSize hashIndex type =>
        cases sectioned
        have added := (follows.vacated pointer).recorded (update_self _ _ _)
          ⟨trackedSize, hashIndex, type, answer.now⟩
        rw [update_idem] at added
        simp only [Trace.note, addSection_displaced, find_addSection_eq_update]
        exact added
    | internalFree pointer | remove pointer =>
        cases sectioned
        simp only [Trace.note, takeEntry_fst, find_takeEntry_eq_update]
        exact follows.vacated pointer
    | remap | reallocTake | munmapTake | restoreEntry => cases steady
  · rw [same]
    cases systemOp with
    | realloc | munmap | mremap => cases steady
    | _ => exact follows
  · rw [(execPeak_frame peaked).1]
    exact follows
  · rw [(execDma_frame transacted).1]
    exact follows

/-- The markers are in step with the table. -/
def InStep (traced : Hook (Option τ) ε × Trace) : Prop := Follows traced.2 traced.1.live.find

theorem steady_inStep {ops : List (Op (Option τ))} (steady : ∀ op ∈ ops, op.Steady) :
    (tracedCode config env).Triple t InStep ops InStep :=
  .invariant Op.Steady (fun isSteady follows executed => steady_follows isSteady follows executed) steady

section

variable {P Q : Hook (Option τ) ε × Trace → Prop}

theorem shard_traced {op : ShardOp}
    (leaves : ∀ hook trace answer, P (hook, trace) → (tracedCode config env).Triple t
      (fun after => after = ({ hook with live := (op.exec hook.live answer : _ × List (Op (Option τ))).1 },
        trace.note hook (.shard op : Op (Option τ)) answer))
      (op.exec hook.live answer).2 Q) : (tracedCode config env).Triple t P [.shard op] Q := by
  refine .step fun {traced answer traced' next} holds executed => ?_
  obtain ⟨executed, written⟩ := traced_exec executed
  rcases execOp_cases executed with
    ⟨_, other, -⟩ | ⟨_, _, same, -, sectioned, isAfter⟩ | ⟨_, _, other, -⟩ | ⟨_, other, -⟩ | ⟨_, other, -⟩
  case inr.inl =>
    cases same
    have left := leaves traced.1 traced.2 answer holds
    rw [sectioned] at left
    refine left.imp (fun after here => ?_) fun _ done => done
    rw [here, Prod.ext_iff]
    exact ⟨isAfter, written⟩
  all_goals cases other

theorem system_traced {op : SystemOp (Option τ)}
    (leaves : ∀ hook trace answer world, P (hook, trace) →
      (tracedCode config env).Triple t (fun after => after = ({
      hook with world := world }, trace.note hook (.system op) answer)) (op.next config answer) Q) :
    (tracedCode config env).Triple t P [.system op] Q := by
  refine .step fun {traced answer traced' next} holds executed => ?_
  obtain ⟨executed, written⟩ := traced_exec executed
  rcases execOp_cases executed with
    ⟨_, other, -⟩ | ⟨_, _, other, -⟩ | ⟨_, world, same, -, isAfter, rfl⟩ | ⟨_, other, -⟩ | ⟨_, other, -⟩
  case inr.inr.inl =>
    cases same
    refine (leaves traced.1 traced.2 answer world holds).imp (fun after here => ?_) fun _ done => done
    rw [here, Prod.ext_iff]
    exact ⟨isAfter, written⟩
  all_goals cases other

end

/-- The allocator or the kernel has kept the block: the record goes back and nothing is written. -/
theorem restore_inStep (pointer : Pointer) (previous : Option PointerInfo) :
    (tracedCode config env).Triple t (fun traced => Taken pointer previous traced.2 traced.1.live)
      (previous.elim [] fun info => [.shard (.restoreEntry pointer info)]) InStep := by
  cases previous with
  | none => exact .nil fun _ taken => taken.released
  | some info => exact shard_traced fun _ _ _ taken => .nil fun _ same => same ▸ taken.restored

/-- `realloc` takes the record out of the table, and writes its end or puts it back. -/
theorem realloc_inStep (pointer : Pointer) (bytes : Nat) :
    (tracedCode config env).Triple t InStep [.shard (.reallocTake pointer bytes)] InStep := by
  refine shard_traced fun hook trace answer follows => ?_
  refine Code.Triple.imp (P := fun traced => Taken pointer (hook.live.takeEntry pointer).1 traced.2
    traced.1.live) ?_
    (fun _ same => same ▸ Taken.takeEntry follows) fun _ done => done
  refine system_traced fun after written answer world taken => ?_
  by_cases failed : answer.pointer = 0
  · simp only [SystemOp.next, Trace.note, if_pos failed]
    exact (restore_inStep pointer _).imp (fun _ same => same ▸ taken) fun _ done => done
  · simp only [SystemOp.next, Trace.note, if_neg failed]
    refine (steady_inStep ?_).imp (fun _ same => same ▸ taken.released) fun _ done => done
    cases (hook.live.takeEntry pointer).1 <;> cases config.trackPointers <;> simp [Op.Steady, Op.add]

theorem munmap_inStep (addr : Pointer) (size : Nat) :
    (tracedCode config env).Triple t InStep [.shard (.munmapTake addr size)] InStep := by
  refine shard_traced fun hook trace answer follows => ?_
  refine Code.Triple.imp (P := fun traced => Taken addr (hook.live.takeEntry addr).1 traced.2
    traced.1.live) ?_ (fun _
    same => same ▸ Taken.takeEntry follows) fun _ done => done
  refine system_traced fun after written answer world taken => ?_
  by_cases unmapped : answer.status = 0
  · simp only [SystemOp.next, Trace.note, if_pos unmapped]
    refine (steady_inStep ?_).imp (fun _ same => same ▸ taken.released) fun _ done => done
    cases (hook.live.takeEntry addr).1 <;> simp [Op.Steady]
  · simp only [SystemOp.next, Trace.note, if_neg unmapped]
    exact (restore_inStep addr _).imp (fun _ same => same ▸ taken) fun _ done => done

/-- Without a record there is no end to write. -/
theorem untracked_inStep (op : SystemOp (Option τ))
    (silent : ∀ (hook : Hook (Option τ) ε) trace answer, Trace.note hook (.system op) answer trace = trace)
    (untracked : ∀ answer, ∀ later ∈ op.next config answer, later.Steady) :
    (tracedCode config env).Triple t InStep [.system op] InStep := by
  refine system_traced fun hook trace answer world follows => ?_
  rw [silent]
  exact (steady_inStep (untracked answer)).imp (fun _ same => same ▸ follows) fun _ done => done

/-- `Remap` keeps the markers in step if it does not resize a record with a stack in place. -/
theorem remap_inStep {oldPointer newPointer : Pointer} {newSize : Nat} :
    (tracedCode config env).Triple t
      (fun traced => InStep traced ∧ (newPointer = oldPointer →
        ∀ info, traced.1.live.find oldPointer = some info →
          info.hashIndex > kBacktraceEmptyIndex → info.size = newSize))
      [.shard (.remap oldPointer newPointer newSize)] InStep := by
  refine shard_traced fun hook trace answer ⟨follows, keeps⟩ => ?_
  simp only [ShardOp.exec, Trace.note]
  cases remapped : hook.live.remap oldPointer newPointer newSize with
  | none => exact .nil fun _ same => same ▸ follows
  | some result =>
      exact (steady_inStep (steady_afterSection result)).imp
        (fun _ same => same ▸ follows.remapped remapped keeps) fun _ done => done

theorem mremap_inStep {oldAddr newAddr : Pointer} {oldSize newSize : Nat} {flags : UInt32}
    {answers : List Answer}
    (keeps : KeepsSizes traced ⟨t, .mremap oldAddr oldSize newSize flags newAddr, answers⟩)
    (follows : InStep traced) (finished : (tracedCode config env).finish t answers traced
      [.system (.mremap oldAddr oldSize newSize flags newAddr)] = some traced') : InStep traced' := by
  obtain ⟨answer, later, ⟨hook, trace⟩, next, rfl, executed, finished⟩ := Code.finish_cons finished
  obtain ⟨executed, written⟩ := traced_exec executed
  obtain ⟨world, -, ⟨⟩⟩ := map_eq_some_iff.1 executed
  obtain rfl : trace = traced.2 := written
  have follows : InStep ({ traced.1 with world := world }, traced.2) := follows
  rw [append_nil] at finished
  simp only [SystemOp.next] at finished
  split_ifs at finished with tracked copies
  · exact steady_inStep (by simp [Op.Steady, Op.add]) _ _ _ follows finished
  · refine remap_inStep _ _ _ ⟨follows, fun inPlace info found hasStack => ?_⟩ finished
    have found : traced.1.live.find oldAddr = some info := found
    have keeps := keeps (by simpa using copies) inPlace
    rw [found, all_some, Bool.or_eq_true, beq_iff_eq] at keeps
    exact keeps.resolve_left (by simpa using hasStack)
  · exact steady_inStep (by simp) _ _ _ follows finished

/-- Between calls none of which resizes a record with a stack in place, the markers are in step with the
table. -/
theorem inStep_of_reachable {traced : Hook (Option τ) ε × Trace}
    (reached : (tracedHook config env).ReachableBy KeepsSizes traced) : InStep traced := by
  refine reached.invariant .empty fun {before after call} follows keeps stepped => ?_
  obtain ⟨t, request, answers⟩ := call
  obtain ⟨ops, started, finished⟩ := bind_eq_some_iff.1 stepped
  obtain rfl := startHooked_of_startCall started
  have starts := startHooked_starts config request
  clear started stepped
  generalize startHooked config request = ops at starts finished
  cases starts with
  | steady areSteady => exact steady_inStep areSteady _ _ _ follows finished
  | realloc pointer bytes => exact realloc_inStep pointer bytes _ _ _ follows finished
  | munmap addr size => exact munmap_inStep addr size _ _ _ follows finished
  | untrackedRealloc untracked pointer bytes =>
      exact untracked_inStep (.realloc pointer bytes none) (fun _ _ _ => ite_self _)
        (fun answer => by simp [SystemOp.next, untracked]) _ _ _ follows finished
  | untrackedMunmap addr size =>
      exact untracked_inStep (.munmap addr size none) (fun _ _ _ => ite_self _)
        (by simp [SystemOp.next]) _ _ _
        follows finished
  | mremap oldAddr oldSize newSize flags newAddr => exact mremap_inStep keeps follows finished

/-! ### Markers and reader -/

/-- When no live record has a stack, nothing is open. -/
theorem Follows.closed {trace : Trace} {find : Pointer → Option PointerInfo} (follows : Follows trace find)
    (released : ∀ pointer info, find pointer = some info → info.hashIndex ≤ kBacktraceEmptyIndex)
    (name : AllocName) : Spans.after (fun _ => none) trace.markers name = none := by
  rw [follows.opened]
  cases found : find name.pointer with
  | none => exact openRecords_of_vacant found
  | some info =>
      rw [openRecords_of_find found, if_neg]
      rintro ⟨traced, -⟩
      exact absurd traced (Nat.not_lt.2 (released _ info found))

/-- Of all names, at most one has a given text. -/
theorem alternates_text {markers : List AllocMarker} {format : PointerFormat} {pid : Nat}
    (alternate : ∀ name, Spans.Alternates (Spans.phasesOf name markers)) (text : List Char) :
    Spans.Alternates ((markers.filter fun marker => marker.name.text format pid = text).map Mark.phase) := by
  by_cases named : ∃ name : AllocName, name.text format pid = text
  · obtain ⟨name, rfl⟩ := named
    simp only [AllocName.text_injective.eq_iff]
    exact alternate name
  · rw [filter_eq_nil_iff.2 fun marker _ => by simpa using fun same => named ⟨_, same⟩]
    trivial

/-- The markers of a run after which no live record has a stack, and that never resized such a record in
place, alternate under every name, and the reader returns one lifetime for each begin marker, up to the end
marker of the same record. -/
theorem markers_pair_up {traced : Hook (Option τ) ε × Trace}
    (reached : (tracedHook config env).ReachableBy KeepsSizes traced)
    (released : ∀ pointer info, traced.1.live.find pointer = some info →
      info.hashIndex ≤ kBacktraceEmptyIndex) (format : PointerFormat) (pid : Nat) (lineFeed : Bool)
    {events : List TimedMarker} (stream : events.map TimedMarker.marker = traced.2.markers) :
    (∀ text, Spans.Alternates
        ((traced.2.markers.filter fun marker => marker.name.text format pid = text).map Mark.phase)) ∧
      ∃ pairs : List (TimedMarker × TimedMarker),
        extractAllocationTimings (events.map (TimedMarker.print format pid lineFeed)) =
          pairs.map lifetimeOf ∧
        (pairs.map Prod.fst).Perm (events.filter fun event => event.marker.phase = .begins) ∧
        pairs.map Prod.snd = events.filter (fun event => event.marker.phase = .ends) ∧
        (∀ pair ∈ pairs, pair.1.marker.owner = pair.2.marker.owner) ∧
        (events.Pairwise (fun first second => first.ts ≤ second.ts) →
          ∀ pair ∈ pairs, (lifetimeOf pair).ts + (lifetimeOf pair).dur = pair.2.ts) := by
  have follows := inStep_of_reachable reached
  have closed := follows.closed released
  have bracketed := follows.bracketed
  refine ⟨alternates_text fun name => ?_, ?_⟩
  · exact Spans.alternates_of_bracketed bracketed (closed name)
  rw [← stream] at bracketed closed
  obtain ⟨ends, begins, owners⟩ := Spans.pairs_of_bracketed bracketed closed
  refine ⟨_, extractAllocationTimings_eq_pairs events, begins, ends, owners, ?_⟩
  intro ordered pair member
  have inOrder : pair.1.ts ≤ pair.2.ts := Spans.pairs_ordered ordered (by simp) pair member
  simp only [lifetimeOf]
  rw [if_pos inOrder]
  exact Nat.add_sub_cancel' inOrder

/-- A mapping with a stack, moved and grown, and then unmapped. -/
def movedCalls : List (HookCall Worker) :=
  [⟨some .one, .mmap 0 4096 (0x2 ||| mapAnonymous) (-1),
      [{}, { pointer := 0x10000 }, { stack := oneFrame 0x400 }, {}, {}]⟩,
    ⟨some .one, .mremap 0x10000 4096 8192 1 0, [{ pointer := 0x20000 }, {}, {}]⟩,
    ⟨some .one, .munmap 0x20000 8192, [{}, {}, {}]⟩]

def movedEvents : List TimedMarker :=
  [⟨10, ⟨.begins, ⟨0x10000, 2, .mmap, 4096⟩, 0⟩⟩, ⟨20, ⟨.ends, ⟨0x10000, 2, .mmap, 4096⟩, 0⟩⟩,
    ⟨20, ⟨.begins, ⟨0x20000, 2, .mmap, 8192⟩, 1⟩⟩, ⟨35, ⟨.ends, ⟨0x20000, 2, .mmap, 8192⟩, 1⟩⟩]

theorem markers_pair_up_moved :
    ∃ traced, (tracedHook trackingConfig (.any (Option Worker))).run
        (tracedHook trackingConfig (.any (Option Worker))).init movedCalls = some traced ∧
      movedEvents.map TimedMarker.marker = traced.2.markers ∧
      Spans.Alternates ((traced.2.markers.filter fun marker =>
        marker.name.text .glibc 7 = "|7|memory_mmap@0x10000.h2.s4096".toList).map Mark.phase) ∧
      extractAllocationTimings (movedEvents.map (TimedMarker.print .glibc 7 true)) =
        [⟨2, some 4096, 10, 10⟩, ⟨2, some 8192, 20, 15⟩] := by
  obtain ⟨traced, ran, markers, entries⟩ : ∃ traced ∈ (tracedHook trackingConfig (.any (Option Worker))).run
      (tracedHook trackingConfig (.any (Option Worker))).init movedCalls,
      traced.2.markers = movedEvents.map TimedMarker.marker ∧ traced.1.live.entries = [] := by decide +kernel
  have respects : (tracedHook trackingConfig (.any (Option Worker))).Respects
      KeepsSizes
      (tracedHook trackingConfig (.any (Option Worker))).init movedCalls := by decide +kernel
  have released : ∀ pointer info, traced.1.live.find pointer = some info →
      info.hashIndex ≤ kBacktraceEmptyIndex := by
    intro pointer info found
    rw [← mem_entries_iff_find, entries] at found
    cases found
  have pairUp := markers_pair_up (.of_run .init respects ran) released .glibc 7 true markers.symm
  exact ⟨traced, ran, markers.symm, pairUp.1 _, by decide +kernel⟩

/-- A mapping with a stack, grown in place and then unmapped. -/
def grownCalls : List (HookCall Worker) :=
  [⟨some .one, .mmap 0 4096 (0x2 ||| mapAnonymous) (-1),
      [{}, { pointer := 0x10000 }, { stack := oneFrame 0x400 }, {}, {}]⟩,
    ⟨some .one, .mremap 0x10000 4096 8192 0 0, [{ pointer := 0x10000 }, {}, {}]⟩,
    ⟨some .one, .munmap 0x10000 8192, [{}, {}, {}]⟩]

/-- The record is gone, its begin marker stays open and the reader returns no lifetime. -/
theorem grown_marker_left_open :
    ∃ traced, (tracedHook trackingConfig (.any (Option Worker))).Reachable traced ∧
      traced.1.live.entries = [] ∧
      traced.2.markers = [⟨.begins, ⟨0x10000, 2, .mmap, 4096⟩, 0⟩, ⟨.ends, ⟨0x10000, 2, .mmap, 8192⟩, 0⟩] ∧
      ¬Spans.Alternates ((traced.2.markers.filter fun marker =>
        marker.name.text .glibc 7 = "|7|memory_mmap@0x10000.h2.s4096".toList).map Mark.phase) ∧
      extractAllocationTimings
        ([⟨10, ⟨.begins, ⟨0x10000, 2, .mmap, 4096⟩, 0⟩⟩, ⟨35, ⟨.ends, ⟨0x10000, 2, .mmap, 8192⟩, 0⟩⟩].map
          (TimedMarker.print .glibc 7 true)) = [] := by
  obtain ⟨traced, ran, entries, markers, phases⟩ :
    ∃ traced ∈ (tracedHook trackingConfig (.any (Option Worker))).run
      (tracedHook trackingConfig (.any (Option Worker))).init grownCalls, traced.1.live.entries = [] ∧
      traced.2.markers = [⟨.begins, ⟨0x10000, 2, .mmap, 4096⟩, 0⟩, ⟨.ends, ⟨0x10000, 2, .mmap, 8192⟩, 0⟩] ∧
      (traced.2.markers.filter fun marker =>
        marker.name.text .glibc 7 = "|7|memory_mmap@0x10000.h2.s4096".toList).map Mark.phase =
          [.begins] := by
    decide +kernel
  refine ⟨traced, .run .init ran, entries, markers, ?_, by decide +kernel⟩
  rw [phases]
  exact id

end MallocHook
