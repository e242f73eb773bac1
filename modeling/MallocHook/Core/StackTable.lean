/-
Module: MallocHook.Core.StackTable
Purpose: The table of unique allocation stacks of `PointerData`. A `StackTable` carries the facts that
  tie `frames_` and `key_to_index_` together.
Trusted boundary: translation of backtrace/src/PointerData.cpp, backtrace/include/Config.h and the
  capture record of backtrace/include/UnwindBacktrace.h
Main exports: Config, StackTable, addBacktrace, removeBacktrace
-/
import MallocHook.Core.LiveTable

namespace MallocHook

open Option

/-! ### Configuration -/

def optionBacktrace : UInt64 := 0x1
def optionTrackAllocs : UInt64 := 0x2
def optionBacktraceSpecificSizes : UInt64 := 0x4
def optionRecordMemoryPeak : UInt64 := 0x8

inductive PeakRetention where
  | chaseMax
  | firstCrossing
deriving DecidableEq, Repr, Inhabited

/-- The settings the tracker reads, without those that only steer the unwinder. -/
structure Config where
  options : UInt64
  backtraceMinSizeBytes : Nat
  backtraceMaxSizeBytes : Nat
  backtraceDumpPeakVal : Nat
  peakRecordStepBytes : Nat
  peakRetention : PeakRetention
deriving DecidableEq, Repr, Inhabited

namespace Config

def has (config : Config) (option : UInt64) : Bool := config.options &&& option != 0

/-- `DebugData::TrackPointers`. -/
def trackPointers (config : Config) : Bool := config.has optionTrackAllocs

/-- `ShouldBacktraceAllocSize`. -/
def shouldBacktraceAllocSize (config : Config) (sizeBytes : Nat) : Bool :=
  if config.has optionBacktraceSpecificSizes then
    decide (config.backtraceMinSizeBytes ≤ sizeBytes ∧ sizeBytes ≤ config.backtraceMaxSizeBytes)
  else true

end Config

/-! ### Captured stacks -/

def kMaxAsyncRawFrames : Nat := 256

inductive StackCaptureState where
  | empty
  | complete
  | partialCapture
  | error
deriving DecidableEq, Repr, Inhabited

/-- `RawStackRecord`, with the first `frame_count` entries of the PC array: the others are never
defined. -/
structure RawStackRecord where
  captureState : StackCaptureState
  terminalError : UInt8
  moduleGeneration : UInt64
  pcs : List Pointer
  bounded : pcs.length ≤ kMaxAsyncRawFrames
deriving DecidableEq

/-- `FrameKeyType`. The PC array is borrowed in the source; `pcs` is what it points to. -/
structure FrameKey where
  frameCount : Nat
  moduleGeneration : UInt64
  pcs : List Pointer
deriving DecidableEq, Repr, Inhabited

namespace RawStackRecord

instance : Inhabited RawStackRecord := ⟨.empty, 0, 0, [], Nat.zero_le _⟩

/-- The key that borrows the PCs just captured. -/
def probe (raw : RawStackRecord) : FrameKey := ⟨raw.pcs.length, raw.moduleGeneration, raw.pcs⟩

/-- Whether a capture is worth keeping. -/
def usable (raw : RawStackRecord) : Bool :=
  raw.pcs.length != 0 && (raw.captureState == .complete || raw.captureState == .partialCapture)

end RawStackRecord

/-- `FrameInfoType`: a stack and the number of references to it, which is never zero. -/
structure FrameInfo where
  references : Nat
  frames : List Pointer
  moduleGeneration : UInt64
  captureState : StackCaptureState
  terminalError : UInt8
  referenced : 0 < references
  bounded : frames.length ≤ kMaxAsyncRawFrames
deriving DecidableEq

namespace FrameInfo

/-- The entry `AddBacktrace` emplaces for a stack it has not seen. -/
def ofRaw (raw : RawStackRecord) : FrameInfo where
  references := 1
  frames := raw.pcs
  moduleGeneration := raw.moduleGeneration
  captureState := raw.captureState
  terminalError := raw.terminalError
  referenced := Nat.one_pos
  bounded := raw.bounded

variable (info : FrameInfo)

/-- The key `RemoveBacktrace` rebuilds from an entry to erase it. -/
def key : FrameKey :=
  ⟨min info.frames.length kMaxAsyncRawFrames, info.moduleGeneration, info.frames⟩

/-- `references++`. -/
def retain : FrameInfo :=
  { info with references := info.references + 1, referenced := Nat.succ_pos _ }

/-- `--references`; `none` when that was the last one. -/
def release : Option FrameInfo :=
  if last : info.references - 1 = 0 then none
  else some { info with references := info.references - 1, referenced := Nat.pos_of_ne_zero last }

@[simp] theorem key_ofRaw (raw : RawStackRecord) : (ofRaw raw).key = raw.probe := by
  simp [key, ofRaw, RawStackRecord.probe, raw.bounded]

@[simp] theorem key_retain : info.retain.key = info.key := rfl

theorem key_release {info less : FrameInfo} (released : info.release = some less) : less.key = info.key := by
  unfold release at released
  split at released <;> cases released
  rfl

end FrameInfo

/-! ### The table -/

/-- `key_to_index_`, `frames_` and `cur_hash_index_`. -/
structure StackTable where
  keyToIndex : AList fun _ : FrameKey => Nat
  frames : AList fun _ : Nat => FrameInfo
  curHashIndex : Nat
  /-- The two maps are inverse to each other. -/
  inverse : ∀ key index, keyToIndex.lookup key = some index ↔
    ∃ info, frames.lookup index = some info ∧ info.key = key
  /-- Indices in use mean a stack and have been handed out. -/
  inRange : ∀ index info, frames.lookup index = some info →
    kBacktraceEmptyIndex < index ∧ index < curHashIndex
  /-- So does the next one, once it is handed out. -/
  nextInRange : kBacktraceEmptyIndex < curHashIndex

namespace StackTable

/-- The table as `Initialize` leaves it. -/
def empty : StackTable where
  keyToIndex := ∅
  frames := ∅
  curHashIndex := kBacktraceEmptyIndex + 1
  inverse := by simp
  inRange := by simp
  nextInRange := Nat.lt_succ_self _

variable (table : StackTable)

/-- A stack is found under at most one index. -/
theorem index_unique {first second : Nat} {one two : FrameInfo}
    (foundOne : table.frames.lookup first = some one) (foundTwo : table.frames.lookup second = some two)
    (same : one.key = two.key) : first = second := by
  have looked := (table.inverse two.key first).2 ⟨one, foundOne, same⟩
  rw [(table.inverse two.key second).2 ⟨two, foundTwo, rfl⟩] at looked
  exact (Option.some.inj looked).symm

/-- The index about to be handed out is not in use. -/
theorem cur_unused : table.frames.lookup table.curHashIndex = none := by
  by_contra used
  obtain ⟨info, found⟩ := ne_none_iff_exists'.1 used
  exact Nat.lt_irrefl _ (table.inRange _ _ found).2

/-- Emplace a stack under a new index, in both maps. -/
def emplace (raw : RawStackRecord) (unseen : table.keyToIndex.lookup raw.probe = none) : StackTable where
  keyToIndex := table.keyToIndex.insert raw.probe table.curHashIndex
  frames := table.frames.insert table.curHashIndex (.ofRaw raw)
  curHashIndex := table.curHashIndex + 1
  inverse := by
    intro key index
    by_cases here : key = raw.probe
    · subst here
      rw [AList.lookup_insert]
      constructor
      · rintro ⟨⟩
        exact ⟨_, AList.lookup_insert _, FrameInfo.key_ofRaw raw⟩
      · rintro ⟨info, found, same⟩
        by_cases new : index = table.curHashIndex
        · rw [new]
        · -- An older index with this key would have been found.
          rw [AList.lookup_insert_ne new] at found
          rw [(table.inverse _ index).2 ⟨info, found, same⟩] at unseen
          cases unseen
    · rw [AList.lookup_insert_ne here, table.inverse]
      constructor
      · rintro ⟨info, found, same⟩
        have old : index ≠ table.curHashIndex := fun new => by
          rw [new, table.cur_unused] at found
          cases found
        exact ⟨info, by rwa [AList.lookup_insert_ne old], same⟩
      · rintro ⟨info, found, same⟩
        by_cases new : index = table.curHashIndex
        · rw [new, AList.lookup_insert] at found
          cases found
          exact absurd (same.symm.trans (FrameInfo.key_ofRaw raw)) here
        · exact ⟨info, by rwa [AList.lookup_insert_ne new] at found, same⟩
  inRange := by
    intro index info found
    by_cases new : index = table.curHashIndex
    · subst new
      exact ⟨table.nextInRange, Nat.lt_succ_self _⟩
    · rw [AList.lookup_insert_ne new] at found
      have range := table.inRange index info found
      exact ⟨range.1, Nat.lt_succ_of_lt range.2⟩
  nextInRange := Nat.lt_succ_of_lt table.nextInRange

variable (index : Nat)

/-- Replace an entry by one for the same stack. -/
def replace (info info' : FrameInfo) (found : table.frames.lookup index = some info)
    (same : info'.key = info.key) : StackTable where
  keyToIndex := table.keyToIndex
  frames := table.frames.insert index info'
  curHashIndex := table.curHashIndex
  inverse := by
    intro key other
    rw [table.inverse]
    by_cases here : other = index
    · subst here
      simp [found, same]
    · rw [AList.lookup_insert_ne here]
  inRange := by
    intro other entry looked
    by_cases here : other = index
    · exact here ▸ table.inRange index info found
    · exact table.inRange other entry (by rwa [AList.lookup_insert_ne here] at looked)
  nextInRange := table.nextInRange

/-- Erase an entry and its key. -/
def discard (info : FrameInfo) (found : table.frames.lookup index = some info) : StackTable where
  keyToIndex := table.keyToIndex.erase info.key
  frames := table.frames.erase index
  curHashIndex := table.curHashIndex
  inverse := by
    intro key other
    by_cases here : other = index
    · subst here
      rw [AList.lookup_erase]
      simp only [reduceCtorEq, false_and, exists_false, iff_false]
      intro looked
      by_cases same : key = info.key
      · rw [same, AList.lookup_erase] at looked
        cases looked
      · rw [AList.lookup_erase_ne same, table.inverse] at looked
        obtain ⟨entry, entryFound, entryKey⟩ := looked
        rw [found] at entryFound
        cases entryFound
        exact same entryKey.symm
    · rw [AList.lookup_erase_ne here]
      by_cases same : key = info.key
      · subst same
        rw [AList.lookup_erase]
        simp only [reduceCtorEq, false_iff, not_exists, not_and]
        exact fun entry entryFound entryKey =>
          here (table.index_unique entryFound found entryKey)
      · rw [AList.lookup_erase_ne same, table.inverse]
  inRange := by
    intro other entry looked
    by_cases here : other = index
    · rw [here, AList.lookup_erase] at looked
      cases looked
    · exact table.inRange other entry (by rwa [AList.lookup_erase_ne here] at looked)
  nextInRange := table.nextInRange

/-- The `frame_mutex_` section of `AddBacktrace`: find the stack and reference it, or emplace it. -/
def intern (raw : RawStackRecord) : Nat × StackTable :=
  match seen : table.keyToIndex.lookup raw.probe with
  | none => (table.curHashIndex, table.emplace raw seen)
  | some index =>
      let held : (table.frames.lookup index).isSome := by
        obtain ⟨info, found, -⟩ := (table.inverse _ _).1 seen
        exact Option.isSome_of_mem found
      (index, table.replace index _ ((table.frames.lookup index).get held).retain
        (Option.some_get held).symm rfl)

/-- `AddBacktrace`, given what the unwinder captured. -/
def addBacktrace (config : Config) (sizeBytes : Nat) (raw : RawStackRecord) : Nat × StackTable :=
  if !config.shouldBacktraceAllocSize sizeBytes then (kBacktraceEmptyIndex, table)
  else if !config.has optionBacktrace then (kBacktraceEmptyIndex, table)
  else if !raw.usable then (kBacktraceEmptyIndex, table)
  else table.intern raw

/-- `RemoveBacktrace`. -/
def removeBacktrace (hashIndex : Nat) : StackTable :=
  if hashIndex ≤ kBacktraceEmptyIndex then table
  else
    match found : table.frames.lookup hashIndex with
    | none => table
    | some info =>
        match less : info.release with
        | none => table.discard hashIndex info found
        | some info' => table.replace hashIndex info info' found (FrameInfo.key_release less)

/-! ### What the two operations do to one index -/

/-- `frames_[index].references`, zero when there is no such entry. -/
def references (index : Nat) : Nat := (table.frames.lookup index).elim 0 FrameInfo.references

/-- The stack an index stands for. -/
def keyAt : Option FrameKey := (table.frames.lookup index).map FrameInfo.key

theorem references_pos {index : Nat} :
    0 < table.references index ↔ ∃ info, table.frames.lookup index = some info := by
  unfold references
  cases table.frames.lookup index with
  | none => simp
  | some info => simp [info.referenced]

theorem keyAt_isSome {index : Nat} : (table.keyAt index).isSome ↔ 0 < table.references index := by
  rw [references_pos, keyAt, isSome_map, isSome_iff_exists]

/-- Different stacks stand under different indices, and one stack under one index. -/
theorem keyAt_inj {first second : Nat} {key : FrameKey} (one : table.keyAt first = some key)
    (two : table.keyAt second = some key) : first = second := by
  obtain ⟨info, foundOne, keyOne⟩ := map_eq_some_iff.1 one
  obtain ⟨info', foundTwo, keyTwo⟩ := map_eq_some_iff.1 two
  exact table.index_unique foundOne foundTwo (keyOne.trans keyTwo.symm)

theorem inRange_of_references {index : Nat} (held : 0 < table.references index) :
    kBacktraceEmptyIndex < index ∧ index < table.curHashIndex := by
  obtain ⟨info, found⟩ := table.references_pos.1 held
  exact table.inRange index info found

theorem references_insert {frames : AList fun _ : Nat => FrameInfo} (info : FrameInfo) (other : Nat) :
    ((frames.insert index info).lookup other).elim 0 FrameInfo.references =
      if other = index then info.references
      else (frames.lookup other).elim 0 FrameInfo.references := by
  split
  · next here => rw [here, AList.lookup_insert, elim_some]
  · next here => rw [AList.lookup_insert_ne here]

/-- Interning a stack adds one reference, at the index it returns. -/
theorem references_intern (raw : RawStackRecord) (index : Nat) :
    (table.intern raw).2.references index =
      table.references index + if index = (table.intern raw).1 then 1 else 0 := by
  unfold intern
  split
  · simp only [references, emplace, references_insert]
    split
    · next here => rw [here, table.cur_unused]; rfl
    · rfl
  · next found seen =>
      obtain ⟨info, looked, -⟩ := (table.inverse _ _).1 seen
      simp only [references, replace, references_insert, looked, get_some]
      split
      · next here => rw [here, looked]; rfl
      · rfl

/-- The index `intern` returns stands for the stack that was captured; no other one changes. -/
theorem keyAt_intern (raw : RawStackRecord) (index : Nat) :
    (table.intern raw).2.keyAt index =
      if index = (table.intern raw).1 then some raw.probe else table.keyAt index := by
  unfold intern
  split
  · simp only [keyAt, emplace]
    split
    · next here => rw [here, AList.lookup_insert, map_some, FrameInfo.key_ofRaw]
    · next here => rw [AList.lookup_insert_ne here]
  · next found seen =>
      obtain ⟨info, looked, same⟩ := (table.inverse _ _).1 seen
      simp only [keyAt, replace, looked, get_some]
      split
      · next here => rw [here, AList.lookup_insert, map_some, FrameInfo.key_retain, same]
      · next here => rw [AList.lookup_insert_ne here]

theorem intern_index (raw : RawStackRecord) : kBacktraceEmptyIndex < (table.intern raw).1 := by
  unfold intern
  split
  · exact table.nextInRange
  · next found seen =>
      obtain ⟨info, looked, -⟩ := (table.inverse _ _).1 seen
      exact (table.inRange _ info looked).1

/-- `intern` hands out the next index, or one that already stands for the stack. -/
theorem intern_fresh_or_found (raw : RawStackRecord) :
    ((table.intern raw).1 = table.curHashIndex ∧
        (table.intern raw).2.curHashIndex = table.curHashIndex + 1) ∨
      (table.keyAt (table.intern raw).1 = some raw.probe ∧
        (table.intern raw).2.curHashIndex = table.curHashIndex) := by
  unfold intern
  split
  · exact .inl ⟨rfl, rfl⟩
  · next found seen =>
      obtain ⟨info, looked, same⟩ := (table.inverse _ _).1 seen
      exact .inr ⟨by rw [keyAt, looked, map_some, same], rfl⟩

section

variable (config : Config) (sizeBytes : Nat) (raw : RawStackRecord)

/-- `AddBacktrace` either declines, or interns the captured stack. -/
theorem addBacktrace_cases :
    table.addBacktrace config sizeBytes raw = (kBacktraceEmptyIndex, table) ∨
      table.addBacktrace config sizeBytes raw = table.intern raw := by
  unfold addBacktrace
  split
  · exact .inl rfl
  · split
    · exact .inl rfl
    · split
      · exact .inl rfl
      · exact .inr rfl

/-- An index `AddBacktrace` returns is never the one that means "do not track". -/
theorem addBacktrace_index : kBacktraceExitIndex < (table.addBacktrace config sizeBytes raw).1 := by
  rcases table.addBacktrace_cases config sizeBytes raw with declined | interned
  · rw [declined]
    exact Nat.one_pos
  · rw [interned]
    exact Nat.zero_lt_of_lt (table.intern_index raw)

/-- Above the empty index, `AddBacktrace` adds one reference at the index it returns. -/
theorem references_addBacktrace {index : Nat} (stack : kBacktraceEmptyIndex < index) :
    (table.addBacktrace config sizeBytes raw).2.references index =
      table.references index + if index = (table.addBacktrace config sizeBytes raw).1 then 1 else 0 := by
  rcases table.addBacktrace_cases config sizeBytes raw with declined | interned
  · rw [declined, if_neg (Nat.ne_of_gt stack), Nat.add_zero]
  · rw [interned, references_intern]

end

/-- `RemoveBacktrace` drops one reference, if there is one. -/
theorem references_removeBacktrace (hashIndex index : Nat) :
    (table.removeBacktrace hashIndex).references index =
      table.references index - if index = hashIndex then 1 else 0 := by
  unfold removeBacktrace
  split
  · next small =>
      split
      · next here =>
          have none_held : ¬ 0 < table.references index := fun held =>
            Nat.not_lt_of_le (here ▸ small) (table.inRange_of_references held).1
          omega
      · rfl
  · split
    · next found =>
        split
        · next here => rw [here, references, found]; rfl
        · rfl
    · next info found =>
        split
        · next less =>
            simp only [references, discard]
            split
            · next here =>
                rw [here, AList.lookup_erase, found]
                simp only [FrameInfo.release, dite_eq_left_iff, reduceCtorEq, imp_false,
                  Decidable.not_not] at less
                exact less.symm
            · next here => rw [AList.lookup_erase_ne here]; rfl
        · next info' less =>
            simp only [references, replace, references_insert]
            split
            · next here =>
                rw [here, found]
                unfold FrameInfo.release at less
                split at less <;> cases less
                rfl
            · rfl

@[simp] theorem removeBacktrace_curHashIndex (hashIndex : Nat) :
    (table.removeBacktrace hashIndex).curHashIndex = table.curHashIndex := by
  unfold removeBacktrace
  split
  · rfl
  · split
    · rfl
    · split <;> rfl

/-- `RemoveBacktrace` changes no stack that stays referenced. -/
theorem keyAt_removeBacktrace {hashIndex index : Nat}
    (held : 0 < (table.removeBacktrace hashIndex).references index) :
    (table.removeBacktrace hashIndex).keyAt index = table.keyAt index := by
  unfold removeBacktrace at held ⊢
  split at held
  · next small => rw [if_pos small]
  · next large =>
      rw [if_neg large]
      split at held
      · rfl
      · next info found =>
          split at held
          · simp only [keyAt, discard, references] at held ⊢
            by_cases here : index = hashIndex
            · rw [here, AList.lookup_erase] at held
              cases held
            · rw [AList.lookup_erase_ne here]
          · next info' less =>
              simp only [keyAt, replace]
              by_cases here : index = hashIndex
              · rw [here, AList.lookup_insert, found, map_some, map_some, FrameInfo.key_release less]
              · rw [AList.lookup_insert_ne here]

end StackTable

end MallocHook
