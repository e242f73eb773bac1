/-
Module: MallocHook.Proofs.LongLines
Purpose: What the readers of /proc do with a line that does not fit their buffer: its front is cut off,
  and what is left of it is read as a line.
Trusted boundary: none
Main exports: DropsWhole.of_inert, long_lines_dropped_iff, long_line_counted
-/
import MallocHook.Proofs.DmaNames
import MallocHook.Proofs.LineReaders

namespace MallocHook

open List

/-! ### Dropping whole lines -/

section

variable {σ ρ : Type}

/-- A line that does not fit the buffer of a reader. -/
def OverLong (reader : Refill Char σ) (line : List Char) : Prop :=
  reader.size - 1 ≤ line.length ∧ '\n' ∉ line

/-- Every file whose long lines are among some gives what its other lines give, with what is carried from
line to line cleared where those stood. -/
def DropsWhole (reader : Refill Char σ) (s : σ) (shown : σ → ρ)
    (read : Nat → List Nat → Option (List Char) → Option ρ) (long : Set (List Char)) : Prop :=
  ∀ content fuel choices, content.length < fuel →
    (∀ line ∈ completeLines content, OverLong reader line → line ∈ long) →
    read fuel choices (some content) = some (shown ((completeLines content).foldl reader.dropLong s))

variable {reader : Refill Char σ} {s : σ} {shown : σ → ρ}
  {read : Nat → List Nat → Option (List Char) → Option ρ} {long : Set (List Char)}

variable {line : List Char}

theorem completeLines_cons (inside : '\n' ∉ line) (rest : List Char) :
    completeLines (line ++ '\n' :: rest) = line :: completeLines rest := by
  rw [completeLines, LineStream.cut_line inside]
  rfl

-- The reader gives what its lines, cut where the buffer is full, leave; clearing twice is clearing once.
variable
  (reads : ∀ content fuel choices, content.length < fuel →
    read fuel choices (some content) = some (shown ((completeLines content).foldl reader.feed s)))
  (roomy : 1 < reader.size) (idempotent : ∀ s, reader.reset (reader.reset s) = reader.reset s)
include reads roomy idempotent

/-- Lines whose rest does nothing that shows are as good as dropped. -/
theorem DropsWhole.of_inert (same : σ → σ → Prop) (refl : ∀ s, same s s)
    (trans : ∀ {a b c}, same a b → same b c → same a c)
    (step_same : ∀ {s s'} line, same s s' → same (reader.step s line) (reader.step s' line))
    (reset_same : ∀ {s s'}, same s s' → same (reader.reset s) (reader.reset s'))
    (shown_same : ∀ {s s'}, same s s' → shown s = shown s') (inert : ∀ line ∈ long, OverLong reader line →
      ∀ s, same (reader.step (reader.reset s) (reader.fragment line)) (reader.reset s)) :
    DropsWhole reader s shown read long := by
  intro content fuel choices enough known
  rw [reads content fuel choices enough]
  congr 1
  apply shown_same
  apply Refill.foldl_feed_same same idempotent roomy trans step_same reset_same _ (refl s)
  intro line member notShort
  have tooLong : OverLong reader line :=
    ⟨Nat.le_of_not_lt notShort, (LineStream.not_mem_cut '\n' content).1 line member⟩
  exact inert line (known line member tooLong) tooLong

/-- The same, where it leaves the state as it is. -/
theorem DropsWhole.of_still (still : ∀ line ∈ long, OverLong reader line →
      ∀ s, reader.step (reader.reset s) (reader.fragment line) = reader.reset s) :
    DropsWhole reader s shown read long :=
  .of_inert reads roomy idempotent Eq (fun _ => rfl) Eq.trans (fun line => congrArg (reader.step · line))
    (congrArg reader.reset) (congrArg shown) still

variable (dropped : DropsWhole reader s shown read long) (member : line ∈ long)
    (tooLong : OverLong reader line)
include dropped member tooLong

/-- A file that begins with a line that does not fit, then has lines that do. -/
theorem DropsWhole.first_line {rest : List Char} (fit : LinesFit reader.size rest) :
    shown ((completeLines rest).foldl reader.step (reader.step (reader.reset s) (reader.fragment line))) =
      shown ((completeLines rest).foldl reader.step (reader.reset s)) := by
  have lines := completeLines_cons tooLong.2 rest
  have notShort : ¬ line.length < reader.size - 1 := Nat.not_lt.2 tooLong.1
  have enough := Nat.lt_succ_self (line ++ '\n' :: rest).length
  have result := dropped (line ++ '\n' :: rest) _ [] enough (by
    intro other within itself
    rw [lines, mem_cons] at within
    rcases within with rfl | later
    · exact member
    · exact absurd (fit other later) (Nat.not_lt.2 itself.1))
  have drops : ∀ s, (completeLines rest).foldl reader.dropLong s = (completeLines rest).foldl
    reader.step s :=
    fun s => foldl_ext _ _ s fun _ _ within => if_pos (fit _ within)
  rw [reads _ _ _ enough, lines, foldl_cons, foldl_cons, Refill.foldl_feed_of_short fit,
    Refill.feed_of_long idempotent roomy notShort, Refill.dropLong, if_neg notShort, drops] at result
  exact Option.some.inj result

/-- What is left of the line shows nothing by itself. -/
theorem DropsWhole.alone :
    shown (reader.step (reader.reset s) (reader.fragment line)) = shown (reader.reset s) := by
  have fit : LinesFit reader.size [] := fun _ within => absurd within not_mem_nil
  exact dropped.first_line reads roomy idempotent member tooLong fit

/-- Nor does it show in what the next line does. -/
theorem DropsWhole.before {next : List Char} (inside : '\n' ∉ next) (short : next.length < reader.size - 1) :
    shown (reader.step (reader.step (reader.reset s) (reader.fragment line)) next) =
      shown (reader.step (reader.reset s) next) := by
  have lines : completeLines (next ++ ['\n']) = [next] := completeLines_cons inside []
  have fit : LinesFit reader.size (next ++ ['\n']) := by
    rw [LinesFit, lines]
    exact forall_mem_singleton.2 short
  have result := dropped.first_line reads roomy idempotent member tooLong fit
  rwa [lines] at result

end

/-! ### Device regions -/

/-- What the next line with a residency will count against: nothing outside a device region. -/
def GpuRegionScan.counted (scan : GpuRegionScan) : UInt64 := if scan.inGpuRegion then scan.regionSize else 0

/-- A line sees no more of the scan than that. -/
theorem gpuMmapBytesFromSmapsLine_counted (line : CString) :
    ∃ bytes next : UInt64 → UInt64, ∀ scan,
      (gpuMmapBytesFromSmapsLine line scan).1 = bytes scan.counted ∧
        (gpuMmapBytesFromSmapsLine line scan).2.counted = next scan.counted := by
  unfold gpuMmapBytesFromSmapsLine
  cases scanRange line with
  | some range =>
      obtain ⟨start, stop, rest⟩ := range
      exact ⟨fun _ => 0, fun _ => GpuRegionScan.counted
        ⟨namesGpuNode line, if stop > start then stop - start else 0⟩,
        fun scan => ⟨rfl, rfl⟩⟩
  | none =>
      cases "Rss:".toList.isPrefixOf line with
      | false => exact ⟨fun _ => 0, id, fun scan => by simp⟩
      | true =>
          cases scanRss line with
          | none =>
              refine ⟨fun _ => 0, fun _ => 0, fun scan => ?_⟩
              obtain ⟨inside, size⟩ := scan
              cases inside <;> simp [GpuRegionScan.counted]
          | some rssKb =>
              refine ⟨fun size => if size > kibibytes (if rssKb < 0 then 0 else rssKb) then
                size - kibibytes (if rssKb < 0 then 0 else rssKb) else 0, fun _ => 0, fun scan => ?_⟩
              obtain ⟨inside, size⟩ := scan
              cases inside <;> simp [GpuRegionScan.counted]

/-- From a cleared scan, a line counts nothing, and leaves the size of the device region it is the header
of. -/
theorem GpuMmapState.line_cleared (total : UInt64) (line : CString) :
    (GpuMmapState.line { total } line).total = total ∧
      (GpuMmapState.line { total } line).scan.counted = gpuMappedBytesFromMapsLine line := by
  unfold GpuMmapState.line gpuMmapBytesFromSmapsLine gpuMappedBytesFromMapsLine
  cases scanRange line with
  | none => exact ⟨UInt64.add_zero total, rfl⟩
  | some range =>
      obtain ⟨start, stop, rest⟩ := range
      refine ⟨UInt64.add_zero total, ?_⟩
      simp only [GpuRegionScan.counted]
      cases namesGpuNode line with
      | false => simp
      | true =>
          by_cases ordered : stop ≤ start
          · simp [ordered]
          · simp [ordered, UInt64.not_le.1 ordered]

/-- A residency of zero shows the size of the region that is open. -/
theorem GpuMmapState.total_not_resident (s : GpuMmapState) :
    (s.line "Rss: 0".toList).total = s.total + s.scan.counted := by
  have field : scanRange "Rss: 0".toList = none := by decide
  have value : scanRss "Rss: 0".toList = some 0 := by decide
  have named : "Rss:".toList.isPrefixOf "Rss: 0".toList = true := by decide
  unfold GpuMmapState.line gpuMmapBytesFromSmapsLine GpuRegionScan.counted
  rw [field, value, named]
  dsimp only
  cases s.scan.inGpuRegion with
  | false => rfl
  | true =>
      have zero : kibibytes 0 = 0 := by decide
      by_cases empty : s.scan.regionSize = 0
      · simp [empty]
      · simp [zero, UInt64.pos_iff_ne_zero.2 empty]

/-- Equal totals, and nothing that a later line can tell apart. -/
def GpuMmapState.Alike (s s' : GpuMmapState) : Prop :=
  s.total = s'.total ∧ s.scan.counted = s'.scan.counted

theorem GpuMmapState.Alike.line {s s' : GpuMmapState} (alike : s.Alike s') (line : CString) :
    (s.line line).Alike (s'.line line) := by
  obtain ⟨bytes, next, only⟩ := gpuMmapBytesFromSmapsLine_counted line
  obtain ⟨same, counts⟩ := alike
  constructor
  · change s.total + _ = s'.total + _
    rw [same, (only s.scan).1, (only s'.scan).1, counts]
  · change (gpuMmapBytesFromSmapsLine line s.scan).2.counted =
      (gpuMmapBytesFromSmapsLine line s'.scan).2.counted
    rw [(only s.scan).2, (only s'.scan).2, counts]

theorem gpuMmap_dropsWhole_iff (long : Set (List Char)) :
    DropsWhole gpuMmapReader {} (fun s => some s.total) readGpuMmapBytesFrom long ↔
      ∀ line ∈ long, OverLong gpuMmapReader line →
        gpuMappedBytesFromMapsLine (cString (gpuMmapReader.fragment line)) = 0 := by
  have reads : ∀ content fuel choices, content.length < fuel →
      readGpuMmapBytesFrom fuel choices (some content) =
        some (some ((completeLines content).foldl gpuMmapReader.feed {}).total) :=
    fun _ _ choices enough => readGpuMmapBytesFrom_eq enough choices
  constructor
  · intro dropped line member tooLong
    obtain ⟨nothing, region⟩ := GpuMmapState.line_cleared 0 (cString (gpuMmapReader.fragment line))
    have result := dropped.before reads (by decide) (fun _ => rfl) member tooLong
      (by decide : '\n' ∉ "Rss: 0".toList) (by decide)
    have total : (GpuMmapState.line (GpuMmapState.line { total := 0 }
      (cString (gpuMmapReader.fragment line))) "Rss: 0".toList).total = 0 := Option.some.inj result
    rwa [GpuMmapState.total_not_resident, nothing, region, UInt64.zero_add] at total
  · intro inert
    apply DropsWhole.of_inert reads (by decide) (fun _ => rfl) GpuMmapState.Alike (fun _ => ⟨rfl, rfl⟩)
    · exact fun first second => ⟨first.1.trans second.1, first.2.trans second.2⟩
    · exact fun line alike => alike.line _
    · exact fun alike => ⟨alike.1, rfl⟩
    · exact fun alike => congrArg some alike.1
    · intro line member tooLong s
      obtain ⟨nothing, region⟩ := GpuMmapState.line_cleared s.total (cString (gpuMmapReader.fragment line))
      exact ⟨nothing, region.trans (inert line member tooLong)⟩

/-! ### Readers that carry nothing -/

/-- A reader that adds up what each line counts. -/
theorem counting_dropsWhole_iff {reader : Refill Char UInt64} (bytes : CString → UInt64)
    (steps : ∀ total line, reader.step total line = total + bytes (cString line)) (keeps : reader.reset = id)
    (roomy : 1 < reader.size) {read : Nat → List Nat → Option (List Char) → Option (Option UInt64)}
    (reads : ∀ content fuel choices, content.length < fuel →
      read fuel choices (some content) = some (some ((completeLines content).foldl reader.feed 0)))
    (long : Set (List Char)) :
    DropsWhole reader 0 some read long ↔
      ∀ line ∈ long, OverLong reader line → bytes (cString (reader.fragment line)) = 0 := by
  have idempotent : ∀ s, reader.reset (reader.reset s) = reader.reset s := by simp [keeps]
  constructor
  · intro dropped line member tooLong
    have result := dropped.alone reads roomy idempotent member tooLong
    have sum : reader.step (reader.reset 0) (reader.fragment line) = reader.reset 0 := Option.some.inj result
    rwa [steps, keeps, id_eq, UInt64.zero_add] at sum
  · intro idle
    apply DropsWhole.of_still reads roomy idempotent
    intro line member tooLong total
    rw [steps, idle line member tooLong, UInt64.add_zero]

/-- A line of maps that the mapping pass takes for a dma-buf. -/
def MapsDmaBuf (line : CString) : Prop :=
  containsDmaBuf line = true ∧ ∃ start stop inode, scanInode line = some (start, stop, inode) ∧ start < stop

theorem dmaBytesFromMapsLine_of_not {line : CString} (other : ¬ MapsDmaBuf line) (set : DmaInodeSet)
    (sawAny : Bool) : dmaBytesFromMapsLine line set sawAny = (0, set, sawAny) := by
  unfold dmaBytesFromMapsLine
  split
  · rfl
  · next occurs =>
      cases scanned : scanInode line with
      | none => rfl
      | some found =>
          obtain ⟨start, stop, inode⟩ := found
          apply if_pos
          by_contra ordered
          exact other ⟨Option.isSome_iff_ne_none.2 occurs, start, stop, inode, scanned,
            UInt64.not_le.1 ordered⟩

theorem dmaBytesFromMapsLine_saw {line : CString} (buffer : MapsDmaBuf line) (set : DmaInodeSet)
    (sawAny : Bool) : (dmaBytesFromMapsLine line set sawAny).2.2 = true := by
  obtain ⟨occurs, start, stop, inode, scanned, ordered⟩ := buffer
  rw [dmaBytesFromMapsLine, if_neg (Option.isSome_iff_ne_none.1 occurs), scanned]
  dsimp only
  rw [if_neg (UInt64.not_le.2 ordered)]

theorem dmaMaps_dropsWhole_iff (long : Set (List Char)) :
    (∀ set sawAny, DropsWhole dmaMapsReader { set, sawAny } id
        (fun fuel choices => readDmaBytesFromMaps fuel choices set sawAny) long) ↔
      ∀ line ∈ long, OverLong dmaMapsReader line → ¬ MapsDmaBuf (cString (dmaMapsReader.fragment line)) := by
  have reads : ∀ set sawAny content fuel choices, content.length < fuel →
      readDmaBytesFromMaps fuel choices set sawAny (some content) =
        some ((completeLines content).foldl dmaMapsReader.feed { set, sawAny }) :=
    fun set sawAny _ _ choices enough => readDmaBytesFromMaps_eq enough choices set sawAny
  constructor
  · intro dropped line member tooLong buffer
    have result := (dropped .zero false).alone (reads .zero false) (by decide) (fun _ => rfl) member tooLong
    have flag : (dmaBytesFromMapsLine (cString (dmaMapsReader.fragment line)) .zero false).2.2 = false :=
      congrArg DmaScan.sawAny result
    rw [dmaBytesFromMapsLine_saw buffer] at flag
    cases flag
  · intro other set sawAny
    apply DropsWhole.of_still (reads set sawAny) (by decide) (fun _ => rfl)
    intro line member tooLong s
    change DmaScan.line s (cString (dmaMapsReader.fragment line)) = s
    rw [DmaScan.line, dmaBytesFromMapsLine_of_not (other line member tooLong)]
    simp

/-! ### The three sums -/

/-- Outside device regions a line adds to the residency of all regions or to the mapped total, or neither. -/
theorem SmapsScan.line_outside (line : CString) :
    ∃ rss mapped device, ∀ s : SmapsScan, s.inDevice = false →
      s.line line = ⟨⟨s.reading.allRssBytes + rss, s.reading.deviceRssBytes⟩,
      s.deviceMappedBytes + mapped, device⟩ := by
  have unchanged : ∃ rss mapped device, ∀ s : SmapsScan, s.inDevice = false →
      s = ⟨⟨s.reading.allRssBytes + rss, s.reading.deviceRssBytes⟩,
        s.deviceMappedBytes + mapped, device⟩ := by
    refine ⟨0, 0, false, fun s outside => ?_⟩
    simp [← outside]
  unfold SmapsScan.line
  cases scanRange line with
  | some range =>
      obtain ⟨lo, hi, rest⟩ := range
      refine ⟨0, if namesGpuNode line = true ∧ hi > lo then hi - lo else 0, namesGpuNode line, fun s _ => ?_⟩
      by_cases counts : namesGpuNode line = true ∧ hi > lo
      · simp [counts]
      · simp only [if_neg counts, UInt64.add_zero]
  | none =>
      cases "Rss:".toList.isPrefixOf line with
      | false => simpa using unchanged
      | true =>
          cases scanRss line with
          | none => simpa using unchanged
          | some rssKb =>
              by_cases negative : rssKb < 0
              · simpa [negative] using unchanged
              · refine ⟨kibibytes rssKb, 0, false, fun s outside => ?_⟩
                simp [negative, outside]

/-- A residency of one KiB shows whether the region that is open is a device region. -/
theorem SmapsScan.line_one (s : SmapsScan) :
    s.line "Rss: 1".toList =
      ⟨⟨s.reading.allRssBytes + 1024,
        if s.inDevice then s.reading.deviceRssBytes + 1024 else s.reading.deviceRssBytes⟩,
        s.deviceMappedBytes, s.inDevice⟩ := by
  have field : scanRange "Rss: 1".toList = none := by decide
  have value : scanRss "Rss: 1".toList = some 1 := by decide
  have named : "Rss:".toList.isPrefixOf "Rss: 1".toList = true := by decide
  have size : kibibytes 1 = 1024 := by decide
  rw [SmapsScan.line, field, value, named]
  simp [size]

theorem smaps_dropsWhole_iff (long : Set (List Char)) :
    DropsWhole smapsReader {} (fun s => some (s.reading, s.deviceMappedBytes)) readGpuSmapsReading long ↔
      ∀ line ∈ long, OverLong smapsReader line →
        SmapsScan.line {} (cString (smapsReader.fragment line)) = {} := by
  have reads : ∀ content fuel choices, content.length < fuel →
      readGpuSmapsReading fuel choices (some content) =
        some (some (((completeLines content).foldl smapsReader.feed {}).reading,
          ((completeLines content).foldl smapsReader.feed {}).deviceMappedBytes)) :=
    fun _ _ choices enough => readGpuSmapsReading_eq enough choices
  constructor
  · intro dropped line member tooLong
    have result := dropped.before reads (by decide) (fun _ => rfl) member tooLong
      (by decide : '\n' ∉ "Rss: 1".toList) (by decide)
    obtain ⟨rss, mapped, device, adds⟩ := SmapsScan.line_outside (cString (smapsReader.fragment line))
    have begun := adds {} rfl
    have shown : ((SmapsScan.line (SmapsScan.line {} (cString (smapsReader.fragment line)))
      "Rss: 1".toList).reading,
        (SmapsScan.line (SmapsScan.line {} (cString (smapsReader.fragment line)))
          "Rss: 1".toList).deviceMappedBytes) =
          ((SmapsScan.line {} "Rss: 1".toList).reading,
            (SmapsScan.line {} "Rss: 1".toList).deviceMappedBytes) :=
      Option.some.inj result
    rw [SmapsScan.line_one, SmapsScan.line_one, begun] at shown
    cases device with
    | true => simp at shown
    | false =>
        rw [begun]
        simpa using shown
  · intro idle
    apply DropsWhole.of_still reads (by decide) (fun _ => rfl)
    intro line member tooLong s
    obtain ⟨rss, mapped, device, adds⟩ := SmapsScan.line_outside (cString (smapsReader.fragment line))
    have begun := (adds {} rfl).symm.trans (idle line member tooLong)
    simp only [SmapsScan.mk.injEq, GpuSmapsReading.mk.injEq, UInt64.zero_add] at begun
    obtain ⟨⟨rfl, -⟩, rfl, rfl⟩ := begun
    change SmapsScan.line (smapsReader.reset s) (cString (smapsReader.fragment line)) = _
    rw [adds _ rfl]
    simp [smapsReader]

/-! ### All readers -/

/-- Each reader gives, for all files whose lines that do not fit are among some, what their other lines
give, if and only if what is left of those lines behind the full buffers at their front does nothing that
shows. -/
theorem long_lines_dropped_iff (long : Set (List Char)) :
    (DropsWhole gpuMmapReader {} (fun s => some s.total) readGpuMmapBytesFrom long ↔
      ∀ line ∈ long, OverLong gpuMmapReader line →
        gpuMappedBytesFromMapsLine (cString (gpuMmapReader.fragment line)) = 0) ∧
    (DropsWhole gpuMappedReader 0 some readGpuMappedBytesFrom long ↔
      ∀ line ∈ long, OverLong gpuMappedReader line →
        gpuMappedBytesFromMapsLine (cString (gpuMappedReader.fragment line)) = 0) ∧
    (DropsWhole smapsReader {} (fun s => some (s.reading, s.deviceMappedBytes)) readGpuSmapsReading long ↔
      ∀ line ∈ long, OverLong smapsReader line →
        SmapsScan.line {} (cString (smapsReader.fragment line)) = {}) ∧
    ((∀ set sawAny, DropsWhole dmaMapsReader { set, sawAny } id
        (fun fuel choices => readDmaBytesFromMaps fuel choices set sawAny) long) ↔
      ∀ line ∈ long, OverLong dmaMapsReader line → ¬ MapsDmaBuf (cString (dmaMapsReader.fragment line))) ∧
    ∀ pid, DropsWhole (ionReader pid) 0 some (readIonProcInfoBytesFrom pid) long ↔
      ∀ line ∈ long, OverLong (ionReader pid) line →
        ionBytesFromLine pid (cString ((ionReader pid).fragment line)) = 0 := by
  refine ⟨gpuMmap_dropsWhole_iff long, ?_, smaps_dropsWhole_iff long,
    dmaMaps_dropsWhole_iff long, fun pid => ?_⟩
  · exact counting_dropsWhole_iff gpuMappedBytesFromMapsLine (fun _ _ => rfl) rfl (by decide)
      (fun _ _ choices enough => readGpuMappedBytesFrom_eq enough choices) long
  · exact counting_dropsWhole_iff (ionBytesFromLine pid) (fun _ _ => rfl) rfl (by decide : 1 < 8192)
      (fun _ _ choices enough => readIonProcInfoBytesFrom_eq enough choices pid) long

/-! ### A line that is counted though it does not fit -/

/-- The header of a device region behind a full buffer of other characters. -/
def longHeader : List Char :=
  List.replicate 16383 'x' ++ "1000-2000 rw-s 0 0:0 7 /dev/kgsl".toList

/-- However it is read, the region that begins in the middle of the line is counted. -/
theorem long_line_counted :
    OverLong gpuMappedReader longHeader ∧
      (completeLines (longHeader ++ ['\n'])).foldl gpuMappedReader.dropLong 0 = 0 ∧
      ∀ choices, readGpuMappedBytesFrom 16500 choices (some (longHeader ++ ['\n'])) =
      some (some 0x1000) := by
  have fills : (List.replicate 16383 'x').length = gpuMappedReader.size - 1 := length_replicate
  have inside : '\n' ∉ longHeader := by
    rw [longHeader, mem_append, not_or]
    exact ⟨fun member => absurd (eq_of_mem_replicate member) (by decide), by decide⟩
  have length : longHeader.length = 16415 := by
    rw [longHeader, length_append, fills]
    rfl
  have tooLong : gpuMappedReader.size - 1 ≤ longHeader.length := by
    rw [length]
    decide
  have lines : completeLines (longHeader ++ ['\n']) = [longHeader] := completeLines_cons inside []
  refine ⟨⟨tooLong, inside⟩, ?_, fun choices => ?_⟩
  · rw [lines, foldl_cons, foldl_nil, Refill.dropLong, if_neg (Nat.not_lt.2 tooLong)]
    rfl
  · have enough : (longHeader ++ ['\n']).length < 16500 := by
      rw [length_append, length]
      decide
    have rest : "1000-2000 rw-s 0 0:0 7 /dev/kgsl".toList.length < gpuMappedReader.size - 1 := by decide
    rw [readGpuMappedBytesFrom_eq enough, lines, foldl_cons, foldl_nil, longHeader,
      Refill.feed_append (by decide) fills, Refill.feed_of_short rest]
    decide

end MallocHook
