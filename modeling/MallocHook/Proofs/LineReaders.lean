/-
Module: MallocHook.Proofs.LineReaders
Purpose: What the readers of /proc return as a function of the text alone, however the reads split a
  file whose lines fit the buffer.
Trusted boundary: none
Main exports: readFile_view, ReadersFoldLines, readers_fold_lines
-/
import MallocHook.Core.ProcReaders

namespace MallocHook

/-- The lines of a file that end in a newline. -/
def completeLines (content : List Char) : List (List Char) := (LineStream.cut '\n' content).1

variable {content : List Char} {fuel : Nat}

/-! ### What each reader returns -/

theorem readFile_view {σ ρ : Type} (reader : Refill Char σ) (view : σ → ρ) (newline : reader.newline = '\n')
    (roomy : 1 < reader.size) (hidden : ∀ s, view (reader.reset s) = view s) (enough : content.length < fuel)
    (choices : List Nat) (s : σ) :
    (readFile reader fuel choices s (some content)).map (·.map view) =
      some (some (view ((completeLines content).foldl reader.feed s))) := by
  have reads := Refill.readLoop_view hidden roomy enough choices s
  rw [newline] at reads
  rw [readFile, Option.map_map, completeLines]
  simpa using congrArg (Option.map some) reads

/-- Where throwing away a buffer changes nothing, the whole state shows. -/
theorem readFile_eq {σ : Type} (reader : Refill Char σ) (newline : reader.newline = '\n')
    (roomy : 1 < reader.size) (hidden : reader.reset = id) (enough : content.length < fuel)
    (choices : List Nat) (s : σ) :
    readFile reader fuel choices s (some content) =
    some (some ((completeLines content).foldl reader.feed s)) := by
  have reads := readFile_view reader id newline roomy (congrFun hidden) enough choices s
  simpa using reads

section

variable (enough : content.length < fuel) (choices : List Nat)
include enough

theorem readGpuMmapBytesFrom_eq :
    readGpuMmapBytesFrom fuel choices (some content) =
      some (some ((completeLines content).foldl gpuMmapReader.feed {}).total) :=
  readFile_view gpuMmapReader GpuMmapState.total rfl (by decide) (fun _ => rfl) enough choices {}

theorem readGpuMappedBytesFrom_eq :
    readGpuMappedBytesFrom fuel choices (some content) =
      some (some ((completeLines content).foldl gpuMappedReader.feed 0)) :=
  readFile_eq gpuMappedReader rfl (by decide) rfl enough choices 0

theorem readGpuSmapsReading_eq :
    readGpuSmapsReading fuel choices (some content) =
      some (some (((completeLines content).foldl smapsReader.feed {}).reading,
        ((completeLines content).foldl smapsReader.feed {}).deviceMappedBytes)) :=
  readFile_view smapsReader (fun s => (s.reading, s.deviceMappedBytes)) rfl (by decide) (fun _ => rfl) enough
    choices {}

theorem readDmaBytesFromMaps_eq (set : DmaInodeSet) (sawAny : Bool) :
    readDmaBytesFromMaps fuel choices set sawAny (some content) =
      some ((completeLines content).foldl dmaMapsReader.feed { set, sawAny }) := by
  have reads := readFile_eq dmaMapsReader rfl (by decide) rfl enough choices { set, sawAny }
  rw [readDmaBytesFromMaps, reads]
  rfl

theorem readIonProcInfoBytesFrom_eq (pid : Int32) :
    readIonProcInfoBytesFrom pid fuel choices (some content) =
      some (some ((completeLines content).foldl (ionReader pid).feed 0)) :=
  readFile_eq (ionReader pid) rfl (by decide : 1 < 8192) rfl enough choices 0

end

/-! ### Lines that fit -/

/-- All complete lines of a file fit a buffer, with its terminator to spare. -/
def LinesFit (size : Nat) (content : List Char) : Prop :=
  ∀ line ∈ completeLines content, line.length < size - 1

/-- Lines that fit and have no NUL are seen as they are. -/
theorem foldl_feed_lines {σ : Type} (reader : Refill Char σ) (step : σ → CString → σ)
    (steps : ∀ s line, reader.step s line = step s (cString line)) (fit : LinesFit reader.size content)
    (plain : '\x00' ∉ content) (s : σ) :
    (completeLines content).foldl reader.feed s = (completeLines content).foldl step s := by
  have seen : ∀ s, ∀ line ∈ completeLines content, reader.feed s line = step s line := by
    intro s line member
    have clear : '\x00' ∉ line := fun within => plain (LineStream.mem_of_mem_cut member within)
    rw [Refill.feed_of_short (fit line member), steps, cString_of_not_mem clear]
  exact List.foldl_ext _ _ s seen

/-- A read returns something until there is nothing left: the loop has ended with nothing left to read. -/
def ReadsToTheEnd {σ : Type} (reader : Refill Char σ) (fuel : Nat) (choices : List Nat) (s : σ)
    (content : List Char) : Prop :=
  ∃ ended, reader.readLoop fuel choices s [] content = some (ended, [])

theorem readsToTheEnd {σ : Type} (reader : Refill Char σ) (roomy : 1 < reader.size)
    (enough : content.length < fuel) (choices : List Nat) (s : σ) :
    ReadsToTheEnd reader fuel choices s content :=
  ⟨_, Refill.readLoop_eq roomy enough choices s List.not_mem_nil (by rw [List.length_nil]; omega)⟩

/-- The readers are folds of what they do with a line, on a file that is read in some way. -/
structure ReadersFoldLines (content : List Char) (fuel : Nat) (choices : List Nat) : Prop where
  gpuMmap : LinesFit 16384 content →
    readGpuMmapBytesFrom fuel choices (some content) =
      some (some ((completeLines content).foldl GpuMmapState.line {}).total)
  gpuMmapText : LinesFit 16384 content → (LineStream.cut '\n' content).2 = [] →
    readGpuMmapBytesFrom fuel choices (some content) = some (some (gpuMmapBytesFromSmapsText content))
  gpuMapped : LinesFit 16384 content →
    readGpuMappedBytesFrom fuel choices (some content) =
      some (some ((completeLines content).foldl (fun total line =>
        total + gpuMappedBytesFromMapsLine line) 0))
  gpuSmaps : LinesFit 16384 content →
    readGpuSmapsReading fuel choices (some content) =
      some (some (((completeLines content).foldl SmapsScan.line {}).reading,
        ((completeLines content).foldl SmapsScan.line {}).deviceMappedBytes))
  dmaMaps : LinesFit 16384 content → ∀ set sawAny,
    readDmaBytesFromMaps fuel choices set sawAny (some content) =
      some ((completeLines content).foldl DmaScan.line { set, sawAny })
  ion : LinesFit 8192 content → ∀ pid,
    readIonProcInfoBytesFrom pid fuel choices (some content) =
      some (some ((completeLines content).foldl (fun total line => total + ionBytesFromLine pid line) 0))
  ends : ReadsToTheEnd gpuMmapReader fuel choices {} content ∧
    ReadsToTheEnd gpuMappedReader fuel choices 0 content ∧
    ReadsToTheEnd smapsReader fuel choices {} content ∧
    (∀ set sawAny, ReadsToTheEnd dmaMapsReader fuel choices { set, sawAny } content) ∧
    ∀ pid, ReadsToTheEnd (ionReader pid) fuel choices 0 content

/-- However the reads split a file without NUL bytes, the readers apply their steps to its lines in order,
end, and ask for something as long as something is left. -/
theorem readers_fold_lines (content : List Char) (plain : '\x00' ∉ content) (fuel : Nat)
    (enough : content.length < fuel) (choices : List Nat) : ReadersFoldLines content fuel choices := by
  have gpuMmap : LinesFit 16384 content → readGpuMmapBytesFrom fuel choices (some content) =
      some (some ((completeLines content).foldl GpuMmapState.line {}).total) := by
    intro fit
    rw [readGpuMmapBytesFrom_eq enough, foldl_feed_lines gpuMmapReader GpuMmapState.line
      (fun _ _ => rfl) fit plain]
  constructor
  · exact gpuMmap
  · intro fit terminated
    rw [gpuMmap fit, gpuMmapBytesFromSmapsText, if_pos terminated]
    rfl
  · intro fit
    rw [readGpuMappedBytesFrom_eq enough, foldl_feed_lines gpuMappedReader
      (fun total line => total + gpuMappedBytesFromMapsLine line) (fun _ _ => rfl) fit plain]
  · intro fit
    rw [readGpuSmapsReading_eq enough, foldl_feed_lines smapsReader SmapsScan.line
      (fun _ _ => rfl) fit plain]
  · intro fit set sawAny
    rw [readDmaBytesFromMaps_eq enough, foldl_feed_lines dmaMapsReader DmaScan.line
      (fun _ _ => rfl) fit plain]
  · intro fit pid
    rw [readIonProcInfoBytesFrom_eq enough, foldl_feed_lines (ionReader pid)
      (fun total line => total + ionBytesFromLine pid line) (fun _ _ => rfl) fit plain]
  · refine ⟨?_, ?_, ?_, fun set sawAny => ?_, fun pid => ?_⟩
    · exact readsToTheEnd gpuMmapReader (by decide) enough choices _
    · exact readsToTheEnd gpuMappedReader (by decide) enough choices _
    · exact readsToTheEnd smapsReader (by decide) enough choices _
    · exact readsToTheEnd dmaMapsReader (by decide) enough choices _
    · exact readsToTheEnd (ionReader pid) (by decide : 1 < 8192) enough choices _

/-- One device region with a page that is resident. -/
def oneDeviceRegion : List Char := "1000-3000 rw-s 0 0:0 7 /dev/kgsl\nRss: 4 kB\n".toList

theorem readers_fold_one_region :
    ReadersFoldLines oneDeviceRegion 50 [7, 1, 40] ∧
      readGpuMmapBytesFrom 50 [7, 1, 40] (some oneDeviceRegion) = some (some 0x1000) :=
  ⟨readers_fold_lines oneDeviceRegion (by decide) 50 (by decide) [7, 1, 40], by decide +kernel⟩

end MallocHook
