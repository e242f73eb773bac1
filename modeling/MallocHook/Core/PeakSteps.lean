/-
Module: MallocHook.Core.PeakSteps
Purpose: Which operations of a call belong to the peak code, and which lead into it: only a shard
  section that raises `peak_tot`.
Trusted boundary: none
Main exports: NoPeak, noPeak_startCall, shard_raises, proceed
-/
import MallocHook.Core.HookedThreads

namespace MallocHook

variable {θ : Type*}

/-- No step of the peak code. -/
def NoPeak (ops : List (Op θ)) : Prop := ∀ op ∈ ops, ∀ peakOp, op ≠ .peak peakOp

theorem NoPeak.nil : NoPeak ([] : List (Op θ)) := by simp [NoPeak]

theorem NoPeak.append {first second : List (Op θ)} (one : NoPeak first) (two : NoPeak second) :
    NoPeak (first ++ second) :=
  List.forall_mem_append.2 ⟨one, two⟩

theorem NoPeak.tail {op : Op θ} {rest : List (Op θ)} (noPeak : NoPeak (op :: rest)) : NoPeak rest :=
  (List.forall_mem_cons.1 noPeak).2

theorem noPeak_startHooked (config : Config) {request : Request θ}
    (notSample : ∀ sample, request ≠ .sample sample) : NoPeak (startHooked config request) := by
  cases request with
  | sample sample => exact absurd rfl (notSample sample)
  | _ =>
      simp only [NoPeak, startHooked, startRealloc, startAlloc, startFree, inFdTransaction]
      repeat' split
      all_goals simp

/-- A call of the program starts outside the peak code. -/
theorem noPeak_startCall {τ : Type*} {config : Config} {t : Option τ} {request : Request (Option τ)}
    {ops : List (Op (Option τ))} (byProgram : t.isSome = true)
    (started : startCall config t request = some ops) : NoPeak ops := by
  obtain rfl := startHooked_of_startCall started
  refine noPeak_startHooked config fun sample same => ?_
  subst same
  cases t with
  | none => cases byProgram
  | some worker => cases started

theorem noPeak_frame (config : Config) (stackTable : StackTable) (answer : Answer) (op : FrameOp) :
    NoPeak (op.exec config stackTable answer : StackTable × List (Op θ)).2 := by
  cases op with
  | addBacktrace =>
      simp only [FrameOp.exec]
      split <;> simp [NoPeak]
  | removeBacktrace => simp [FrameOp.exec, NoPeak]

theorem noPeak_system (config : Config) (answer : Answer) (op : SystemOp θ) :
    NoPeak (op.next config answer) := by
  cases op with
  | realloc pointer bytes previous =>
      simp only [SystemOp.next]
      cases previous <;> split_ifs <;> simp [NoPeak, Op.add]
  | munmap addr size previous =>
      simp only [SystemOp.next]
      cases previous with
      | none => simp [NoPeak]
      | some info =>
          simp only [Option.elim_some]
          split <;> simp [NoPeak]
  | _ =>
      simp only [SystemOp.next]
      repeat' split
      all_goals simp [NoPeak, Op.add]

theorem noPeak_dma {ε : Type*} [DecidableEq θ] {hook hook' : Hook θ ε} {t : θ} {answer : Answer} {op : DmaOp}
    {next : List (Op θ)} (executed : hook.execDma t answer op = some (hook', next)) : NoPeak next := by
  cases op <;> simp only [Hook.execDma] at executed
  case lockFds =>
    split at executed <;> cases executed
    exact .nil
  all_goals
    cases executed
    repeat' split
    all_goals simp [NoPeak, Op.add]

/-- A shard section that raises `peak_tot` goes on to the threshold test with the new peak; the others
do not. -/
theorem shard_raises {op : ShardOp} {live live' : LiveTable} {answer : Answer} {next : List (Op θ)}
    (sectioned : op.exec live answer = (live', next)) :
    (live'.peakTot = live.peakTot ∧ NoPeak next) ∨
      live.peakTot < live'.peakTot ∧ ∃ rest, next = .peak (.testThreshold live'.peakTot) :: rest ∧
      NoPeak rest := by
  have after : ∀ {result : LiveTable.SectionResult}, result.Raises live.peakTot →
      (result.table.peakTot = live.peakTot ∧ NoPeak (afterSection result : List (Op θ))) ∨
        live.peakTot < result.table.peakTot ∧
          ∃ rest, (afterSection result : List (Op θ)) =
            .peak (.testThreshold result.table.peakTot) :: rest ∧ NoPeak rest := by
    intro result raises
    unfold LiveTable.SectionResult.Raises at raises
    have release : NoPeak (if result.displacedHashIndex > kBacktraceEmptyIndex then
        [.frame (.removeBacktrace result.displacedHashIndex)] else [] : List (Op θ)) := by
      split <;> simp [NoPeak]
    unfold afterSection
    split at raises
    · next raised =>
        refine .inr ⟨raises.1, _, ?_, release⟩
        rw [if_pos raised, raises.2]
        rfl
    · next kept =>
        refine .inl ⟨raises, ?_⟩
        rw [if_neg kept]
        exact NoPeak.nil.append release
  cases op
  case remap oldPointer newPointer newSize =>
    simp only [ShardOp.exec] at sectioned
    split at sectioned <;> cases sectioned
    · exact .inl ⟨rfl, .nil⟩
    · next remapped =>
        obtain ⟨info, -, -, rfl⟩ := live.remap_eq_some remapped
        exact after (live.rekey_raises info oldPointer newPointer newSize)
  all_goals cases sectioned
  case addEntry pointer trackedSize hashIndex type =>
    exact after (live.addSection_raises pointer trackedSize hashIndex type answer.now)
  case internalFree pointer | remove pointer =>
    refine .inl ⟨live.takeEntry_peakTot pointer, ?_⟩
    cases (live.takeEntry pointer).1 <;> simp [NoPeak]
  case reallocTake pointer bytes | munmapTake pointer bytes =>
    exact .inl ⟨live.takeEntry_peakTot pointer, by simp [NoPeak]⟩
  case restoreEntry pointer info => exact .inl ⟨live.restoreEntry_peakTot pointer info, .nil⟩

/-! ### Runs of two threads -/

/-- A thread allocates a block and registers it, which raises the peak. -/
def allocBlock (t : Option Worker) (pointer : Pointer) (size : Nat) : List (HookEvent Worker) :=
  [.call t (.malloc size), .exec t { pointer := pointer }, .exec t { stack := oneFrame 0x400 }, .exec t {}]

/-- A thread goes on for a number of operations. -/
def proceed (t : Option Worker) (steps : Nat) : List (HookEvent Worker) :=
  List.replicate steps (.exec t {})

end MallocHook
