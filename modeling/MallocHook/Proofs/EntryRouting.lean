/-
Module: MallocHook.Proofs.EntryRouting
Purpose: A block goes back to the allocator that made it, except by a `realloc` while `realloc` itself
  is not known.
Trusted boundary: none
Main exports: EntryEvent.ToBootstrap, given_back_to_bootstrap_iff
-/
import MallocHook.Core.EntryPoints
import MallocHook.Proofs.BootstrapRuns

namespace MallocHook

namespace EntryEvent

variable (event : EntryEvent) (run : EntryRun)

/-- The bootstrap allocator serves the call. -/
def ToBootstrap : Prop := ∃ call sys, event.serves run = some (.bootstrap call, sys)

/-- If so, it is not to move a block of no bytes. -/
def Harmless (pageSize : Int64) : Prop :=
  ∀ call sys, event.serves run = some (.bootstrap call, sys) → ¬ReplacesEmpty pageSize run.boot call

end EntryEvent

variable {pageSize : Int64} {memory : ByteMemory} {run run' : EntryRun} {event : EntryEvent}

theorem entryPoints_holds (holds : ∃ blocks, run.boot.Holds blocks)
    (harmless : event.Harmless run pageSize)
    (stepped : (entryPoints pageSize memory).step run event = some run') :
    ∃ blocks, run'.boot.Holds blocks := by
  obtain ⟨⟨served, sys⟩, serves, stepped⟩ := Option.bind_eq_some_iff.1 stepped
  split at stepped
  · next call _ same =>
      cases same
      obtain ⟨boot, moved, rfl⟩ := Option.map_eq_some_iff.1 stepped
      exact bootstrapMachine_holds holds (harmless call sys serves) moved
  · cases stepped
    exact holds

/-- What the bootstrap allocator serves is what it is left with when the function is not known. -/
@[simp] theorem EntryView.route_eq_bootstrap (view : EntryView) {known : Bool} {unresolved : Served}
    {call : BootstrapCall} :
    view.route known unresolved = .bootstrap call ↔ known = false ∧ unresolved = .bootstrap call := by
  unfold EntryView.route
  cases known with
  | false => simp
  | true => split_ifs <;> simp_all

/-- At any time after any calls, what is given back goes to the bootstrap allocator if it is one of its
live blocks, and otherwise only if it is given to `realloc`, and `realloc` is neither known nor found. -/
theorem given_back_to_bootstrap_iff
    (reached : (entryPoints pageSize memory).ReachableBy (fun run event => event.Harmless run pageSize) run)
    (pointer size : UInt64) (view : EntryView) (answer : Option UInt64) :
    (EntryEvent.ToBootstrap ⟨.free pointer, view, answer⟩ run ↔ pointer ∈ run.boot.live.map Prod.fst) ∧
      (EntryEvent.ToBootstrap ⟨.realloc pointer size, view, answer⟩ run ↔
        pointer ∈ run.boot.live.map Prod.fst ∨
        run.sys .realloc = false ∧ (view.resolving = true ∨ view.found .realloc = false)) := by
  obtain ⟨blocks, holds⟩ : ∃ blocks, run.boot.Holds blocks :=
    reached.invariant (P := fun run : EntryRun => ∃ blocks, run.boot.Holds blocks)
      ⟨[], ⟨.stop, by simp, .nil, rfl⟩, rfl⟩
      fun holds harmless stepped => entryPoints_holds holds harmless stepped
  have answers := holds.heap.isBootstrapPointer_eq pointer
  rw [← holds.pointers] at answers
  by_cases live : pointer ∈ run.boot.live.map Prod.fst
  · simp [EntryEvent.ToBootstrap, EntryEvent.serves, EntryCall.pointer, EntryCall.serve, answers, live]
  · cases looking : view.resolving <;> simp [EntryEvent.ToBootstrap, EntryEvent.serves, EntryCall.pointer,
      EntryCall.serve, answers, live, EntryView.resolve, EntryCall.symbols, looking]

/-- The first call of the process, made by dlsym. -/
def earlyMalloc : EntryEvent := { call := .malloc 16, view := { resolving := true }, answer := some 0x10000 }

/-- Its block comes back when the tracker serves, and so does, while another function is looked up, a
block of the C library that grows. -/
theorem given_back_to_bootstrap_iff_early :
    ∃ run, (entryPoints 4096 fun _ => 0).step (entryPoints 4096 fun _ => 0).init earlyMalloc = some run ∧
      EntryEvent.ToBootstrap { call := .free 0x10030 } run ∧
        ¬EntryEvent.ToBootstrap { call := .free 0x50000 } run ∧
      EntryEvent.ToBootstrap { call := .realloc 0x50000 64, view := { resolving := true } } run := by
  obtain ⟨run, ran, unknown, live⟩ : ∃ run ∈ (entryPoints 4096 fun _ => 0).step
    (entryPoints 4096 fun _ => 0).init
      earlyMalloc, run.sys .realloc = false ∧ run.boot.live = [(0x10030, 16)] := by decide +kernel
  have home := given_back_to_bootstrap_iff (.step .init (fun _ _ serves => by cases serves; exact id) ran)
  refine ⟨run, ran, (home _ 0 _ _).1.2 ?_, fun toBootstrap => ?_,
    (home _ _ _ _).2.2 (.inr ⟨unknown, .inl rfl⟩)⟩
  · simp [live]
  · simpa [live] using (home _ 0 _ _).1.1 toBootstrap

end MallocHook
