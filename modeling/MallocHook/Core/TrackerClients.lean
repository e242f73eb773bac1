/-
Module: MallocHook.Core.TrackerClients
Purpose: The most general use of the live table by many threads: any interleaving of its shard sections
  with any arguments.
Trusted boundary: translation of the contract of TakeEntry and RestoreEntry in
  backtrace/include/PointerData.h
Main exports: TakenEntry, Clients, TrackerStep, clients
-/
import MallocHook.Lib.Machine
import MallocHook.Core.LiveTable

namespace MallocHook

variable {θ : Type*}

/-- A record that `TakeEntry` handed to a thread, with the address it was taken from. -/
structure TakenEntry where
  pointer : Pointer
  info : PointerInfo
deriving DecidableEq, Repr

/-- The live table, and the records each thread has taken and neither restored nor released. -/
structure Clients (θ : Type*) where
  live : LiveTable
  held : θ → List TakenEntry

/-- One critical section, by one thread. `release` is the thread giving a taken record up for good. -/
inductive TrackerStep (θ : Type*) where
  | add (t : θ) (pointer : Pointer) (trackedSize hashIndex : Nat) (type : MemType) (now : Timeval)
  | remove (t : θ) (pointer : Pointer)
  | takeEntry (t : θ) (pointer : Pointer)
  | restoreEntry (t : θ) (pointer : Pointer) (info : PointerInfo)
  | release (t : θ) (pointer : Pointer) (info : PointerInfo)
  | remap (t : θ) (oldPointer newPointer : Pointer) (newSize : Nat)

namespace Clients

variable [DecidableEq θ]

/-- Take a record out of the hands of a thread; `none` if it does not hold it. -/
def letGo (clients : Clients θ) (t : θ) (pointer : Pointer) (info : PointerInfo) : Option (Clients θ) :=
  if ⟨pointer, info⟩ ∈ clients.held t then
    some { clients with
      held := Function.update clients.held t ((clients.held t).erase ⟨pointer, info⟩) }
  else none

def step (clients : Clients θ) : TrackerStep θ → Option (Clients θ)
  | .add _ pointer trackedSize hashIndex type now =>
      some { clients with
        live := (clients.live.addSection pointer trackedSize hashIndex type now).table }
  | .remove _ pointer => some { clients with live := (clients.live.takeEntry pointer).2 }
  | .takeEntry t pointer =>
      let taken := clients.live.takeEntry pointer
      some {
        live := taken.2
        held := Function.update clients.held t
          (taken.1.elim (clients.held t) fun info => ⟨pointer, info⟩ :: clients.held t) }
  | .restoreEntry t pointer info =>
      (clients.letGo t pointer info).map fun clients =>
        { clients with live := clients.live.restoreEntry pointer info }
  | .release t pointer info => clients.letGo t pointer info
  | .remap _ oldPointer newPointer newSize =>
      some { clients with
        live := (clients.live.remap oldPointer newPointer newSize).elim clients.live
          LiveTable.SectionResult.table }

end Clients

/-- All interleavings of the sections, from an empty table. -/
def clients [DecidableEq θ] : Machine (Clients θ) (TrackerStep θ) where
  init := { live := .empty, held := fun _ => [] }
  step := Clients.step

/-- A `RestoreEntry` as the failing calls make it: nobody re-registered the address in the meantime. -/
def VacantRestore (clients : Clients θ) : TrackerStep θ → Prop
  | .restoreEntry _ pointer _ => clients.live.find pointer = none
  | _ => True

instance (clients : Clients θ) (step : TrackerStep θ) : Decidable (VacantRestore clients step) := by
  induction step using TrackerStep.casesOn <;> unfold VacantRestore <;> infer_instance

end MallocHook
