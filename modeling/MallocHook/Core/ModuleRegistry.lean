/-
Module: MallocHook.Core.ModuleRegistry
Purpose: The registry of module snapshots: lists published under generations, their eviction, and the
  lookup of an address in the list of one generation.
Trusted boundary: translation of ModuleRegistry of backtrace/src/AsyncStackPipeline.cpp. Every
  method is one critical section. The hash map of snapshots is a finite map: the order of its
  iteration shows in nothing, since the oldest key is unique. Generations do not wrap.
Main exports: ModuleRegistry, ModuleRegistry.publish
-/
import Mathlib.Data.List.AList
import MallocHook.Lib.Machine

namespace MallocHook

/-- `ModuleInfo`. -/
structure ModuleInfo where
  generation : Nat := 0
  start : UInt64 := 0
  stop : UInt64 := 0
  loadBias : UInt64 := 0
  name : List Char := []
  buildId : List Char := []
deriving DecidableEq, Repr

namespace ModuleInfo

/-- The fields that `Equivalent` compares. -/
def sameAs (a b : ModuleInfo) : Bool :=
  !(a.start != b.start || a.stop != b.stop || a.loadBias != b.loadBias || a.name != b.name ||
    a.buildId != b.buildId)

/-- `module.generation = generation`. -/
def tag (generation : Nat) (module : ModuleInfo) : ModuleInfo := { module with generation := generation }

/-- The module covers the address. -/
def covers (pc : UInt64) (module : ModuleInfo) : Bool :=
  decide (module.start ≤ pc) && decide (pc < module.stop)

end ModuleInfo

/-- `ModuleRegistry::Equivalent`: the lists are compared position by position. -/
def equivalentModules : List ModuleInfo → List ModuleInfo → Bool
  | [], [] => true
  | a :: lhs, b :: rhs => a.sameAs b && equivalentModules lhs rhs
  | _, _ => false

/-- `snapshots_`. -/
abbrev Snapshots := AList fun _ : Nat => List ModuleInfo

/-- The scan for the oldest entry: a smaller key than the one so far takes its place. -/
def oldestOf (first : Nat) (keys : List Nat) : Nat :=
  keys.foldl (fun oldest key => if key < oldest then key else oldest) first

/-- The loop that evicts the oldest entry while there are more than `limit`. -/
def evictOldest (limit : Nat) : Nat → Snapshots → Snapshots
  | 0, snapshots => snapshots
  | fuel + 1, snapshots =>
      if snapshots.entries.length > limit then
        match snapshots.keys with
        | [] => snapshots
        | first :: later => evictOldest limit fuel (snapshots.erase (oldestOf first (first :: later)))
      else snapshots

structure ModuleRegistry where
  maxRetainedGenerations : Nat
  generation : Nat := 1
  snapshots : Snapshots

namespace ModuleRegistry

/-- The constructor. -/
def create (maxRetainedGenerations : Nat) : ModuleRegistry where
  maxRetainedGenerations := max maxRetainedGenerations 1
  snapshots := AList.singleton 1 []

variable (registry : ModuleRegistry)

/-- `Publish` of a list that is not the current one. -/
def publishNew (modules : List ModuleInfo) : ModuleRegistry :=
  let generation := registry.generation + 1
  let snapshots := registry.snapshots.insert generation (modules.map (ModuleInfo.tag generation))
  { registry with
    generation := generation
    -- each round of the loop removes an entry
    snapshots := evictOldest registry.maxRetainedGenerations snapshots.entries.length snapshots }

/-- `Publish`, with the generation that it returns. -/
def publish (modules : List ModuleInfo) : ModuleRegistry × Nat :=
  if (registry.snapshots.lookup registry.generation).any fun current =>
    equivalentModules current modules then
    (registry, registry.generation)
  else (registry.publishNew modules, (registry.publishNew modules).generation)

/-- `SnapshotCount`. -/
def snapshotCount : Nat := registry.snapshots.entries.length

/-- `Resolve`: the module stored through the pointer when it returns true. `isNull` is for a null pointer.
-/
def resolve (pc : UInt64) (generation : Nat) (isNull : Bool) : Option ModuleInfo :=
  if isNull then none
  else (registry.snapshots.lookup generation).bind fun snapshot => snapshot.find? (ModuleInfo.covers pc)

end ModuleRegistry

/-! ### Runs -/

/-- The calls. -/
inductive RegistryCall
  | publish (modules : List ModuleInfo)
  | resolve (pc : UInt64) (generation : Nat) (isNull : Bool)
deriving DecidableEq, Repr

/-- A registry, and the lists published with their generations, the empty list of the constructor first.
-/
structure RegistryRun where
  registry : ModuleRegistry
  published : List (List ModuleInfo × Nat)

/-- Any calls, in any order. -/
def registryMachine (limit : Nat) : Machine RegistryRun RegistryCall where
  init := { registry := .create limit, published := [([], 1)] }
  step run
    | .publish modules =>
        some { registry := (run.registry.publish modules).1
               published := run.published ++ [(modules, (run.registry.publish modules).2)] }
    | .resolve _ _ _ => some run

end MallocHook
