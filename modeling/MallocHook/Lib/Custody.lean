/-
Module: MallocHook.Lib.Custody
Purpose: The protocol by which threads keep a shared table of records in step with things outside.
  `Coherent` says what every key shows at every moment, `Coherent.mirror` that the table mirrors the
  world at rest.
Trusted boundary: none
Main exports: Custody.State, Custody.Move, Custody.Coherent
-/
import Mathlib.Tactic.Common

namespace Custody

open Option

open Function (update)

variable {κ ν ρ τ : Type*}

/-- What a thread is in the middle of: nothing, a thing at `key` without a record, or a thing that went
from `source` to `target` while its record still stands at `source`. -/
inductive Hold (κ ρ : Type*) where
  | idle
  | unrecorded (key : κ)
  | moved (source target : κ) (rewrite : ρ → ρ)

namespace Hold

/-- The key of the thing the thread has to record. -/
@[simp, grind =] def target : Hold κ ρ → Option κ
  | idle => none
  | unrecorded key => some key
  | moved _ target _ => some target

/-- The key at which the thread still has a stale record. -/
@[simp, grind =] def source : Hold κ ρ → Option κ
  | idle => none
  | unrecorded _ => none
  | moved source _ _ => some source

end Hold

/-- The things that exist, who owns each, the table of records, and what every thread holds. -/
structure State (κ ν ρ τ : Type*) where
  things : κ → Option ν
  owner : κ → Option τ
  table : κ → Option ρ
  hold : τ → Hold κ ρ

section

variable [DecidableEq κ] [DecidableEq τ]

/-- The moves of thread `t`. `seen` is the part of a record that describes its thing. -/
inductive Move (seen : ρ → ν) (t : τ) (s : State κ ν ρ τ) : State κ ν ρ τ → Prop
  /-- The world hands the thread a new thing. -/
  | obtain {key : κ} {value : ν} (idle : s.hold t = .idle) (fresh : s.owner key = none) :
      Move seen t s { s with
        things := update s.things key (some value)
        owner := update s.owner key (some t)
        hold := update s.hold t (.unrecorded key) }
  /-- The thread takes the record of a thing it owns. -/
  | take {key : κ} (idle : s.hold t = .idle) (owned : s.owner key = some t) :
      Move seen t s { s with
        table := update s.table key none
        hold := update s.hold t (.unrecorded key) }
  /-- The thread records what it holds, at a key without a stale record. -/
  | record {key : κ} {info : ρ} (held : s.hold t = .unrecorded key)
      (shows : s.things key = some (seen info)) (clear : ∀ u, (s.hold u).source ≠ some key) :
      Move seen t s { s with
        table := update s.table key (some info)
        hold := update s.hold t .idle }
  /-- The thread gives up what it holds. -/
  | discard {key : κ} (held : s.hold t = .unrecorded key) :
      Move seen t s { s with
        things := update s.things key none
        owner := update s.owner key none
        hold := update s.hold t .idle }
  /-- The thread exchanges what it holds for a new thing, at the same key or at a free one. -/
  | exchange {key key' : κ} {value : ν} (held : s.hold t = .unrecorded key)
      (fresh : key' = key ∨ s.owner key' = none) :
      Move seen t s { s with
        things := update (update s.things key none) key' (some value)
        owner := update (update s.owner key none) key' (some t)
        hold := update s.hold t (.unrecorded key') }
  /-- The world moves a recorded thing of the thread; the record stays behind. -/
  | move {key key' : κ} {value : ν} {rewrite : ρ → ρ} (idle : s.hold t = .idle)
      (owned : s.owner key = some t) (fresh : key' = key ∨ s.owner key' = none)
      (rewrites : ∀ info, s.things key = some (seen info) → seen (rewrite info) = value) :
      Move seen t s { s with
        things := update (update s.things key none) key' (some value)
        owner := update (update s.owner key none) key' (some t)
        hold := update s.hold t (.moved key key' rewrite) }
  /-- The thread lets the stale record follow its thing, to a key without another stale record. -/
  | rekey {key key' : κ} {rewrite : ρ → ρ} {info : ρ} (held : s.hold t = .moved key key' rewrite)
      (found : s.table key = some info) (clear : ∀ u, u ≠ t → (s.hold u).source ≠ some key') :
      Move seen t s { s with
        table := update (update s.table key none) key' (some (rewrite info))
        hold := update s.hold t .idle }
  /-- The thread makes another thread the owner of one of its things. -/
  | pass {key : κ} {u : τ} (idle : s.hold t = .idle) (owned : s.owner key = some t) :
      Move seen t s { s with owner := update s.owner key (some u) }

end

/-- What holds between any two moves. -/
structure Coherent (seen : ρ → ν) (s : State κ ν ρ τ) : Prop where
  /-- A thread owns what it has to record. -/
  owned : ∀ t key, (s.hold t).target = some key → s.owner key = some t
  /-- Exactly the things have owners. -/
  things : ∀ key, s.owner key = none ↔ s.things key = none
  /-- A stale record, once rewritten, describes the thing that moved. -/
  stale : ∀ t key key' rewrite, s.hold t = .moved key key' rewrite →
    s.things key' = (s.table key).map fun info => seen (rewrite info)
  /-- Whoever owns a thing at the key of a stale record has not recorded it yet. -/
  vacated : ∀ t key, (s.hold t).source = some key →
    ∀ u, s.owner key = some u → (s.hold u).target = some key
  /-- No two threads have a stale record at one key. -/
  single : ∀ t u key, (s.hold t).source = some key → (s.hold u).source = some key → t = u
  /-- Apart from stale ones, there is no record where there is no thing or one still to be recorded. -/
  absent : ∀ key, (∀ t, (s.hold t).source ≠ some key) →
    (∀ t, s.owner key = some t → (s.hold t).target = some key) → s.table key = none
  /-- Every other thing has a record, which describes it. -/
  recorded : ∀ key t, s.owner key = some t → (s.hold t).target ≠ some key →
    (s.table key).map seen = s.things key

namespace Coherent

variable {seen : ρ → ν} {s s' : State κ ν ρ τ} {t : τ} {key : κ}

section

variable (coherent : Coherent seen s)
include coherent

/-- Nobody has a stale record at the key of a thing whose owner is idle. -/
theorem not_stale (idle : s.hold t = .idle) (owned : s.owner key = some t) (u : τ) :
    (s.hold u).source ≠ some key := by
  intro stale
  have target := coherent.vacated u key stale t owned
  rw [idle] at target
  cases target

/-- An idle thread finds the record of every thing it owns. -/
theorem found (idle : s.hold t = .idle) (owned : s.owner key = some t) :
    ∃ info, s.table key = some info ∧ s.things key = some (seen info) := by
  have same := coherent.recorded key t owned (by simp [idle])
  cases looked : s.table key with
  | none =>
      rw [looked, map_none] at same
      rw [(coherent.things key).2 same.symm] at owned
      cases owned
  | some info => exact ⟨info, rfl, by rw [← same, looked, map_some]⟩

/-- A thread with a stale record finds it. -/
theorem found_stale {key' : κ} {rewrite : ρ → ρ} (held : s.hold t = .moved key key' rewrite) :
    ∃ info, s.table key = some info := by
  have shows := coherent.stale t key key' rewrite held
  cases looked : s.table key with
  | none =>
      have gone := (coherent.things key').2 (by rw [shows, looked, map_none])
      rw [coherent.owned t key' (by simp [held])] at gone
      cases gone
  | some info => exact ⟨info, rfl⟩

/-- Once every thread is idle, the table shows exactly the things there are. -/
theorem mirror (idle : ∀ t, s.hold t = .idle) (key : κ) : (s.table key).map seen = s.things key := by
  cases owner : s.owner key with
  | none =>
      have absent := coherent.absent key (fun t => by simp [idle t]) (fun t owned => by
        rw [owner] at owned
        cases owned)
      rw [absent, (coherent.things key).1 owner, map_none]
  | some t => exact coherent.recorded key t owner (by simp [idle t])

end

section

variable [DecidableEq κ] [DecidableEq τ]

-- Each field of the next state is a field of this one read at an updated argument: the keys and the
-- thread the move names are the only ones where anything is to be said.
attribute [local grind =] Function.update_apply

variable (coherent : Coherent seen s) (moved : Move seen t s s')
include coherent moved

/-- Every move keeps the table coherent. -/
theorem move : Coherent seen s' := by
  obtain ⟨owned, things, stale, vacated, single, absent, recorded⟩ := id coherent
  cases moved with
  | obtain idle fresh | record held shows clear | discard held | exchange held fresh
  | rekey held found clear =>
      constructor <;> grind
  | take idle isOwner | pass idle isOwner =>
      have settled := coherent.not_stale idle isOwner
      constructor <;> grind
  | move idle isOwner fresh rewrites =>
      -- The record left behind is the one the owner would have found.
      have settled := coherent.not_stale idle isOwner
      have found := coherent.found idle isOwner
      constructor <;> grind

/-- A move of one thread leaves the things of the others alone. -/
theorem kept {u : τ} (other : u ≠ t) (owned : s.owner key = some u) :
    s'.owner key = some u ∧ s'.things key = s.things key := by
  have mine : ∀ {k}, (s.hold t).target = some k → s.owner k = some t := coherent.owned t _
  cases moved <;> grind

/-- A move of one thread leaves the records of the things of the others alone. -/
theorem untouched {u : τ} (other : u ≠ t) (owned : s.owner key = some u)
    (settled : (s.hold u).target ≠ some key) : s'.table key = s.table key := by
  have mine : ∀ {k}, (s.hold t).target = some k → s.owner k = some t := coherent.owned t _
  have left : (s.hold t).source ≠ some key := fun stale =>
    settled (coherent.vacated t key stale u owned)
  cases moved <;> grind

end

end Coherent

end Custody
