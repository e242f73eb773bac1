/-
Module: MallocHook.Lib.Machine
Purpose: Deterministic labelled machines and rules for their runs: `ReachableBy.invariant`, and
  `along_iff_respects` for conditions that are met step by step.
Trusted boundary: none
Main exports: Machine, Machine.run, Machine.ReachableBy
-/
import Mathlib.Data.Option.Basic

/-- A machine with one initial state and a partial, deterministic step on labels. -/
structure Machine (σ α : Type*) where
  init : σ
  step : σ → α → Option σ

namespace Machine

variable {σ α : Type*} (m : Machine σ α)

/-- Run a schedule from a state; `none` as soon as a step of it is not enabled. -/
def run : σ → List α → Option σ
  | s, [] => some s
  | s, a :: rest => (m.step s a).bind fun s' => run s' rest

/-- States reached from the initial one by steps that all meet `ok`. -/
inductive ReachableBy (ok : σ → α → Prop) : σ → Prop where
  | init : ReachableBy ok m.init
  | step {s s' : σ} {a : α} (reached : ReachableBy ok s) (allowed : ok s a)
      (stepped : m.step s a = some s') : ReachableBy ok s'

/-- States reached by any steps at all. -/
def Reachable : σ → Prop :=
  m.ReachableBy fun _ _ => True

variable {m} {ok : σ → α → Prop}

/-- The invariant rule: what holds initially and every allowed step preserves holds of every state
reached. -/
theorem ReachableBy.invariant {P : σ → Prop} (initial : P m.init)
    (preserved : ∀ {s s' : σ} {a : α}, P s → ok s a → m.step s a = some s' → P s') {s : σ}
    (reached : m.ReachableBy ok s) : P s := by
  induction reached with
  | init => exact initial
  | step _ allowed stepped ih => exact preserved ih allowed stepped

/-- A weaker condition on the steps reaches at least as much. -/
theorem ReachableBy.mono {ok ok' : σ → α → Prop} (weaker : ∀ s a, ok s a → ok' s a) {s : σ}
    (reached : m.ReachableBy ok s) : m.ReachableBy ok' s := by
  induction reached with
  | init => exact .init
  | step _ allowed stepped ih => exact .step ih (weaker _ _ allowed) stepped

/-- Dropping the condition on the steps altogether. -/
theorem ReachableBy.reachable {s : σ} (reached : m.ReachableBy ok s) : m.Reachable s :=
  reached.mono fun _ _ _ => trivial

/-! ### Properties of whole runs -/

variable (m)

/-- `P` holds in every state a schedule passes through. A step that is not enabled ends the run. -/
def Along (P : σ → Prop) : σ → List α → Prop
  | s, [] => P s
  | s, a :: rest => P s ∧ ∀ s', m.step s a = some s' → Along P s' rest

/-- Every step a schedule takes meets `ok` in the state it starts from. -/
def Respects (ok : σ → α → Prop) : σ → List α → Prop
  | _, [] => True
  | s, a :: rest => ∀ s', m.step s a = some s' → ok s a ∧ Respects ok s' rest

/-- Some step of a schedule relates the state before it and the state after it by `R`. -/
def Takes (R : σ → σ → Prop) : σ → List α → Prop
  | _, [] => False
  | s, a :: rest => ∃ s', m.step s a = some s' ∧ (R s s' ∨ Takes R s' rest)

variable {m}

/-- Decide a condition along a schedule by running it. -/
instance decidableRespects (ok : σ → α → Prop) [∀ s a, Decidable (ok s a)] :
    ∀ (s : σ) (schedule : List α), Decidable (m.Respects ok s schedule)
  | _, [] => isTrue trivial
  | s, a :: rest =>
      match stepped : m.step s a with
      | none => isTrue fun _ other => by rw [stepped] at other; cases other
      | some s' =>
          match decidableRespects ok s' rest with
          | isTrue later =>
              if allowed : ok s a then
                isTrue fun _ other => by
                  rw [stepped] at other
                  cases other
                  exact ⟨allowed, later⟩
              else isFalse fun respects => allowed (respects s' stepped).1
          | isFalse broken => isFalse fun respects => broken (respects s' stepped).2

/-- What holds along a schedule holds where it starts. -/
theorem Along.head {P : σ → Prop} {s : σ} {schedule : List α} (along : m.Along P s schedule) : P s := by
  cases schedule with
  | nil => exact along
  | cons => exact along.1

/-- When steps that meet `ok` keep an invariant that implies `P`, and other steps end outside `P`, a run
keeps `P` throughout exactly if all its steps meet `ok`. -/
theorem along_iff_respects_of {I P : σ → Prop} (implies : ∀ {s : σ}, I s → P s)
    (keeps : ∀ {s s' : σ} {a : α}, I s → ok s a → m.step s a = some s' → I s')
    (needs : ∀ {s s' : σ} {a : α}, I s → m.step s a = some s' → P s' → ok s a) :
    ∀ {s : σ} (schedule : List α), I s → (m.Along P s schedule ↔ m.Respects ok s schedule)
  | s, [], holds => by simp [Along, Respects, implies holds]
  | s, a :: rest, holds => by
      simp only [Along, Respects, implies holds, true_and]
      constructor
      · intro along s' stepped
        have allowed := needs holds stepped (along s' stepped).head
        exact ⟨allowed, (along_iff_respects_of implies keeps needs rest (keeps holds allowed stepped)).1
          (along s' stepped)⟩
      · intro respects s' stepped
        obtain ⟨allowed, later⟩ := respects s' stepped
        exact (along_iff_respects_of implies keeps needs rest (keeps holds allowed stepped)).2 later

/-- When each step keeps `P` exactly if it meets `ok`, a run keeps `P` throughout exactly if all its
steps meet `ok`. -/
theorem along_iff_respects {P : σ → Prop}
    (exactly : ∀ {s s' : σ} {a : α}, P s → m.step s a = some s' → (P s' ↔ ok s a)) {s : σ}
    (schedule : List α) (holds : P s) : m.Along P s schedule ↔ m.Respects ok s schedule :=
  along_iff_respects_of (fun holds => holds) (fun holds allowed stepped => (exactly holds stepped).2 allowed)
    (fun holds stepped after => (exactly holds stepped).1 after) schedule holds

/-- Under an invariant that the steps meeting `ok` keep, a run of such steps meets whatever they all meet. -/
theorem Respects.imp {ok ok' : σ → α → Prop} {I : σ → Prop}
    (keeps : ∀ {s s' : σ} {a : α}, I s → ok s a → m.step s a = some s' → I s')
    (implies : ∀ {s s' : σ} {a : α}, I s → ok s a → m.step s a = some s' → ok' s a) :
    ∀ {s : σ} {schedule : List α}, I s → m.Respects ok s schedule → m.Respects ok' s schedule
  | _, [], _, _ => trivial
  | _, _ :: _, holds, respects => fun s' stepped =>
      have ⟨allowed, later⟩ := respects s' stepped
      ⟨implies holds allowed stepped, Respects.imp keeps implies (keeps holds allowed stepped) later⟩

/-- A schedule that runs from a reached state, with every step meeting `ok`, ends in a reached state. -/
theorem ReachableBy.of_run :
    ∀ {s s' : σ} {schedule : List α}, m.ReachableBy ok s → m.Respects ok s schedule →
      m.run s schedule = some s' → m.ReachableBy ok s'
  | s, s', [], reached, _, ran => by
      cases ran
      exact reached
  | s, s', a :: rest, reached, respects, ran => by
      obtain ⟨middle, stepped, ran⟩ := Option.bind_eq_some_iff.1 ran
      obtain ⟨allowed, later⟩ := respects middle stepped
      exact ReachableBy.of_run (.step reached allowed stepped) later ran

/-- A schedule that runs from a reachable state ends in a reachable state. -/
theorem Reachable.run {s s' : σ} {schedule : List α} (reached : m.Reachable s)
    (ran : m.run s schedule = some s') : m.Reachable s' := by
  have respects : ∀ (s : σ) (schedule : List α), m.Respects (fun _ _ => True) s schedule := by
    intro s schedule
    induction schedule generalizing s with
    | nil => trivial
    | cons a rest ih => exact fun s' _ => ⟨trivial, ih s'⟩
  exact ReachableBy.of_run reached (respects _ _) ran

end Machine
