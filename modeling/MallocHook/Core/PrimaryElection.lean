/-
Module: MallocHook.Core.PrimaryElection
Purpose: Which copy of the library answers for the process. A call of `IsPrimary` is a load, a `getenv`,
  perhaps a `setenv`, and a compare-exchange.
Trusted boundary: translation of IsPrimary and ReadStampedPrimaryPid of
  backtrace/src/ObserveOnlyProbe.cpp; `environ` is not null, `setenv` succeeds, and a stamp that was
  there before fits in a long
Main exports: readStampedPrimaryPid, Election, ElectionOp
-/
import MallocHook.Lib.ThreadPool

namespace MallocHook

/-! ### The stamp -/

/-- The loop of `ReadStampedPrimaryPid`: digits up to the first character that is none. -/
def stampedValue (value : Nat) : List Char → Nat
  | [] => value
  | c :: rest => if c.isDigit then stampedValue (value * 10 + (c.toNat - '0'.toNat)) rest else value

/-- `ReadStampedPrimaryPid`: the pid stamped in the environment, or -1 when unset or unparseable. -/
def readStampedPrimaryPid : Option (List Char) → Int
  | some (c :: rest) => if c.isDigit then stampedValue 0 (c :: rest) else -1
  | _ => -1

/-- `snprintf("%d", pid)`. -/
def pidText (pid : Nat) : List Char := Nat.toDigits 10 pid

theorem stampedValue_eq {text : List Char} (digits : ∀ c ∈ text, c.isDigit = true) (value : Nat) :
    stampedValue value text = Nat.ofDigitChars 10 text value := by
  induction text generalizing value with
  | nil => rfl
  | cons c rest ih =>
      obtain ⟨isDigit, restDigits⟩ := List.forall_mem_cons.1 digits
      rw [stampedValue, if_pos isDigit, ih restDigits, Nat.mul_comm]
      rfl

/-- A stamp reads back as the pid that wrote it. -/
theorem readStampedPrimaryPid_pidText (pid : Nat) : readStampedPrimaryPid (some (pidText pid)) = pid := by
  have digits : ∀ c ∈ pidText pid, c.isDigit = true :=
    fun c member => Nat.isDigit_of_mem_toDigits (by decide) (by decide) member
  have value : stampedValue 0 (pidText pid) = pid := by
    rw [stampedValue_eq digits]
    exact Nat.ofDigitChars_toDigits (by decide) (by decide)
  cases text : pidText pid with
  | nil => exact absurd text Nat.toDigits_ne_nil
  | cons c rest =>
      rw [text] at digits value
      rw [readStampedPrimaryPid, if_pos (digits c List.mem_cons_self), value]

/-! ### Calls -/

/-- What the calls share. `primary` is `g_primary`, with `none` for -1; `answers` records what calls
returned. -/
structure Election (κ : Type*) where
  stamp : Option (List Char)
  primary : κ → Option Bool
  answers : List (κ × Bool)

/-- The steps of a call in a copy. -/
inductive ElectionOp (κ : Type*) where
  | load (copy : κ)
  | readStamp (copy : κ)
  | setStamp (copy : κ)
  | latch (copy : κ) (desired : Bool)
  | reload (copy : κ)
deriving DecidableEq

namespace Election

variable {κ : Type*} [DecidableEq κ]

def answer (state : Election κ) (copy : κ) (result : Bool) : Election κ :=
  { state with answers := state.answers ++ [(copy, result)] }

/-- One step of `IsPrimary`, in the process `pid` whose first copy is `first`. -/
def exec (pid : Nat) (first : κ) (state : Election κ) :
    ElectionOp κ → Option (Election κ × List (ElectionOp κ))
  | .load copy =>
      -- another copy is not there before the first one has decided
      if copy ≠ first ∧ state.primary first = none then none
      else
        some (match state.primary copy with
          | some known => (state.answer copy known, [])
          | none => (state, [.readStamp copy]))
  | .readStamp copy =>
      some (state, if readStampedPrimaryPid state.stamp = pid then [.latch copy false]
        else [.setStamp copy])
  | .setStamp copy => some ({ state with stamp := some (pidText pid) }, [.latch copy true])
  | .latch copy desired =>
      some (match state.primary copy with
        | none =>
            ({ state with primary := Function.update state.primary copy (some desired) }.answer copy desired,
              [])
        | some _ => (state, [.reload copy]))
  | .reload copy => some (state.answer copy (state.primary copy == some true), [])

end Election

variable {κ τ : Type*} [DecidableEq κ] [DecidableEq τ]

/-- Calls of `IsPrimary`, by any thread in any copy. -/
def electionCode (pid : Nat) (first : κ) : Code τ (Election κ) (ElectionOp κ) κ Unit where
  start _ copy := some [.load copy]
  exec _ state op _ := state.exec pid first op

/-- All interleavings of the calls, from the stamp the process started with. -/
def election (pid : Nat) (first : κ) (stamp : Option (List Char)) :
    Machine (Pool τ (Election κ) (ElectionOp κ)) (Event τ κ Unit) :=
  (electionCode pid first).machine { stamp := stamp, primary := fun _ => none, answers := [] }

end MallocHook
