/-
Module: MallocHook.Proofs.PrimaryElection
Purpose: When the first copy of the library is the primary one: unless one of its threads takes the
  stamp of another for that of another copy and latches the decision.
Trusted boundary: none
Main exports: Elected, elected_exec, first_answers_iff
-/
import MallocHook.Core.PrimaryElection

namespace MallocHook

open List Function

variable {κ τ : Type*} [DecidableEq κ] [DecidableEq τ] {pid : Nat} {first : κ}

/-- Every call so far answered true in the first copy and false in any other. -/
def FirstAnswers (first : κ) (pool : Pool τ (Election κ) (ElectionOp κ)) : Prop :=
  ∀ copy result, (copy, result) ∈ pool.shared.answers → (result = true ↔ copy = first)

/-- A thread of the first copy that found the process's own stamp compare-exchanges only after another one
has decided. -/
def LatchesInTime (first : κ) (pool : Pool τ (Election κ) (ElectionOp κ)) : Event τ κ Unit → Prop
  | .call _ _ => True
  | .exec t _ => (pool.todo t).head? = some (.latch first false) → pool.shared.primary first ≠ none

instance (pool : Pool τ (Election κ) (ElectionOp κ)) : DecidablePred (LatchesInTime first pool)
  | .call _ _ => isTrue trivial
  | .exec t _ => inferInstanceAs (Decidable ((pool.todo t).head? = some (.latch first false) → _))

/-! ### The invariant -/

/-- The process has stamped the environment. -/
def Election.Stamped (pid : Nat) (state : Election κ) : Prop := readStampedPrimaryPid state.stamp = pid

/-- The decisions so far are right, and the decision of the first copy comes with the stamp. -/
structure Elected (pid : Nat) (first : κ) (state : Election κ) : Prop where
  answers : ∀ copy result, (copy, result) ∈ state.answers → (result = true ↔ copy = first)
  decided : ∀ copy result, state.primary copy = some result → (result = true ↔ copy = first)
  stamped : state.primary first ≠ none → state.Stamped pid

/-- What a call knows when it comes to a step. -/
def ElectionOp.Fits (pid : Nat) (first : κ) (state : Election κ) : ElectionOp κ → Prop
  | .load _ => True
  | .readStamp copy => copy = first ∨ state.primary first ≠ none
  | .setStamp copy => copy = first
  | .latch copy desired => state.Stamped pid ∧ (desired = true → copy = first)
  | .reload copy => state.primary copy ≠ none

/-- Decisions and the stamp stay. -/
structure Election.Extends (pid : Nat) (state' state : Election κ) : Prop where
  primary : ∀ copy, state.primary copy ≠ none → state'.primary copy ≠ none
  stamp : state.Stamped pid → state'.Stamped pid

variable {state state' : Election κ} {op : ElectionOp κ}

omit [DecidableEq κ] in
theorem ElectionOp.Fits.extends
    (fits : op.Fits pid first state) (later : state'.Extends pid state) : op.Fits pid first state' := by
  cases op with
  | load | setStamp => exact fits
  | readStamp copy => exact fits.imp_right (later.primary first)
  | latch copy desired => exact ⟨later.stamp fits.1, fits.2⟩
  | reload copy => exact later.primary copy fits

omit [DecidableEq κ] in
theorem Elected.answer {state : Election κ} (elected : Elected pid first state) {copy : κ} {result : Bool}
    (right : result = true ↔ copy = first) : Elected pid first (state.answer copy result) := by
  refine ⟨fun other result' member => ?_, elected.decided, elected.stamped⟩
  rcases mem_append.1 member with before | new
  · exact elected.answers other result' before
  · cases mem_singleton.1 new
    exact right

/-- One step of a call, unless it latches what it took from its own copy's stamp. -/
theorem elected_exec {next : List (ElectionOp κ)} (elected : Elected pid first state)
    (fits : op.Fits pid first state) (inTime : op = .latch first false → state.primary first ≠ none)
    (executed : state.exec pid first op = some (state', next)) :
    Elected pid first state' ∧ state'.Extends pid state ∧ ∀ later ∈ next, later.Fits pid first state' := by
  have same : state.Extends pid state := ⟨fun _ decided => decided, fun stamped => stamped⟩
  have answered : ∀ copy result, (state.answer copy result).Extends pid state :=
    fun _ _ => ⟨fun _ decided => decided, fun stamped => stamped⟩
  cases op with
  | load copy =>
      simp only [Election.exec, Option.ite_none_left_eq_some] at executed
      obtain ⟨present, executed⟩ := executed
      cases known : state.primary copy with
      | some result =>
          rw [known] at executed
          cases executed
          exact ⟨elected.answer (elected.decided copy result known), answered copy result, by simp⟩
      | none =>
          rw [known] at executed
          cases executed
          refine ⟨elected, same, ?_⟩
          simp only [mem_singleton, forall_eq, ElectionOp.Fits]
          tauto
  | readStamp copy =>
      cases executed
      refine ⟨elected, same, ?_⟩
      by_cases own : readStampedPrimaryPid state.stamp = pid
      · rw [if_pos own]
        simp [ElectionOp.Fits, Election.Stamped, own]
      · rw [if_neg own]
        have undecided : ¬state.primary first ≠ none := fun decided => own (elected.stamped decided)
        simpa [ElectionOp.Fits] using fits.resolve_right undecided
  | setStamp copy =>
      cases executed
      have stamped : Election.Stamped pid { state with stamp := some (pidText pid) } :=
        readStampedPrimaryPid_pidText pid
      refine ⟨⟨elected.answers, elected.decided, fun _ => stamped⟩, ⟨same.primary, fun _ => stamped⟩, ?_⟩
      simpa [ElectionOp.Fits] using ⟨stamped, fits⟩
  | latch copy desired =>
      cases known : state.primary copy with
      | some result =>
          simp only [Election.exec, known] at executed
          cases executed
          exact ⟨elected, same, by simp [ElectionOp.Fits, known]⟩
      | none =>
          simp only [Election.exec, known] at executed
          cases executed
          have right : desired = true ↔ copy = first := by
            refine ⟨fits.2, fun isFirst => ?_⟩
            subst isFirst
            cases desired with
            | true => rfl
            | false => exact absurd known (inTime rfl)
          have kept : ∀ other, state.primary other ≠ none →
              Function.update state.primary copy (some desired) other ≠ none := by
            intro other decided
            by_cases isCopy : other = copy
            · simp [isCopy]
            · rwa [update_of_ne isCopy]
          have latched : Elected pid first
              { state with primary := Function.update state.primary copy (some desired) } := by
            refine ⟨elected.answers, fun other result decided => ?_, fun _ => fits.1⟩
            have decided : Function.update state.primary copy (some desired) other = some result := decided
            by_cases isCopy : other = copy
            · subst isCopy
              rw [update_self] at decided
              cases decided
              exact right
            · rw [update_of_ne isCopy] at decided
              exact elected.decided other result decided
          exact ⟨latched.answer right, ⟨kept, fun _ => fits.1⟩, by simp⟩
  | reload copy =>
      cases executed
      obtain ⟨result, known⟩ := Option.ne_none_iff_exists'.1 fits
      refine ⟨elected.answer ?_, answered copy _, by simp⟩
      rw [known]
      simpa using elected.decided copy result known

/-! ### Whole runs -/

/-- The invariant, with what every call in flight knows. -/
structure ElectedPool (pid : Nat) (first : κ) (pool : Pool τ (Election κ) (ElectionOp κ)) : Prop where
  elected : Elected pid first pool.shared
  inFlight : ∀ t, ∀ op ∈ pool.todo t, op.Fits pid first pool.shared

theorem ElectedPool.init (stamp : Option (List Char)) :
    ElectedPool pid first
      (election pid first stamp : Machine (Pool τ (Election κ) (ElectionOp κ)) (Event τ κ Unit)).init where
  elected := ⟨by simp [election, Code.machine], by simp [election, Code.machine], fun decided =>
    absurd rfl decided⟩
  inFlight := by simp [election, Code.machine]

variable {pool pool' : Pool τ (Election κ) (ElectionOp κ)} {event : Event τ κ Unit}
  {stamp : Option (List Char)}

theorem ElectedPool.step (elected : ElectedPool pid first pool) (inTime : LatchesInTime first pool event)
    (stepped : (election pid first stamp).step pool event = some pool') : ElectedPool pid first pool' := by
  rcases Code.step_call_or_exec stepped with
    ⟨t, copy, ops, rfl, -, started, rfl⟩ | ⟨t, answer, op, rest, shared', next, rfl, pending, executed, rfl⟩
  · refine ⟨elected.elected, fun other op member => ?_⟩
    cases started
    by_cases isCaller : other = t
    · subst isCaller
      rw [Pool.setTodo_self, mem_singleton] at member
      subst member
      trivial
    · rw [Pool.setTodo_other pool _ isCaller] at member
      exact elected.inFlight other op member
  · have fits := elected.inFlight t
    rw [pending, forall_mem_cons] at fits
    obtain ⟨elected', later, nextFits⟩ := elected_exec elected.elected fits.1
      (fun latches => inTime (by rw [pending, latches]; rfl)) executed
    refine ⟨elected', fun other op member => ?_⟩
    by_cases isCaller : other = t
    · subst isCaller
      simp only [update_self, mem_append] at member
      exact member.elim (nextFits op) fun inRest => (fits.2 op inRest).extends later
    · simp only [update_of_ne isCaller] at member
      exact (elected.inFlight other op member).extends later

/-- A step that latches the first copy's own stamp answers false in the first copy. -/
theorem inTime_of_firstAnswers (stepped : (election pid first stamp).step pool event = some pool')
    (answers : FirstAnswers first pool') : LatchesInTime first pool event := by
  rcases Code.step_call_or_exec stepped with
    ⟨t, copy, ops, rfl, -, -, -⟩ | ⟨t, answer, op, rest, shared', next, rfl, pending, executed, rfl⟩
  · trivial
  · intro latches undecided
    rw [pending] at latches
    cases latches
    have executed : pool.shared.exec pid first (.latch first false) = some (shared', next) := executed
    simp only [Election.exec, undecided] at executed
    cases executed
    have wrong := answers first false (mem_append_right _ mem_cons_self)
    simp at wrong

/-- In every interleaving of calls: all calls answer true in the first copy and false in every other, in
every state passed through, if and only if no thread of the first copy latches the stamp of its own copy.
-/
theorem first_answers_iff (stamp : Option (List Char)) (schedule : List (Event τ κ Unit)) :
    (election pid first stamp).Along (FirstAnswers first) (election pid first stamp).init schedule ↔
      (election pid first stamp).Respects (LatchesInTime first) (election pid first stamp).init schedule :=
  Machine.along_iff_respects_of (I := ElectedPool pid first)
    (fun elected => elected.elected.answers) (fun elected inTime stepped => elected.step inTime stepped)
    (fun _ stepped answers => inTime_of_firstAnswers stepped answers) schedule (.init stamp)

/-- The copy that was preloaded, and one that the loader maps into another namespace later. -/
inductive LoadedCopy where
  | preloaded
  | namespaced
deriving DecidableEq, Repr

/-- Threads 1 and 2 find the preloaded copy undecided. Thread 1 stamps the environment; thread 2 reads
that stamp and latches first. Later a call comes from the other copy. -/
def ownStampLatched : List (Event Nat LoadedCopy Unit) :=
  [.call 1 .preloaded, .call 2 .preloaded, .exec 1 (), .exec 2 (), .exec 1 (), .exec 1 (), .exec 2 (),
    .exec 2 (), .exec 1 (), .exec 1 (), .call 1 .namespaced, .exec 1 (), .exec 1 (), .exec 1 ()]

/-- All three calls answer false: no copy answers for the process. -/
theorem own_stamp_latched_elects_none :
    ∃ pool, (election 1234 LoadedCopy.preloaded none).run
        (election 1234 LoadedCopy.preloaded none).init ownStampLatched = some pool ∧
      pool.shared.answers = [(.preloaded, false), (.preloaded, false), (.namespaced, false)] ∧
      ¬FirstAnswers .preloaded pool := by
  obtain ⟨pool, ran, seen⟩ : ∃ pool ∈ (election 1234 LoadedCopy.preloaded none).run
      (election 1234 LoadedCopy.preloaded none).init ownStampLatched,
      pool.shared.answers = [(.preloaded, false), (.preloaded, false), (.namespaced, false)] := by
        decide +kernel
  refine ⟨pool, ran, seen, fun answers => ?_⟩
  have wrong := answers .preloaded false (by rw [seen]; exact mem_cons_self)
  simp at wrong

end MallocHook
