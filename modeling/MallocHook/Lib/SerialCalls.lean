/-
Module: MallocHook.Lib.SerialCalls
Purpose: Calls that run one after the other, each to its end, over the code that threads interleave, and
  triples for the operations of one call.
Trusted boundary: none
Main exports: Call, Code.finish, Code.serial, Code.SerialSees
-/
import MallocHook.Lib.ThreadPool

/-- A call with the answers its operations get. -/
structure Call (τ γ α : Type*) where
  thread : τ
  request : γ
  answers : List α

namespace Code

open List Option Function

variable {τ σ ω γ α : Type*} (code : Code τ σ ω γ α)

/-- Execute the operations of one thread alone until nothing is left; `none` if one is blocked or the
answers do not match. -/
def finish (t : τ) : List α → σ → List ω → Option σ
  | [], s, [] => some s
  | answer :: answers, s, op :: rest =>
      (code.exec t s op answer).bind fun result => finish t answers result.1 (result.2 ++ rest)
  | [], _, _ :: _ => none
  | _ :: _, _, [] => none

/-- The machine whose steps are whole calls. -/
def serial (initial : σ) : Machine σ (Call τ γ α) where
  init := initial
  step s call := (code.start call.thread call.request).bind (code.finish call.thread call.answers s)

/-- The code with something noted at every operation, beside the state and without effect on it. -/
def observed {κ : Type*} (note : σ → ω → α → κ → κ) : Code τ (σ × κ) ω γ α where
  start := code.start
  exec t s op answer := (code.exec t s.1 op answer).map fun result =>
    ((result.1, note s.1 op answer s.2), result.2)

/-- Some state that operations executed alone pass through has `P`. -/
def Sees (t : τ) (P : σ → Prop) : List α → σ → List ω → Prop
  | answer :: answers, s, op :: rest =>
      P s ∨ ∃ result, code.exec t s op answer = some result ∧ Sees t P answers result.1 (result.2 ++ rest)
  | _, s, _ => P s

/-- Some state that serial calls pass through, between two calls or in the middle of one, has `P`. -/
def SerialSees (P : σ → Prop) : σ → List (Call τ γ α) → Prop
  | s, [] => P s
  | s, call :: calls =>
      ∃ ops s', code.start call.thread call.request = some ops ∧
        code.finish call.thread call.answers s ops = some s' ∧
        (code.Sees call.thread P call.answers s ops ∨ SerialSees P s' calls)

variable {code} {t : τ} {s s' : σ} {answers : List α}

/-- The last state is one of those that serial calls pass through. -/
theorem serialSees_of_run {initial : σ} {P : σ → Prop} {calls : List (Call τ γ α)}
    (ran : (code.serial initial).run s calls = some s') (holds : P s') : code.SerialSees P s calls := by
  induction calls generalizing s with
  | nil =>
      cases ran
      exact holds
  | cons call calls ih =>
      obtain ⟨middle, stepped, ran⟩ := bind_eq_some_iff.1 ran
      obtain ⟨ops, started, finished⟩ := bind_eq_some_iff.1 stepped
      exact ⟨ops, middle, started, finished, .inr (ih ran)⟩

theorem finish_nil (finished : code.finish t answers s [] = some s') : s' = s := by
  cases answers with
  | nil => exact (Option.some.inj finished).symm
  | cons => cases finished

theorem finish_cons {op : ω} {rest : List ω} (finished : code.finish t answers s (op :: rest) = some s') :
    ∃ answer later middle next, answers = answer :: later ∧
      code.exec t s op answer = some (middle, next) ∧
      code.finish t later middle (next ++ rest) = some s' := by
  cases answers with
  | nil => cases finished
  | cons answer later =>
      obtain ⟨⟨middle, next⟩, executed, finished⟩ := bind_eq_some_iff.1 finished
      exact ⟨answer, later, middle, next, rfl, executed, finished⟩

/-- Induction along the operations of a call that comes to its end. -/
@[elab_as_elim]
theorem finish_induction
    {motive : ∀ (answers : List α) (s : σ) (ops : List ω), code.finish t answers s ops = some s' → Prop}
    (done : motive [] s' [] rfl)
    (exec : ∀ (answer : α) (answers : List α) (s : σ) (op : ω) (rest : List ω) (middle : σ) (next : List ω)
      (executed : code.exec t s op answer = some (middle, next))
      (finished : code.finish t answers middle (next ++ rest) = some s'),
      motive answers middle (next ++ rest) finished →
        motive (answer :: answers) s (op :: rest)
        (Option.bind_eq_some_iff.2 ⟨(middle, next), executed, finished⟩))
    {answers : List α} {s : σ} {ops : List ω} (finished : code.finish t answers s ops = some s') :
    motive answers s ops finished := by
  induction answers generalizing s ops with
  | nil =>
      cases ops with
      | nil =>
          cases finished
          exact done
      | cons => cases finished
  | cons answer answers ih =>
      cases ops with
      | nil => cases finished
      | cons op rest =>
          obtain ⟨⟨middle, next⟩, executed, later⟩ := bind_eq_some_iff.1 finished
          exact exec answer answers s op rest middle next executed later (ih later)

/-- Operations come to their end before those after them begin. -/
theorem finish_append {first second : List ω}
    (finished : code.finish t answers s (first ++ second) = some s') :
    ∃ early late middle, answers = early ++ late ∧
      code.finish t early s first = some middle ∧ code.finish t late middle second = some s' := by
  induction answers generalizing s first with
  | nil =>
      cases first with
      | nil => exact ⟨[], [], s, rfl, rfl, finished⟩
      | cons op rest => cases finished
  | cons answer answers ih =>
      cases first with
      | nil => exact ⟨[], answer :: answers, s, rfl, rfl, finished⟩
      | cons op rest =>
          rw [cons_append] at finished
          obtain ⟨⟨middle, next⟩, executed, finished⟩ := bind_eq_some_iff.1 finished
          rw [← append_assoc] at finished
          obtain ⟨early, late, after, rfl, firstFinished, secondFinished⟩ := ih finished
          exact ⟨answer :: early, late, after, rfl,
            bind_eq_some_iff.2 ⟨(middle, next), executed, firstFinished⟩, secondFinished⟩

/-- A call that comes to its end keeps its outcome in code whose operations can do at least as much. -/
theorem finish_mono {code' : Code τ σ ω γ α}
    (refines : ∀ {t s op answer result}, code.exec t s op answer = some result →
      code'.exec t s op answer = some result) {ops : List ω}
    (finished : code.finish t answers s ops = some s') : code'.finish t answers s ops = some s' := by
  induction finished using finish_induction with
  | done => rfl
  | exec answer answers s op rest middle next executed _ ih =>
      exact bind_eq_some_iff.2 ⟨(middle, next), refines executed, ih⟩

/-- When operations of a kind keep `P` and leave only operations of that kind, as long as answers are
`good`, they keep `P` to the end. -/
theorem finish_invariant {P : σ → Prop} (kind : ω → Prop) (good : α → Prop)
    (keeps : ∀ {s op answer s' next}, kind op → good answer → P s →
      code.exec t s op answer = some (s', next) → P s' ∧ ∀ later ∈ next, kind later)
    {ops : List ω} (ofKind : ∀ op ∈ ops, kind op) (areGood : ∀ answer ∈ answers, good answer)
    (holds : P s) (finished : code.finish t answers s ops = some s') : P s' := by
  induction finished using finish_induction with
  | done => exact holds
  | exec answer answers s op rest middle next executed _ ih =>
      obtain ⟨isOfKind, restOfKind⟩ := forall_mem_cons.1 ofKind
      obtain ⟨isGood, restGood⟩ := forall_mem_cons.1 areGood
      obtain ⟨after, nextOfKind⟩ := keeps isOfKind isGood holds executed
      exact ih (forall_mem_append.2 ⟨nextOfKind, restOfKind⟩) restGood after

/-! ### Pre- and postconditions of operations executed alone -/

variable (code t) in
/-- Executed alone from a state with `P`, the operations end in a state with `Q`. -/
def Triple (P : σ → Prop) (ops : List ω) (Q : σ → Prop) : Prop :=
  ∀ answers s s', P s → code.finish t answers s ops = some s' → Q s'

namespace Triple

variable {P Q R : σ → Prop} {op : ω} {first rest second : List ω}

theorem nil (implies : ∀ s, P s → Q s) : code.Triple t P [] Q := by
  intro answers s s' holds finished
  rw [finish_nil finished]
  exact implies s holds

/-- The rule for one operation: what it leaves to do has to end as it should. -/
theorem step (leaves : ∀ {s answer s' next}, P s → code.exec t s op answer = some (s', next) →
    code.Triple t (fun middle => middle = s') next Q) : code.Triple t P [op] Q := by
  intro answers s s' holds finished
  obtain ⟨answer, later, middle, next, rfl, executed, finished⟩ := finish_cons finished
  rw [append_nil] at finished
  exact leaves holds executed _ _ _ rfl finished

/-- What an operation leaves to do ends as the operation with all that follows it does. -/
theorem rest_of (triple : code.Triple t P [op] Q) {answer : α} {next : List ω} (holds : P s)
    (executed : code.exec t s op answer = some (s', next)) :
    code.Triple t (fun middle => middle = s') next Q := by
  intro answers middle after same finished
  subst same
  refine triple (answer :: answers) s after holds ?_
  rw [finish, executed, bind_some, append_nil]
  exact finished

/-- An operation that leaves nothing to do. -/
theorem atomic (ends : ∀ {s answer s' next}, P s → code.exec t s op answer = some (s', next) →
    next = [] ∧ Q s') : code.Triple t P [op] Q := by
  refine .step fun holds executed => ?_
  obtain ⟨rfl, after⟩ := ends holds executed
  exact nil fun middle same => same ▸ after

theorem append (one : code.Triple t P first R) (two : code.Triple t R second Q) :
    code.Triple t P (first ++ second) Q := by
  intro answers s s' holds finished
  obtain ⟨early, late, middle, rfl, firstFinished, secondFinished⟩ := finish_append finished
  exact two _ _ _ (one _ _ _ holds firstFinished) secondFinished

theorem cons (one : code.Triple t P [op] R) (two : code.Triple t R rest Q) :
    code.Triple t P (op :: rest) Q :=
  append one two

theorem imp {P' Q' : σ → Prop} (triple : code.Triple t P first Q) (stronger : ∀ s, P' s → P s)
    (weaker : ∀ s, Q s → Q' s) : code.Triple t P' first Q' :=
  fun _ _ _ holds finished => weaker _ (triple _ _ _ (stronger _ holds) finished)

/-- Operations of a kind that keeps `P` and leaves only operations of that kind keep `P` to the end. -/
theorem invariant (kind : ω → Prop)
    (keeps : ∀ {s op answer s' next}, kind op → P s → code.exec t s op answer = some (s', next) →
      P s' ∧ ∀ later ∈ next, kind later) (ofKind : ∀ op ∈ first, kind op) : code.Triple t P first P :=
  fun _ _ _ holds finished => finish_invariant kind (fun _ => True)
    (fun isOfKind _ before executed => keeps isOfKind
    before executed) ofKind (fun _ _ => trivial) holds finished

end Triple

/-- A property that every call keeps holds of every state that serial calls reach. -/
theorem serial_invariant {initial : σ} {ok : σ → Call τ γ α → Prop} {P : σ → Prop} (holds : P initial)
    (keeps : ∀ {s call ops}, ok s call → code.start call.thread call.request = some ops →
      code.Triple call.thread (fun before => before = s ∧ P s) ops P)
    (reached : (code.serial initial).ReachableBy ok s) : P s := by
  refine reached.invariant holds fun {s s' call} before allowed stepped => ?_
  obtain ⟨ops, started, finished⟩ := bind_eq_some_iff.1 stepped
  exact keeps allowed started _ _ _ ⟨rfl, before⟩ finished

/-! ### Serial calls are one way to interleave -/

variable [DecidableEq τ]

/-- A call that runs alone is a run of the pool, with the other threads idle. -/
theorem run_of_finish (initial : σ) {ops : List ω} (finished : code.finish t answers s ops = some s') :
    (code.machine initial).run { shared := s, todo := update (fun _ => []) t ops }
        (answers.map (.exec t)) =
      some { shared := s', todo := fun _ => [] } := by
  induction finished using finish_induction with
  | done =>
      rw [update_eq_self]
      rfl
  | exec answer answers s op rest middle next executed _ ih =>
      have stepped : (code.machine initial).step
          { shared := s, todo := update (fun _ => []) t (op :: rest) } (.exec t answer) =
          some { shared := middle, todo := update (fun _ => []) t (next ++ rest) } := by
        simp [machine, step, executed, Pool.setTodo]
      rw [map_cons, Machine.run, stepped]
      exact ih

/-- What serial calls reach, interleaved threads reach as well. -/
theorem serial_reachable {initial : σ} (reached : (code.serial initial).Reachable s) :
    (code.machine initial).Reachable { shared := s, todo := fun _ => [] } := by
  refine reached.invariant (P := fun s => (code.machine initial).Reachable ⟨s, fun _ => []⟩) ?_
    fun {s s' call} before _ stepped => ?_
  · exact Machine.ReachableBy.init
  obtain ⟨ops, started, finished⟩ := bind_eq_some_iff.1 stepped
  have called : (code.machine initial).step { shared := s, todo := fun _ => [] }
      (.call call.thread call.request) =
      some { shared := s, todo := update (fun _ => []) call.thread ops } := by
    simp [machine, step, started, Pool.setTodo]
  have calling : (code.machine initial).Reachable
      { shared := s, todo := update (fun _ => []) call.thread ops } :=
    .step before trivial called
  exact calling.run (run_of_finish initial finished)

end Code
