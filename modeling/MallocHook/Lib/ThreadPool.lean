/-
Module: MallocHook.Lib.ThreadPool
Purpose: Threads that run calls made of atomic operations over a shared state, and rules that lift facts
  about operations to whole runs.
Trusted boundary: none
Main exports: Code, Pool, Event, Code.machine
-/
import MallocHook.Lib.Machine
import MallocHook.Lib.Ledger

/-- The code of all threads: the operations a call consists of, and what executing one does and leaves to
do. `none` from `start` means that the thread cannot make the call, from `exec` that it is blocked. -/
structure Code (τ σ ω γ α : Type*) where
  start : τ → γ → Option (List ω)
  exec : τ → σ → ω → α → Option (σ × List ω)

/-- A shared state and, for every thread, the operations its current call still has to do. -/
structure Pool (τ σ ω : Type*) where
  shared : σ
  todo : τ → List ω

/-- One step of an interleaving. -/
inductive Event (τ γ α : Type*) where
  | call (thread : τ) (request : γ)
  | exec (thread : τ) (answer : α)

/-- The thread that takes the step. -/
def Event.thread {τ γ α : Type*} : Event τ γ α → τ
  | .call t _ => t
  | .exec t _ => t

namespace Pool

variable {τ σ ω : Type*}

/-- No call is in flight. -/
def Quiescent (pool : Pool τ σ ω) : Prop := ∀ t, pool.todo t = []

/-- Replace what a thread has left to do. -/
def setTodo [DecidableEq τ] (pool : Pool τ σ ω) (t : τ) (ops : List ω) : Pool τ σ ω :=
  { pool with todo := Function.update pool.todo t ops }

@[simp] theorem setTodo_self [DecidableEq τ] (pool : Pool τ σ ω) (t : τ) (ops : List ω) :
    (pool.setTodo t ops).todo t = ops :=
  Function.update_self ..

theorem setTodo_other [DecidableEq τ] (pool : Pool τ σ ω) {t other : τ} (ops : List ω)
    (differ : other ≠ t) : (pool.setTodo t ops).todo other = pool.todo other :=
  Function.update_of_ne differ ..

end Pool

namespace Code

variable {τ σ ω γ α : Type*} [DecidableEq τ] (code : Code τ σ ω γ α)

/-- One step of the pool. -/
def step (pool : Pool τ σ ω) : Event τ γ α → Option (Pool τ σ ω)
  | .call t request =>
      match pool.todo t with
      | [] => (code.start t request).map (pool.setTodo t)
      | _ :: _ => none
  | .exec t answer =>
      match pool.todo t with
      | [] => none
      | op :: rest =>
          (code.exec t pool.shared op answer).map fun result =>
            { pool.setTodo t (result.2 ++ rest) with shared := result.1 }

/-- The machine of all interleavings from a shared state with every thread idle. -/
def machine (initial : σ) : Machine (Pool τ σ ω) (Event τ γ α) where
  init := { shared := initial, todo := fun _ => [] }
  step := code.step

variable {code} {pool pool' : Pool τ σ ω}

/-- Everything a step can do. -/
theorem step_call_or_exec {event : Event τ γ α} (stepped : code.step pool event = some pool') :
    (∃ t request ops, event = .call t request ∧ pool.todo t = [] ∧
        code.start t request = some ops ∧ pool' = pool.setTodo t ops) ∨
      (∃ t answer op rest shared' next, event = .exec t answer ∧ pool.todo t = op :: rest ∧
        code.exec t pool.shared op answer = some (shared', next) ∧
        pool' = { shared := shared', todo := Function.update pool.todo t (next ++ rest) }) := by
  cases event with
  | call t request =>
      refine .inl ?_
      simp only [step] at stepped
      split at stepped
      · next idle =>
          obtain ⟨ops, started, rfl⟩ := Option.map_eq_some_iff.1 stepped
          exact ⟨t, request, ops, rfl, idle, started, rfl⟩
      · cases stepped
  | exec t answer =>
      refine .inr ?_
      simp only [step] at stepped
      split at stepped
      · cases stepped
      · next op rest pending =>
          obtain ⟨⟨shared', next⟩, executed, rfl⟩ := Option.map_eq_some_iff.1 stepped
          exact ⟨t, answer, op, rest, shared', next, rfl, pending, executed, rfl⟩

end Code

/-! ### How much a thread has left -/

section

variable {τ σ ω γ α : Type*}

/-- The weights of a list of operations, added up. -/
def load {M : Type*} [AddCommMonoid M] (weight : ω → M) (ops : List ω) : M :=
  (ops.map weight).sum

variable {M : Type*} [AddCommMonoid M] (weight : ω → M)

@[simp] theorem load_nil : load weight ([] : List ω) = 0 := rfl

@[simp] theorem load_cons (op : ω) (ops : List ω) :
    load weight (op :: ops) = weight op + load weight ops := rfl

@[simp] theorem load_append (first second : List ω) :
    load weight (first ++ second) = load weight first + load weight second := by
  simp [load]

/-- Weightless operations add up to nothing. -/
theorem load_eq_zero {ops : List ω} (weightless : ∀ op ∈ ops, weight op = 0) : load weight ops = 0 := by
  induction ops with
  | nil => rfl
  | cons op rest ih =>
      rw [load_cons, weightless op List.mem_cons_self,
        ih fun other member => weightless other (List.mem_cons_of_mem op member), add_zero]

/-- Operations that weigh nothing together weigh nothing each. -/
theorem weightless_of_load {weight : ω → Nat} {ops : List ω} (light : load weight ops = 0) :
    ∀ op ∈ ops, weight op = 0 := by
  induction ops with
  | nil => simp
  | cons op rest ih =>
      obtain ⟨here, later⟩ := Nat.add_eq_zero_iff.1 light
      exact List.forall_mem_cons.2 ⟨here, ih later⟩

/-! ### Sums over all threads -/

variable [Fintype τ]

/-- The weights of all pending operations of all threads, added up. -/
def pendingTotal (todo : τ → List ω) : M := ∑ t, load weight (todo t)

@[simp] theorem pendingTotal_idle : pendingTotal weight (fun _ : τ => ([] : List ω)) = 0 := by
  simp [pendingTotal]

variable [DecidableEq τ] {todo : τ → List ω}

/-- Starting a call adds its weight. -/
theorem pendingTotal_call {t : τ} (idle : todo t = []) (ops : List ω) :
    pendingTotal weight (Function.update todo t ops) = pendingTotal weight todo + load weight ops := by
  have moved := Ledger.sum_update_add (load weight) todo t ops
  rwa [idle, load_nil, add_zero] at moved

/-- Executing an operation replaces its weight by that of the operations it leaves. -/
theorem pendingTotal_exec {G : Type*} [AddCommGroup G] (weight : ω → G) {t : τ} {op : ω}
    {rest : List ω} (pending : todo t = op :: rest) (next : List ω) :
    pendingTotal weight (Function.update todo t (next ++ rest)) =
      pendingTotal weight todo - weight op + load weight next := by
  have moved := Ledger.sum_update_add (load weight) todo t (next ++ rest)
  rw [pending, load_cons, load_append] at moved
  unfold pendingTotal
  rw [eq_sub_of_add_eq moved]
  abel

end
