/-
Module: MallocHook.Lib.ScopedLocks
Purpose: Threads that take mutexes in ascending order and give them back in the reverse order.
  Operations are typed by what they do to the mutexes, and a pool that keeps its types is free of
  deadlock.
Trusted boundary: none
Main exports: Gives, LockSystem, Guarded, Deadlocked
-/
import MallocHook.Lib.ThreadPool

/-- What an operation does to the mutexes its thread holds. `under held` runs while exactly `held` are
held, the last acquired first; what it leaves to do releases them. -/
inductive LockEffect (μ : Type*) where
  | acquire (mutex : μ)
  | release (mutex : μ)
  | under (held : List μ)
deriving DecidableEq

section

variable {ω μ : Type*} [LT μ] (effect : ω → LockEffect μ)

/-- What a thread holding `held` may run: each operation acquires above everything held or releases the
last mutex acquired, and in the end nothing is held. -/
inductive Gives : List μ → List ω → Prop where
  | nil : Gives [] []
  | acquire {held : List μ} {op : ω} {ops : List ω} {mutex : μ} (takes : effect op = .acquire mutex)
      (above : ∀ other ∈ held, other < mutex) (later : Gives (mutex :: held) ops) : Gives held (op :: ops)
  | release {held : List μ} {op : ω} {ops : List ω} {mutex : μ} (drops : effect op = .release mutex)
      (later : Gives held ops) : Gives (mutex :: held) (op :: ops)
  | under {held : List μ} {op : ω} {ops : List ω} (runs : effect op = .under held)
      (later : Gives [] ops) : Gives held (op :: ops)

variable {effect}

/-- Once everything is given back, a thread may go on with anything it may start with. -/
theorem Gives.append {held : List μ} {first second : List ω} (one : Gives effect held first)
    (two : Gives effect [] second) : Gives effect held (first ++ second) := by
  induction one with
  | nil => exact two
  | acquire takes above _ ih => exact .acquire takes above ih
  | release drops _ ih => exact .release drops ih
  | under runs _ ih => exact .under runs ih

/-- An operation that runs under some mutexes is reached with exactly these. -/
theorem Gives.held_eq {held needed : List μ} {op : ω} {ops : List ω} (gives : Gives effect held (op :: ops))
    (needs : effect op = .under needed) : held = needed := by
  cases gives with
  | acquire takes _ _ => cases takes.symm.trans needs
  | release drops _ => cases drops.symm.trans needs
  | under runs _ => cases runs.symm.trans needs; rfl

/-- Acquire a list of mutexes in ascending order, all above those held. -/
theorem gives_acquireAll {acquire : μ → ω} (acquires : ∀ mutex, effect (acquire mutex) = .acquire mutex)
    {mutexes : List μ} (ascending : mutexes.Pairwise (· < ·)) {held : List μ}
    (above : ∀ mutex ∈ mutexes, ∀ other ∈ held, other < mutex) {ops : List ω}
    (later : Gives effect (mutexes.reverse ++ held) ops) :
    Gives effect held (mutexes.map acquire ++ ops) := by
  induction mutexes generalizing held with
  | nil => exact later
  | cons mutex rest ih =>
      obtain ⟨lowest, ascending⟩ := List.pairwise_cons.1 ascending
      rw [List.map_cons, List.cons_append]
      refine .acquire (acquires mutex) (above mutex List.mem_cons_self) (ih ascending ?_ ?_)
      · intro next member other held
        rcases List.mem_cons.1 held with rfl | held
        · exact lowest next member
        · exact above next (List.mem_cons_of_mem _ member) other held
      · rwa [List.reverse_cons, List.append_assoc] at later

/-- Release a list of mutexes, the last one acquired first. -/
theorem gives_releaseAll {release : μ → ω} (releases : ∀ mutex, effect (release mutex) = .release mutex)
    (mutexes : List μ) {held : List μ} {ops : List ω} (later : Gives effect held ops) :
    Gives effect (mutexes ++ held) (mutexes.map release ++ ops) := by
  induction mutexes with
  | nil => exact later
  | cons mutex rest ih => exact .release (releases mutex) ih

end

/-! ### Pools of threads -/

/-- What the code has to do with its mutexes: an acquired one was free and is then owned by the thread, a
released one is free, and other operations leave them alone. -/
structure LockSystem {τ σ ω γ α : Type*} (μ : Type*) [DecidableEq μ] [LT μ] (code : Code τ σ ω γ α) where
  effect : ω → LockEffect μ
  owner : σ → μ → Option τ
  start : ∀ {t request ops}, code.start t request = some ops → Gives effect [] ops
  acquire : ∀ {t shared op answer shared' next mutex}, effect op = .acquire mutex →
    code.exec t shared op answer = some (shared', next) →
      next = [] ∧ owner shared mutex = none ∧ owner shared' = Function.update (owner shared) mutex (some t)
  release : ∀ {t shared op answer shared' next mutex}, effect op = .release mutex →
    code.exec t shared op answer = some (shared', next) →
      next = [] ∧ owner shared' = Function.update (owner shared) mutex none
  under : ∀ {t shared op answer shared' next held}, effect op = .under held →
    code.exec t shared op answer = some (shared', next) →
      owner shared' = owner shared ∧ Gives effect held next

section

variable {τ σ ω γ α μ : Type*} [DecidableEq μ] [Preorder μ] {code : Code τ σ ω γ α}
    (system : LockSystem μ code)

/-- A thread holds exactly the mutexes of a list, and what it has left to do gives them back. -/
structure ThreadGuarded (owner : μ → Option τ) (t : τ) (held : List μ) (ops : List ω) : Prop where
  owns : ∀ mutex, owner mutex = some t ↔ mutex ∈ held
  descending : held.Pairwise (· > ·)
  gives : Gives system.effect held ops

/-- Every thread is in order. -/
def Guarded (pool : Pool τ σ ω) : Prop :=
  ∀ t, ∃ held, ThreadGuarded system (system.owner pool.shared) t held (pool.todo t)

/-- A thread is waiting for a mutex that a thread holds. -/
def Waits (pool : Pool τ σ ω) (t : τ) (mutex : μ) (holder : τ) : Prop :=
  ∃ op rest, pool.todo t = op :: rest ∧ system.effect op = .acquire mutex ∧
    system.owner pool.shared mutex = some holder

/-- A set of threads each of which waits for a mutex that a thread of the set holds. -/
def Deadlocked (pool : Pool τ σ ω) (threads : Set τ) : Prop :=
  threads.Nonempty ∧ ∀ t ∈ threads, ∃ mutex, ∃ holder ∈ threads, Waits system pool t mutex holder

variable {system} {owner : μ → Option τ} {t : τ} {held : List μ} {ops : List ω}

/-- A thread with nothing left to do holds nothing. -/
theorem ThreadGuarded.free (idle : ThreadGuarded system owner t held []) : held = [] := by
  cases idle.gives
  rfl

/-- Changing a mutex that a thread neither holds nor gets does not concern it. -/
theorem ThreadGuarded.other (guarded : ThreadGuarded system owner t held ops) {mutex : μ} {holder : Option τ}
    (before : owner mutex ≠ some t) (after : holder ≠ some t) :
    ThreadGuarded system (Function.update owner mutex holder) t held ops where
  owns := by
    intro other
    by_cases same : other = mutex
    · subst same
      rw [Function.update_self]
      exact iff_of_false after fun member => before ((guarded.owns other).2 member)
    · rw [Function.update_of_ne same]
      exact guarded.owns other
  descending := guarded.descending
  gives := guarded.gives

/-- A thread that gets a mutex above those it holds. -/
theorem ThreadGuarded.acquired (owns : ∀ mutex, owner mutex = some t ↔ mutex ∈ held)
    (descending : held.Pairwise (· > ·)) {mutex : μ} (above : ∀ other ∈ held, other < mutex)
    (later : Gives system.effect (mutex :: held) ops) :
    ThreadGuarded system (Function.update owner mutex (some t)) t (mutex :: held) ops where
  owns := by
    intro other
    rw [List.mem_cons]
    by_cases same : other = mutex
    · subst same
      simp
    · rw [Function.update_of_ne same, owns]
      simp [same]
  descending := List.pairwise_cons.2 ⟨above, descending⟩
  gives := later

/-- A thread that gives back the last mutex it got. -/
theorem ThreadGuarded.released {mutex : μ} (owns : ∀ other, owner other = some t ↔ other ∈ mutex :: held)
    (descending : (mutex :: held).Pairwise (· > ·)) (later : Gives system.effect held ops) :
    ThreadGuarded system (Function.update owner mutex none) t held ops where
  owns := by
    obtain ⟨lower, _⟩ := List.pairwise_cons.1 descending
    intro other
    by_cases same : other = mutex
    · subst same
      rw [Function.update_self]
      exact iff_of_false (by simp) fun member => lt_irrefl _ (lower other member)
    · rw [Function.update_of_ne same, owns, List.mem_cons]
      simp [same]
  descending := (List.pairwise_cons.1 descending).2
  gives := later

/-! ### Whole pools -/

variable {pool pool' : Pool τ σ ω}

section

variable (guarded : Guarded system pool)
include guarded

/-- A thread with nothing left to do has released all it had. -/
theorem Guarded.released (idle : pool.todo t = []) (mutex : μ) :
    system.owner pool.shared mutex ≠ some t := by
  obtain ⟨held, inOrder⟩ := guarded t
  rw [idle] at inOrder
  obtain rfl := inOrder.free
  exact fun owned => List.not_mem_nil ((inOrder.owns mutex).1 owned)

/-- What a thread waits for is above everything it holds. -/
theorem Guarded.waits_above {t holder : τ} {mutex other : μ} (waits : Waits system pool t mutex holder)
    (owned : system.owner pool.shared other = some t) : other < mutex := by
  obtain ⟨op, rest, pending, takes, _⟩ := waits
  obtain ⟨held, owns, _, gives⟩ := guarded t
  rw [pending] at gives
  cases gives with
  | acquire takes' above _ =>
      rw [takes] at takes'
      cases takes'
      exact above other ((owns other).1 owned)
  | release drops _ =>
      rw [takes] at drops
      cases drops
  | under runs _ =>
      rw [takes] at runs
      cases runs

/-- No set of threads is deadlocked: consider the highest mutex any of them waits for. -/
theorem Guarded.no_deadlock [WellFoundedGT μ] (threads : Set τ) : ¬ Deadlocked system pool threads := by
  rintro ⟨⟨first, member⟩, stuck⟩
  let waitedFor : Set μ := { mutex | ∃ t ∈ threads, ∃ holder ∈ threads, Waits system pool t mutex holder }
  have upwards : WellFounded ((· > ·) : μ → μ → Prop) := wellFounded_gt
  obtain ⟨mutex, holder, isMember, waits⟩ := stuck first member
  obtain ⟨highest, ⟨_, _, owner, ownerMember, waited⟩, isHighest⟩ :=
    upwards.has_min waitedFor ⟨mutex, first, member, holder, isMember, waits⟩
  obtain ⟨next, nextHolder, nextMember, ownerWaits⟩ := stuck owner ownerMember
  apply isHighest next ⟨owner, ownerMember, nextHolder, nextMember, ownerWaits⟩
  obtain ⟨_, _, _, _, owned⟩ := waited
  exact guarded.waits_above ownerWaits owned

/-- If a thread has something left to do, then so has one that is not waiting. -/
theorem Guarded.someone_free [WellFoundedGT μ] (busy : pool.todo t ≠ []) :
    ∃ t, pool.todo t ≠ [] ∧ ∀ mutex holder, ¬ Waits system pool t mutex holder := by
  by_contra none
  push Not at none
  apply guarded.no_deadlock { t | pool.todo t ≠ [] }
  refine ⟨⟨t, busy⟩, fun t busy => ?_⟩
  obtain ⟨mutex, holder, waits⟩ := none t busy
  refine ⟨mutex, holder, fun idle => ?_, waits⟩
  obtain ⟨_, _, _, _, owned⟩ := waits
  exact guarded.released idle mutex owned

end

variable [DecidableEq τ]

/-- A step of one thread: that thread and the others are in order afterwards. -/
theorem Guarded.update {shared' : σ} (mine : ∃ held, ThreadGuarded system (system.owner shared') t held ops)
    (others : ∀ other, other ≠ t → ∃ held, ThreadGuarded system (system.owner shared') other held
      (pool.todo other)) :
    Guarded system { shared := shared', todo := Function.update pool.todo t ops } := by
  intro other
  by_cases same : other = t
  · subst same
    simpa using mine
  · simpa [Function.update_of_ne same] using others other same

/-- Every step keeps every thread in order. -/
theorem Guarded.step {event : Event τ γ α} (guarded : Guarded system pool)
    (stepped : code.step pool event = some pool') : Guarded system pool' := by
  rcases Code.step_call_or_exec stepped with
    ⟨t, request, ops, rfl, idle, started, rfl⟩ | ⟨t, answer, op, rest, shared', next, rfl,
      pending, executed, rfl⟩
  · obtain ⟨held, inOrder⟩ := guarded t
    rw [idle] at inOrder
    obtain rfl := inOrder.free
    apply Guarded.update
    · exact ⟨[], inOrder.owns, inOrder.descending, system.start started⟩
    · exact fun other _ => guarded other
  · obtain ⟨held, owns, descending, gives⟩ := guarded t
    rw [pending] at gives
    -- The mutexes change as the operation at the head says; the other threads do not hold the one that does.
    cases gives with
    | acquire takes above later =>
        obtain ⟨rfl, free, owner⟩ := system.acquire takes executed
        apply Guarded.update
        · rw [owner]
          exact ⟨_, .acquired owns descending above later⟩
        · intro other differs
          obtain ⟨held, inOrder⟩ := guarded other
          rw [owner]
          exact ⟨held, inOrder.other (by simp [free]) (by simpa using differs.symm)⟩
    | release drops later =>
        obtain ⟨rfl, owner⟩ := system.release drops executed
        apply Guarded.update
        · rw [owner]
          exact ⟨_, .released owns descending later⟩
        · intro other differs
          obtain ⟨held, inOrder⟩ := guarded other
          have mine := (owns _).2 List.mem_cons_self
          rw [owner]
          exact ⟨held, inOrder.other (by simpa [mine] using differs.symm) (by simp)⟩
    | under runs later =>
        obtain ⟨owner, gives⟩ := system.under runs executed
        apply Guarded.update
        · rw [owner]
          exact ⟨_, owns, descending, gives.append later⟩
        · intro other _
          rw [owner]
          exact guarded other

/-- From idle threads and free mutexes, every state reached is in order. -/
theorem guarded_of_reachable {initial : σ} (free : ∀ mutex, system.owner initial mutex = none)
    (reached : (code.machine initial).Reachable pool) : Guarded system pool := by
  refine reached.invariant ?_ fun guarded _ stepped => guarded.step stepped
  intro t
  refine ⟨[], ⟨fun mutex => ?_, .nil, .nil⟩⟩
  simp [Code.machine, free mutex]

end
