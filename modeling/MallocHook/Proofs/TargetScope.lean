/-
Module: MallocHook.Proofs.TargetScope
Purpose: The target itself, step by step through its initialization: it becomes guarded, or it gives up
  and is suppressed. Its depth is what its forks have raised it by.
Trusted boundary: none
Main exports: Process.Stage, Process.Target, Process.Orderly
-/
import MallocHook.Core.ProcessTree

namespace MallocHook

open List Function Option

variable {τ : Type*}

/-! ### Threads -/

/-- The phases of a fork that only its child goes through. -/
def ForkPhase.ofChild : ForkPhase → Bool
  | .inChild _ | .storedMode => true
  | _ => false

/-- By how much a fork has raised the depth. -/
def ForkPhase.raised : ForkPhase → Nat
  | .prepared callbacks | .inParent callbacks => callbacks
  | _ => 0

namespace Thread

def raised (thread : Thread) : Nat := (thread.forks.map ForkPhase.raised).sum

/-- The `InitializeTargetProcess` a thread is in. -/
def initialization (thread : Thread) : Option Initialization :=
  match thread.activity with
  | some (.initialization init) => some init
  | _ => none

/-- Where a thread of the target may be in its forks. -/
def OfTarget (p : Process τ) (thread : Thread) : Prop :=
  ∀ phase ∈ thread.forks, phase.ofChild = false ∧ (phase.inProgress = true → phase.raised = p.callbacks) ∧
    (p.ready = false → phase = .called ∧ thread.initialization ≠ none)

/-- A thread that keeps its forks. Until the target is initialized none of them is in progress. -/
theorem OfTarget.mono {p q : Process τ} {old thread : Thread} (ofTarget : old.OfTarget p)
    (forks : thread.forks = old.forks) (callbacks : q.callbacks = p.callbacks ∨ p.ready = false)
    (ready : q.ready = true ∨ q.ready = p.ready ∧
      (old.initialization ≠ none → thread.initialization ≠ none)) : thread.OfTarget q := by
  intro phase found
  rw [forks] at found
  obtain ⟨parentSide, raises, unready⟩ := ofTarget phase found
  refine ⟨parentSide, fun inProgress => ?_, fun notReady => ?_⟩
  · rcases callbacks with kept | before
    · exact (raises inProgress).trans kept.symm
    · rw [(unready before).1] at inProgress
      cases inProgress
  · rcases ready with after | ⟨kept, initializes⟩
    · cases after.symm.trans notReady
    · exact (unready (kept.symm.trans notReady)).imp_right initializes

theorem raised_eq_countP {thread : Thread}
    (each : ∀ phase ∈ thread.forks, phase.inProgress = true → phase.raised = 1) :
    thread.raised = thread.forks.countP ForkPhase.inProgress := by
  obtain ⟨forks, activity⟩ := thread
  induction forks with
  | nil => rfl
  | cons phase rest ih =>
      obtain ⟨here, later⟩ := forall_mem_cons.1 each
      have sum : raised ⟨phase :: rest, activity⟩ = phase.raised + raised ⟨rest, activity⟩ := by
        simp [raised]
      rw [sum, ih later, countP_cons]
      cases phase with
      | prepared callbacks => simp [here rfl, ForkPhase.inProgress, Nat.add_comm]
      | inParent callbacks => simp [here rfl, ForkPhase.inProgress, Nat.add_comm]
      | _ => simp [ForkPhase.raised, ForkPhase.inProgress]

end Thread

/-- The identity a thread of the tree has in hand: that of the target, or none at all. -/
def Initialization.Knows (target : Nat) (init : Initialization) : Prop :=
  match init.next with
  | .readReady | .readIdentity => True
  | .storeIdentity | .readEnviron => init.target = -1 ∨ init.target = target
  -- the stamp is there
  | .publish => False
  | _ => init.environmentReady = true ∧ (init.target = -1 ∨ init.target = target)

def Activity.Knows (target : Nat) : Activity → Prop
  | .evaluation (.storeIdentity identity) => identity = target
  | .evaluation _ => True
  | .initialization init => init.Knows target

namespace Process

/-- What every process of the tree has: the stamp of the target in its environment. -/
structure Stamped (target : Nat) (p : Process τ) : Prop where
  isPid : 0 < target ∧ target ≤ pidMax
  positive : 0 < p.pid
  environ : p.environ.isSome = true
  stamp : p.environ.getenv targetPidEnv = some (pidText target)
  identity : p.targetPid = -1 ∨ p.targetPid = 0 ∨ p.targetPid = target
  activities : ∀ t activity, (p.threads t).activity = some activity → activity.Knows target

/-- What a step of an activity leaves alone, and what it leaves behind. -/
structure Proceeded (target : Nat) (p q : Process τ) (later : Option Activity) : Prop where
  pid : q.pid = p.pid
  environ : q.environ = p.environ
  threads : q.threads = p.threads
  identity : q.targetPid = p.targetPid ∨ q.targetPid = -1 ∨ q.targetPid = target
  knows : ∀ activity, later = some activity → activity.Knows target

variable {action : Action} {init : Initialization} {outcome : Outcome τ}

section

variable {target : Nat} {p q : Process τ} {t : τ} {thread : Thread} {answers : InitAnswers}

section

variable (stamped : p.Stamped target)
include stamped

theorem Stamped.stampedIdentity_eq : p.stampedIdentity = target := by
  unfold stampedIdentity
  rw [stamped.stamp, elim_some, parsePid_pidText stamped.isPid.1 stamped.isPid.2, elim_some]

/-- In a descendant no identity it can have cached is its own pid. -/
theorem Stamped.identity_ne (other : p.pid ≠ target) : p.targetPid ≠ p.pid := by
  have positive := stamped.positive
  rcases stamped.identity with same | same | same
  · omega
  · omega
  · omega

theorem Stamped.targetIdentity_ne (other : p.pid ≠ target) : p.targetIdentity ≠ p.pid := by
  unfold targetIdentity
  split
  · exact stamped.identity_ne other
  · rw [stamped.stampedIdentity_eq]
    exact fun same => other (Int.ofNat.inj same).symm

/-- The stamp confirms the identity that a thread has in hand. -/
theorem Stamped.readEnviron_eq
    (reads : init.next = .readEnviron) (knows : init.target = -1 ∨ init.target = target) :
    p.initializeStep answers init = some (p, some
      { next := if init.target = p.pid then .readGuarded else .storeTarget
        target := init.target
        environmentReady := true }) := by
  unfold initializeStep
  simp only [reads, stamped.stamp, stamped.environ]
  rcases knows with gaveUp | known
  · simp [gaveUp]
  · simp [known, parsePid_pidText stamped.isPid.1 stamped.isPid.2]

theorem Stamped.evaluate {phase : Evaluation} (knows : (Activity.evaluation phase).Knows target) :
    Proceeded target p (p.evaluate phase).1 ((p.evaluate phase).2.elim
      (some ∘ .evaluation) fun _ => none) := by
  cases phase with
  | readIdentity =>
      refine ⟨rfl, rfl, rfl, .inl rfl, ?_⟩
      rintro _ ⟨⟩
      split
      · trivial
      · exact stamped.stampedIdentity_eq
  | storeIdentity identity =>
      refine ⟨rfl, rfl, rfl, .inr (.inr knows), ?_⟩
      rintro _ ⟨⟩
      trivial
  | inWindow =>
      refine ⟨rfl, rfl, rfl, .inl rfl, fun activity later => ?_⟩
      simp only [Process.evaluate] at later
      split at later <;> cases later
      trivial
  | readMode =>
      refine ⟨rfl, rfl, rfl, .inl rfl, fun activity later => ?_⟩
      simp only [Process.evaluate] at later
      split at later
      · cases later
      · split at later <;> cases later
        trivial
  | decide identity =>
      refine ⟨rfl, rfl, rfl, .inl rfl, ?_⟩
      rintro _ ⟨⟩
      trivial
  | storeMode mode => exact ⟨rfl, rfl, rfl, .inl rfl, by simp [Process.evaluate]⟩

theorem Stamped.initializeStep {init : Initialization} (knows : init.Knows target)
    {later : Option Initialization} (stepped : p.initializeStep answers init = some (q, later)) :
    Proceeded target p q (later.map .initialization) := by
  have hands {next : Initialization} (known : next.Knows target) (activity : Activity)
      (later : some (.initialization next) = some activity) : activity.Knows target := by
    cases later
    exact known
  obtain ⟨next, identity, environmentReady⟩ := init
  cases next with
  | readReady =>
      cases stepped
      split
      · exact ⟨rfl, rfl, rfl, .inl rfl, by simp⟩
      · exact ⟨rfl, rfl, rfl, .inl rfl, hands trivial⟩
  | readIdentity =>
      cases stepped
      split
      · next cached =>
          refine ⟨rfl, rfl, rfl, .inl rfl, hands ?_⟩
          exact stamped.identity.imp_right fun known => known.resolve_left cached
      · exact ⟨rfl, rfl, rfl, .inl rfl, hands (.inr stamped.stampedIdentity_eq)⟩
  | storeIdentity =>
      cases stepped
      exact ⟨rfl, rfl, rfl, .inr knows, hands knows⟩
  | readEnviron =>
      rw [stamped.readEnviron_eq rfl knows] at stepped
      cases stepped
      refine ⟨rfl, rfl, rfl, .inl rfl, hands ?_⟩
      split
      · exact ⟨rfl, knows⟩
      · exact ⟨rfl, knows⟩
  | publish => cases knows
  | readGuarded =>
      cases stepped
      refine ⟨rfl, rfl, rfl, .inl rfl, hands ?_⟩
      split
      · exact knows
      · exact knows
  | install =>
      simp only [Process.initializeStep] at stepped
      split at stepped
      · cases stepped
        exact ⟨rfl, rfl, rfl, .inl rfl, hands knows⟩
      · split at stepped <;> cases stepped
        exact ⟨rfl, rfl, rfl, .inl rfl, hands ⟨knows.1, .inl rfl⟩⟩
  | storeTarget =>
      cases stepped
      refine ⟨rfl, rfl, rfl, .inr knows.2, hands ?_⟩
      split
      · exact knows
      · exact knows
  | storeGuarded | storeMode | storeDepth =>
      cases stepped
      exact ⟨rfl, rfl, rfl, .inl rfl, hands knows⟩
  | storeReady =>
      cases stepped
      exact ⟨rfl, rfl, rfl, .inl rfl, by simp⟩

end

/-- A process some of whose members and one of whose threads change. -/
theorem Proceeded.stamped [DecidableEq τ] {later : Option Activity} (proceeded : Proceeded target p q later)
    (stamped : p.Stamped target) (activity : thread.activity = later) :
    (q.setThread t thread).Stamped target where
  isPid := stamped.isPid
  positive := proceeded.pid.symm ▸ stamped.positive
  environ := proceeded.environ.symm ▸ stamped.environ
  stamp := proceeded.environ.symm ▸ stamped.stamp
  identity := by
    rcases proceeded.identity with kept | gaveUp | known
    · exact kept.symm ▸ stamped.identity
    · exact .inl gaveUp
    · exact .inr (.inr known)
  activities := by
    refine q.forall_setThread
      (P := fun thread => ∀ activity, thread.activity = some activity → activity.Knows target)
      (activity ▸ proceeded.knows) fun other => ?_
    rw [proceeded.threads]
    exact stamped.activities other

theorem Stamped.execed (stamped : p.Stamped target) {environ : Environ} (kept : p.keepsStamp environ) :
    (p.execed environ).Stamped target :=
  ⟨stamped.isPid, stamped.positive, kept.1, kept.2.trans stamped.stamp,
    .inr (.inl rfl), fun _ _ running => by cases running⟩

/-- A step of a fork moves the depth by what the fork has raised it, or in the child latches the mode, or
clears the depth after that. -/
theorem forkStep_cases [DecidableEq τ] {phase : ForkPhase} {rest : List ForkPhase}
    (stepped : p.forkStep t rest action phase = some (q, outcome)) :
    outcome.answer = none ∧
      (∀ child, outcome.child = some child →
        ∃ pid callbacks, phase = .prepared callbacks ∧ child = p.forked t pid callbacks rest) ∧
      ((∃ depth forks, q = { p with forkDepth := depth }.setForks t forks ∧
          depth + Thread.raised { forks := phase :: rest } = p.forkDepth + Thread.raised { forks := forks } ∧
          ∀ phase' ∈ forks, phase' ∈ rest ∨ phase'.ofChild = false ∧ (phase'.inProgress = true →
            phase'.raised = p.callbacks ∨ phase.inProgress = true ∧ phase'.raised = phase.raised)) ∨
        (phase.ofChild = true ∧ q = { p with mode := .suppressed }.setForks t (.storedMode :: rest)) ∨
        (phase = .storedMode ∧ q = { p with forkDepth := 0 }.setForks t (.inChild true :: rest))) := by
  unfold Process.forkStep at stepped
  split at stepped
  · -- prepare
    cases stepped
    refine ⟨rfl, by simp, .inl ⟨_, _, rfl, ?_, forall_mem_cons.2 ⟨?_, fun _ => .inl⟩⟩⟩
    · simp [Thread.raised, ForkPhase.raised]
      omega
    · exact .inr ⟨rfl, fun _ => .inl rfl⟩
  · -- clone
    cases stepped
    refine ⟨rfl, ?_, .inl ⟨_, _, rfl, rfl, forall_mem_cons.2
      ⟨.inr ⟨rfl, fun _ => .inr ⟨rfl, rfl⟩⟩, fun _ => .inl⟩⟩⟩
    rintro _ ⟨⟩
    exact ⟨_, _, rfl, rfl⟩
  · -- the fork fails
    cases stepped
    exact ⟨rfl, by simp, .inl ⟨_, _, rfl, rfl, forall_mem_cons.2
      ⟨.inr ⟨rfl, fun _ => .inr ⟨rfl, rfl⟩⟩, fun _ => .inl⟩⟩⟩
  · -- parent
    cases stepped
    refine ⟨rfl, by simp, .inl ⟨_, _, rfl, ?_, forall_mem_cons.2
      ⟨.inr ⟨rfl, by simp [ForkPhase.inProgress]⟩, fun _ => .inl⟩⟩⟩
    simp [Thread.raised, ForkPhase.raised]
    omega
  · -- the mode is latched
    cases stepped
    exact ⟨rfl, by simp, .inr (.inl ⟨rfl, rfl⟩)⟩
  · -- the depth is cleared
    cases stepped
    exact ⟨rfl, by simp, .inr (.inr ⟨rfl, rfl⟩)⟩
  · -- return in the parent
    cases stepped
    exact ⟨rfl, by simp, .inl ⟨_, _, rfl, by simp [Thread.raised, ForkPhase.raised], fun _ => .inl⟩⟩
  · -- return in the child
    split at stepped <;> cases stepped
    exact ⟨rfl, by simp, .inl ⟨_, _, rfl, by simp [Thread.raised, ForkPhase.raised], fun _ => .inl⟩⟩
  · cases stepped

theorem Stamped.act [DecidableEq τ] (stamped : p.Stamped target) (acts : p.Acts t action q outcome) :
    q.Stamped target ∧ q.pid = p.pid := by
  have threads {mode : Mode} {depth : Int} {thread : Thread}
      (knows : ∀ activity, thread.activity = some activity → activity.Knows target) :
      ({ p with mode := mode, forkDepth := depth }.setThread t thread).Stamped target :=
    Proceeded.stamped (p := p) ⟨rfl, rfl, rfl, .inl rfl, knows⟩ stamped rfl
  cases acts with
  | evaluation running =>
      have proceeded := stamped.evaluate (stamped.activities t _ running)
      exact ⟨proceeded.stamped stamped rfl, proceeded.pid⟩
  | initialization running stepped =>
      have proceeded := stamped.initializeStep (stamped.activities t _ running) stepped
      exact ⟨proceeded.stamped stamped rfl, proceeded.pid⟩
  | startEvaluation idle =>
      refine ⟨threads ?_, rfl⟩
      rintro _ ⟨⟩
      unfold Process.startEvaluation
      split <;> trivial
  | load idle =>
      refine ⟨threads ?_, rfl⟩
      rintro _ ⟨⟩
      trivial
  | callFork idle =>
      refine ⟨threads fun activity entered => ?_, rfl⟩
      change (if _ then _ else _) = _ at entered
      split at entered <;> cases entered
      trivial
  | exec kept => exact ⟨stamped.execed kept, rfl⟩
  | changeEnviron kept =>
      exact ⟨{ stamped with environ := kept.1, stamp := kept.2.trans stamped.stamp }, rfl⟩
  | fork idle pending stepped =>
      rcases (forkStep_cases stepped).2.2 with ⟨depth, forks, rfl, -⟩ | ⟨-, rfl⟩ | ⟨-, rfl⟩ <;>
        exact ⟨threads (by simp), rfl⟩

end

/-! ### The stages of the target -/

/-- After an exec, before the guards. -/
structure Fresh (p : Process τ) : Prop where
  ready : p.ready = false
  guarded : p.guarded = false
  callbacks : p.callbacks = 0
  identity : p.targetPid ≠ -1

/-- Initialized: guarded, or given up. -/
def Settles (p : Process τ) : Prop :=
  p.callbacks = 1 ∧ p.targetPid = p.pid ∨ p.callbacks = 0 ∧ p.mode = .suppressed

/-- What the target is in while nobody initializes it, or when the thread that does is at the given place. -/
def Stage (p : Process τ) : Option Initialization → Prop
  | none => p.Fresh ∨ p.ready = true ∧ p.Settles
  | some init =>
      match init.next with
      | .readReady => p.Fresh ∨ p.ready = true ∧ p.Settles
      | .readIdentity => p.Fresh
      | .storeIdentity | .readEnviron | .readGuarded | .install => p.Fresh ∧ init.target = p.pid
      | .publish => False
      | .storeGuarded => p.ready = false ∧ init.target = p.pid ∧ p.callbacks = 1
      | .storeTarget =>
          p.ready = false ∧ (init.target = p.pid ∧ p.callbacks = 1 ∨ init.target = -1 ∧ p.callbacks = 0)
      | .storeMode => p.ready = false ∧ init.target = -1 ∧ p.callbacks = 0
      | .storeDepth => p.ready = false ∧ p.callbacks = 0 ∧ p.mode = .suppressed
      | .storeReady => p.ready = false ∧ p.Settles

/-- The one thread that initializes its process, if there is one. -/
def Initializes (p : Process τ) (who : Option (τ × Initialization)) : Prop :=
  ∀ t init, (p.threads t).initialization = some init ↔ who = some (t, init)

/-- By how much the forks have raised the depth. -/
def raised [Fintype τ] (p : Process τ) : Nat := ∑ t, (p.threads t).raised

structure Target [Fintype τ] (p : Process τ) : Prop where
  threads : ∀ t, (p.threads t).OfTarget p
  depth : p.forkDepth = p.raised
  stage : ∃ who, p.Initializes who ∧ p.Stage (who.map Prod.snd)

section

variable {target : Nat} {p q : Process τ} {t : τ} {thread : Thread} {answers : InitAnswers}
  {who : Option (τ × Initialization)}

theorem Stage.settles {init : Option Initialization} (stage : p.Stage init) (ready : p.ready = true) :
    p.Settles := by
  have fresh (fresh : p.Fresh) : p.Settles := by cases fresh.ready.symm.trans ready
  cases init with
  | none => exact stage.elim fresh And.right
  | some init =>
      obtain ⟨next, identity, environmentReady⟩ := init
      cases next with
      | readReady => exact stage.elim fresh And.right
      | readIdentity => exact fresh stage
      | storeIdentity | readEnviron | readGuarded | install => exact fresh stage.1
      | publish => cases stage
      | storeGuarded | storeTarget | storeMode | storeDepth | storeReady => cases stage.1.symm.trans ready

/-- An evaluation stores the identity of the target, or a mode but not over `kSuppressed`. -/
theorem Stage.store {init : Option Initialization} (stage : p.Stage init) {mode : Mode}
    {identity depth : Int} {environ : Environ} {threads : τ → Thread}
    (known : identity = p.targetPid ∨ identity = p.pid)
    (keeps : p.mode = .suppressed → mode = .suppressed) :
    Stage { p with mode, targetPid := identity, forkDepth := depth, environ, threads } init := by
  let q := { p with mode, targetPid := identity, forkDepth := depth, environ, threads }
  have fresh (fresh : p.Fresh) : q.Fresh := by
    refine ⟨fresh.ready, fresh.guarded, fresh.callbacks, ?_⟩
    rcases known with rfl | rfl
    · exact fresh.identity
    · exact fun gaveUp => by cases gaveUp
  have settles : p.Settles → q.Settles :=
    Or.imp (And.imp_right fun cached => known.elim (fun kept => kept.trans cached) id) (And.imp_right keeps)
  cases init with
  | none => exact stage.imp fresh (And.imp_right settles)
  | some init =>
      obtain ⟨next, identity, environmentReady⟩ := init
      cases next with
      | readReady => exact stage.imp fresh (And.imp_right settles)
      | readIdentity => exact fresh stage
      | storeIdentity | readEnviron | readGuarded | install => exact stage.imp_left fresh
      | publish => cases stage
      | storeGuarded | storeTarget | storeMode => exact stage
      | storeDepth => exact stage.imp_right (And.imp_right keeps)
      | storeReady => exact stage.imp_right settles

/-- What a step of the initialization does to the target: until it is initialized nothing counts forks. -/
structure Advances (p q : Process τ) (later : Option Initialization) : Prop where
  stage : q.Stage later
  callbacks : q.callbacks = p.callbacks ∨ p.ready = false
  ready : q.ready = p.ready ∨ q.ready = true
  ends : later = none → q.ready = true
  depth : q.forkDepth = p.forkDepth ∨ q.forkDepth = 0 ∧ p.ready = false

theorem Advances.of_stage {init : Initialization} (stage : q.Stage (some init))
    (callbacks : q.callbacks = p.callbacks) (ready : q.ready = p.ready)
    (depth : q.forkDepth = p.forkDepth) : Advances p q (some init) :=
  ⟨stage, .inl callbacks, .inl ready, by simp, .inl depth⟩

theorem Stage.step (stamped : p.Stamped target) (isTarget : p.pid = target) {later : Option Initialization}
    (stage : p.Stage (some init)) (knows : init.Knows target)
    (stepped : p.initializeStep answers init = some (q, later)) : Advances p q later := by
  obtain ⟨next, identity, environmentReady⟩ := init
  cases next with
  | readReady =>
      cases stepped
      cases ready : p.ready with
      | true => exact ⟨.inr ⟨ready, stage.settles ready⟩, .inl rfl, .inl rfl, fun _ => ready, .inl rfl⟩
      | false =>
          refine .of_stage (stage.resolve_right fun settled => ?_) rfl rfl rfl
          cases ready.symm.trans settled.1
  | readIdentity =>
      cases stepped
      refine .of_stage ?_ rfl rfl rfl
      split
      · next cached =>
          have known := (stamped.identity.resolve_left stage.identity).resolve_left cached
          exact ⟨stage, known.trans (by rw [isTarget])⟩
      · exact ⟨stage, stamped.stampedIdentity_eq.trans (by rw [isTarget])⟩
  | storeIdentity =>
      cases stepped
      have fresh : Fresh { p with targetPid := identity } :=
        ⟨stage.1.ready, stage.1.guarded, stage.1.callbacks, fun gaveUp => by
          have known : identity = p.pid := stage.2
          have : identity = -1 := gaveUp
          omega⟩
      exact .of_stage ⟨fresh, stage.2⟩ rfl rfl rfl
  | readEnviron =>
      rw [stamped.readEnviron_eq rfl knows] at stepped
      cases stepped
      refine .of_stage ?_ rfl rfl rfl
      rw [if_pos stage.2]
      exact stage
  | publish => cases knows
  | readGuarded =>
      cases stepped
      refine .of_stage ?_ rfl rfl rfl
      rw [if_neg (by simp [stage.1.guarded])]
      exact stage
  | install =>
      simp only [Process.initializeStep] at stepped
      split at stepped
      · cases stepped
        exact ⟨⟨stage.1.ready, stage.2, by simp [stage.1.callbacks]⟩, .inr stage.1.ready,
          .inl rfl, by simp, .inl rfl⟩
      · split at stepped <;> cases stepped
        exact .of_stage ⟨stage.1.ready, .inr ⟨rfl, stage.1.callbacks⟩⟩ rfl rfl rfl
  | storeGuarded =>
      cases stepped
      exact .of_stage ⟨stage.1, .inl stage.2⟩ rfl rfl rfl
  | storeTarget =>
      cases stepped
      refine .of_stage ?_ rfl rfl rfl
      rcases stage.2 with ⟨known, guarded⟩ | ⟨gaveUp, unguarded⟩
      · rw [if_neg (not_not.2 known)]
        exact ⟨stage.1, .inl ⟨guarded, known⟩⟩
      · rw [if_pos (by change identity ≠ _; rw [show identity = -1 from gaveUp]; omega)]
        exact ⟨stage.1, gaveUp, unguarded⟩
  | storeMode =>
      cases stepped
      exact .of_stage ⟨stage.1, stage.2.2, rfl⟩ rfl rfl rfl
  | storeDepth =>
      cases stepped
      exact ⟨⟨stage.1, .inr stage.2⟩, .inl rfl, .inl rfl, by simp, .inr ⟨rfl, stage.1⟩⟩
  | storeReady =>
      cases stepped
      have ready : (environmentReady || decide (identity < 0)) = true := by
        rw [show environmentReady = true from knows.1, Bool.true_or]
      exact ⟨.inr ⟨ready, stage.2⟩, .inl rfl, .inr ready, fun _ => ready, .inl rfl⟩

end

/-! ### Updates of the target -/

section

variable [DecidableEq τ] {p q : Process τ} {t : τ} {thread : Thread} {who : Option (τ × Initialization)}

theorem raised_setThread [Fintype τ] (p : Process τ) (t : τ) (thread : Thread) :
    (p.setThread t thread).raised + (p.threads t).raised = p.raised + thread.raised :=
  Ledger.sum_update_add Thread.raised p.threads t thread

theorem Initializes.keep (initializes : p.Initializes who) (threads : q.threads = p.threads)
    (same : thread.initialization = (p.threads t).initialization) :
    (q.setThread t thread).Initializes who := by
  intro other init
  change (Function.update q.threads t thread other).initialization = some init ↔ _
  rw [threads]
  by_cases here : other = t
  · subst here
    rw [update_self, same]
    exact initializes other init
  · rw [update_of_ne here]
    exact initializes other init

/-- The thread that initializes its process, when no other thread does. -/
theorem Initializes.set (alone : ∀ other, other ≠ t → (q.threads other).initialization = none) :
    (q.setThread t thread).Initializes (thread.initialization.map (t, ·)) := by
  intro other init
  change (Function.update q.threads t thread other).initialization = some init ↔ _
  by_cases here : other = t
  · subst here
    rw [update_self]
    simp
  · rw [update_of_ne here, alone other here]
    simp [Ne.symm here]

omit [DecidableEq τ] in
theorem Initializes.alone (initializes : p.Initializes (some (t, init))) {other : τ}
    (differs : other ≠ t) : (p.threads other).initialization = none := by
  refine eq_none_iff_forall_ne_some.2 fun init' found => differs ?_
  cases (initializes other init').1 found
  rfl

variable [Fintype τ]

omit [DecidableEq τ] in
theorem Target.raised_unready (isTarget : p.Target) (unready : p.ready = false) : p.raised = 0 := by
  refine Finset.sum_eq_zero fun t _ => sum_eq_zero fun n found => ?_
  obtain ⟨phase, pending, rfl⟩ := mem_map.1 found
  rw [((isTarget.threads t phase pending).2.2 unready).1]
  rfl

/-- The target when some of its members and one of its threads change. -/
theorem Target.change (isTarget : p.Target) (threads : q.threads = p.threads)
    (callbacks : q.callbacks = p.callbacks ∨ p.ready = false) (ready : q.ready = p.ready ∨ q.ready = true)
    (changed : thread.OfTarget q) (depth : q.forkDepth + (p.threads t).raised = p.forkDepth + thread.raised)
    (initializes : (q.setThread t thread).Initializes who) (stage : q.Stage (who.map Prod.snd)) :
    (q.setThread t thread).Target where
  threads := by
    refine q.forall_setThread (P := fun thread => thread.OfTarget q) changed fun other => ?_
    rw [threads]
    exact (isTarget.threads other).mono rfl callbacks (ready.symm.imp_right fun kept => ⟨kept, id⟩)
  depth := by
    have moved := raised_setThread q t thread
    have same : q.raised = p.raised := by simp only [raised, threads]
    have counted := isTarget.depth
    rw [same, threads] at moved
    change q.forkDepth = _
    omega
  stage := ⟨who, initializes, stage.store (.inl rfl) id⟩

/-- A thread evaluates. -/
theorem Target.store (isTarget : p.Target) {mode : Mode} {identity : Int}
    (known : identity = p.targetPid ∨ identity = p.pid) (keeps : p.mode = .suppressed → mode = .suppressed)
    (forks : thread.forks = (p.threads t).forks)
    (same : thread.initialization = (p.threads t).initialization) :
    Target ({ p with mode := mode, targetPid := identity }.setThread t thread) := by
  obtain ⟨who, initializes, stage⟩ := isTarget.stage
  refine isTarget.change rfl (.inl rfl) (.inl rfl) ?_ ?_ (initializes.keep rfl same)
    (stage.store known keeps)
  · exact (isTarget.threads t).mono forks (.inl rfl) (.inr ⟨rfl, fun initializing => same ▸ initializing⟩)
  · simp only [Thread.raised, forks]

/-- A thread takes a step of its initialization. -/
theorem Target.advance (isTarget : p.Target) {later : Option Initialization}
    (initializing : (p.threads t).initialization = some init) (threads : q.threads = p.threads)
    (steps : p.Stage (some init) → Advances p q later) (forks : thread.forks = (p.threads t).forks)
    (proceeds : thread.initialization = later) : (q.setThread t thread).Target := by
  obtain ⟨who, initializes, stage⟩ := isTarget.stage
  obtain rfl := (initializes t init).1 initializing
  have advances := steps stage
  have raised : thread.raised = (p.threads t).raised := by simp only [Thread.raised, forks]
  refine isTarget.change threads advances.callbacks advances.ready ?_ ?_
    (.set fun other differs => ?_) (proceeds ▸ ?_)
  · refine (isTarget.threads t).mono forks advances.callbacks ?_
    cases later with
    | none => exact .inl (advances.ends rfl)
    | some _ => exact advances.ready.symm.imp_right fun kept => ⟨kept, fun _ => by simp [proceeds]⟩
  · rcases advances.depth with kept | ⟨zero, unready⟩
    · rw [kept, raised]
    · rw [zero, raised, isTarget.depth, isTarget.raised_unready unready]
      rfl
  · rw [threads]
    exact initializes.alone differs
  · cases later with
    | none => exact advances.stage
    | some init' => exact advances.stage

/-- A thread enters the initialization, as the first thing or in a fork, when no other thread is in it. -/
theorem Target.enter (isTarget : p.Target) (alone : ∀ other, (p.threads other).initialization = none)
    (forks : thread.forks = (p.threads t).forks ∨ thread.forks = .called :: (p.threads t).forks)
    (enters : thread.initialization = some {}) : (p.setThread t thread).Target := by
  obtain ⟨who, initializes, stage⟩ := isTarget.stage
  have nobody : who = none := by
    refine eq_none_iff_forall_ne_some.2 fun ⟨other, init⟩ found => ?_
    cases (alone other).symm.trans ((initializes other init).2 found)
  subst nobody
  refine isTarget.change rfl (.inl rfl) (.inl rfl) ?_ ?_ (.set fun other _ => alone other) (enters ▸ stage)
  · intro phase found
    have initializing : thread.initialization ≠ none := by simp [enters]
    have cases : phase = .called ∨ phase ∈ (p.threads t).forks := by
      rcases forks with same | pushed
      · exact .inr (same ▸ found)
      · exact mem_cons.1 (pushed ▸ found)
    rcases cases with rfl | pending
    · exact ⟨rfl, by simp [ForkPhase.inProgress], fun _ => ⟨rfl, initializing⟩⟩
    · obtain ⟨parentSide, raises, unready⟩ := isTarget.threads t phase pending
      exact ⟨parentSide, raises, fun notReady => ⟨(unready notReady).1, initializing⟩⟩
  · rcases forks with same | pushed
    · simp only [Thread.raised, same]
    · simp [Thread.raised, pushed, ForkPhase.raised]

/-- A step of a fork: the depth moves with the forks in progress. -/
theorem Target.setForks (isTarget : p.Target) (idle : (p.threads t).initialization = none)
    (ready : p.ready = true) {depth : Int} {forks : List ForkPhase}
    (fits : ∀ phase ∈ forks, phase.ofChild = false ∧ (phase.inProgress = true → phase.raised = p.callbacks))
    (balance : depth + (p.threads t).raised = p.forkDepth + (Thread.raised { forks := forks })) :
    ({ p with forkDepth := depth }.setForks t forks).Target := by
  obtain ⟨who, initializes, stage⟩ := isTarget.stage
  refine isTarget.change rfl (.inl rfl) (.inl rfl) (fun phase found => ?_) balance
    (initializes.keep rfl idle.symm) (stage.store (.inl rfl) id)
  refine ⟨(fits phase found).1, (fits phase found).2, fun unready => ?_⟩
  cases ready.symm.trans unready

/-- The actions that enter `InitializeTargetProcess`. -/
def enters (p : Process τ) : Action → Bool
  | .load => true
  | .callFork => !p.ready
  | _ => false

/-- A thread about to store another mode over `kSuppressed`. -/
def overwrites (p : Process τ) (t : τ) : Bool :=
  match (p.threads t).activity with
  | some (.evaluation (.storeMode mode)) => p.mode == .suppressed && mode != .suppressed
  | _ => false

/-- What the target relies on: no thread enters `InitializeTargetProcess` while one is in it, and no
evaluation stores its mode over the `kSuppressed` of a target that could not install its guards. -/
def Orderly (p : Process τ) (t : τ) (action : Action) : Prop :=
  (p.enters action = true → ∀ other, (p.threads other).initialization = none) ∧ p.overwrites t = false

instance (p : Process τ) (t : τ) (action : Action) : Decidable (p.Orderly t action) :=
  inferInstanceAs (Decidable (_ ∧ _))

omit [DecidableEq τ] [Fintype τ] in
/-- What an evaluation may store. -/
theorem evaluate_eq (p : Process τ) (phase : Evaluation) :
    (p.evaluate phase).1 =
        { p with mode := (p.evaluate phase).1.mode, targetPid := (p.evaluate phase).1.targetPid } ∧
      ((p.evaluate phase).1.mode = p.mode ∨ phase = .storeMode (p.evaluate phase).1.mode) ∧
      ((p.evaluate phase).1.targetPid = p.targetPid ∨
        phase = .storeIdentity (p.evaluate phase).1.targetPid) := by
  cases phase <;> simp [evaluate]

variable {target : Nat}

theorem Target.evaluates (isTarget : p.Target) {phase : Evaluation}
    (knows : ∀ identity, phase = .storeIdentity identity → identity = p.pid)
    (kept : p.overwrites t = false) (running : (p.threads t).activity = some (.evaluation phase))
    (evaluates : thread.initialization = none) (forks : thread.forks = (p.threads t).forks) :
    ((p.evaluate phase).1.setThread t thread).Target := by
  obtain ⟨stored, mode, identity⟩ := p.evaluate_eq phase
  have before : (p.threads t).initialization = none := by simp [Thread.initialization, running]
  rw [stored]
  refine isTarget.store (identity.imp_right (knows _)) (fun latched => ?_) forks
    (evaluates.trans before.symm)
  rcases mode with same | stores
  · exact same.trans latched
  · generalize (p.evaluate phase).1.mode = mode at stores ⊢
    subst stores
    simpa [overwrites, running, latched] using kept

/-- A step of a fork. In the target only the phases of the parent occur. -/
theorem Target.fork (isTarget : p.Target) (idle : (p.threads t).activity = none) {rest : List ForkPhase}
    {phase : ForkPhase} (pending : (p.threads t).forks = phase :: rest)
    (stepped : p.forkStep t rest action phase = some (q, outcome)) : q.Target := by
  have nothing : (p.threads t).initialization = none := by simp [Thread.initialization, idle]
  have fits := isTarget.threads t
  rw [Thread.OfTarget, pending, forall_mem_cons] at fits
  obtain ⟨⟨ofParent, raises, unready⟩, later⟩ := fits
  have ready : p.ready = true := by
    by_contra notReady
    exact (unready (by simpa using notReady)).2 nothing
  rcases (forkStep_cases stepped).2.2 with ⟨depth, forks, rfl, balance, new⟩ | latches
  · refine isTarget.setForks nothing ready (fun phase' found => ?_)
      (by simpa [Thread.raised, pending] using balance)
    rcases new phase' found with old | ⟨parentSide, counted⟩
    · exact (later phase' old).imp_right And.left
    · exact ⟨parentSide, fun inProgress => (counted inProgress).elim id fun same =>
        same.2.trans (raises same.1)⟩
  · rcases latches with ⟨ofChild, _⟩ | ⟨rfl, _⟩
    · rw [ofChild] at ofParent
      cases ofParent
    · cases ofParent

omit [DecidableEq τ] in
theorem Target.execed (p : Process τ) (environ : Environ) : (p.execed environ).Target where
  threads _ _ found := absurd found not_mem_nil
  depth := (congrArg Int.ofNat (Finset.sum_eq_zero fun _ _ => rfl)).symm
  stage := ⟨none, fun _ _ => by simp [Process.execed, Thread.initialization],
    .inl ⟨rfl, rfl, rfl, by simp [Process.execed]⟩⟩

/-- Every orderly action of the target keeps it in order. -/
theorem Target.act (isTarget : p.Target) (stamped : p.Stamped target) (here : p.pid = target)
    (orderly : p.Orderly t action) (acts : p.Acts t action q outcome) : q.Target := by
  cases acts with
  | evaluation running =>
      refine isTarget.evaluates ?_ orderly.2 running ?_ rfl
      · rintro identity rfl
        rw [here]
        exact stamped.activities t _ running
      · cases (p.evaluate _).2 <;> rfl
  | @initialization init answers q later running stepped =>
      have knows := stamped.activities t _ running
      have initializing : (p.threads t).initialization = some init := by
        simp [Thread.initialization, running]
      refine isTarget.advance initializing (stamped.initializeStep knows stepped).threads
        (fun stage => stage.step stamped here knows stepped) rfl ?_
      cases later <;> rfl
  | startEvaluation idle =>
      exact isTarget.store (.inl rfl) id rfl (by simp [Thread.initialization, idle])
  | load idle => exact isTarget.enter (orderly.1 rfl) (.inl rfl) rfl
  | callFork idle =>
      cases ready : p.ready with
      | false => exact isTarget.enter (orderly.1 (by simp [enters, ready])) (.inr rfl) rfl
      | true =>
          refine isTarget.setForks (by simp [Thread.initialization, idle]) ready
            (forall_mem_cons.2 ⟨?_, ?_⟩) ?_
          · exact ⟨rfl, by simp [ForkPhase.inProgress]⟩
          · exact fun phase found => (isTarget.threads t phase found).imp_right And.left
          · simp [Thread.raised, ForkPhase.raised]
  | exec kept => exact .execed _ _
  | changeEnviron kept =>
      obtain ⟨who, initializes, stage⟩ := isTarget.stage
      exact { isTarget with stage := ⟨who, initializes, stage.store (.inl rfl) id⟩ }
  | fork idle pending stepped => exact isTarget.fork idle pending stepped

omit [DecidableEq τ] in
/-- While the guards are installed, or none are needed yet, the depth is the number of forks in progress. -/
theorem Target.forkDepth_eq (isTarget : p.Target) (guards : p.ready = true → p.callbacks ≠ 0) :
    p.forkDepth = p.forksInProgress := by
  obtain ⟨who, _, stage⟩ := isTarget.stage
  rw [isTarget.depth]
  refine congrArg _ (Finset.sum_congr rfl fun t _ =>
    Thread.raised_eq_countP fun phase found inProgress => ?_)
  obtain ⟨_, raises, unready⟩ := isTarget.threads t phase found
  cases ready : p.ready with
  | true =>
      have installed : p.callbacks = 1 := (stage.settles ready).elim And.left fun gaveUp =>
        absurd gaveUp.1 (guards ready)
      exact (raises inProgress).trans installed
  | false =>
      rw [(unready ready).1] at inProgress
      cases inProgress

end

end Process

end MallocHook
