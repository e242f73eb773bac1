/-
Module: MallocHook.Core.ProcessTree
Purpose: Which processes track. Threads evaluate `CurrentMode` and run `InitializeTargetProcess`, load
  by load and store by store, and fork; a fork is a frame on the stack of its thread.
Trusted boundary: translation of the modes, InitializeTargetProcess and the fork callbacks of
  backtrace/src/ObserveOnlyProbe.cpp and of the `fork` of src/alloc_hook.cpp; loads and stores are
  sequentially consistent
Main exports: parsePid, Process, Process.currentMode, Action
-/
import Mathlib.Algebra.BigOperators.Fin
import MallocHook.Core.PrimaryElection
import MallocHook.Core.ConfigInit

namespace MallocHook

open Option Function

/-! ### The stamp of the target -/

/-- `std::numeric_limits<pid_t>::max()`. -/
def pidMax : Nat := 2 ^ 31 - 1

/-- The loop of `ParsePid`. -/
def parsePidLoop (value : Nat) : CString → Option Nat
  | [] => some value
  | c :: rest =>
      let digit := c.toNat - '0'.toNat
      if !c.isDigit then none
      else if value > (pidMax - digit) / 10 then none
      else parsePidLoop (value * 10 + digit) rest

/-- `ParsePid` of a text that is not null. -/
def parsePid (text : CString) : Option Nat :=
  if text = [] then none else (parsePidLoop 0 text).filter (· != 0)

theorem le_ofDigitChars (text : List Char) (value : Nat) : value ≤ Nat.ofDigitChars 10 text value := by
  induction text generalizing value with
  | nil => exact Nat.le_refl _
  | cons c rest ih =>
      rw [Nat.ofDigitChars_cons]
      exact Nat.le_trans (by omega) (ih _)

/-- A number that fits is read digit by digit without an overflow on the way. -/
theorem parsePidLoop_eq {text : CString} (digits : ∀ c ∈ text, c.isDigit = true) {value : Nat}
    (fits : Nat.ofDigitChars 10 text value ≤ pidMax) :
    parsePidLoop value text = some (Nat.ofDigitChars 10 text value) := by
  induction text generalizing value with
  | nil => rfl
  | cons c rest ih =>
      obtain ⟨isDigit, restDigits⟩ := List.forall_mem_cons.1 digits
      rw [Nat.ofDigitChars_cons] at fits ⊢
      have below := Nat.le_trans (le_ofDigitChars rest _) fits
      have small : ¬ value > (pidMax - (c.toNat - '0'.toNat)) / 10 := by omega
      rw [parsePidLoop]
      simp only [isDigit, Bool.not_true, Bool.false_eq_true, if_false, if_neg small]
      rw [Nat.mul_comm value 10]
      exact ih restDigits fits

/-- The stamp reads back as the pid that wrote it. -/
theorem parsePid_pidText {pid : Nat} (positive : 0 < pid) (fits : pid ≤ pidMax) :
    parsePid (pidText pid) = some pid := by
  have digits : ∀ c ∈ pidText pid, c.isDigit = true :=
    fun c member => Nat.isDigit_of_mem_toDigits (by decide) (by decide) member
  have nonempty : pidText pid ≠ [] := Nat.toDigits_ne_nil
  have value : Nat.ofDigitChars 10 (pidText pid) 0 = pid := Nat.ofDigitChars_toDigits (by decide) (by decide)
  rw [parsePid, if_neg nonempty, parsePidLoop_eq digits (by rw [value]; exact fits), value]
  simp [Nat.pos_iff_ne_zero.1 positive]

def targetPidEnv : String := "ALLOC_HOOK_TARGET_PID"

/-- `setenv` with overwriting. -/
def Environ.setenv (environ : Environ) (name : String) (value : CString) : Environ :=
  environ.map fun entries =>
    entries.filter (fun entry => ((splitEntry entry).map Prod.fst != some name.toList)) ++
      [name.toList ++ '=' :: value]

/-! ### One process -/

/-- `observe_only::Mode`. -/
inductive Mode where
  | undecided
  | bypass
  | track
  | suppressed
deriving DecidableEq, Repr, Inhabited

/-- How far a `fork` has come: called, past the prepare callbacks, of which so many were registered, past
the creation of the child or its failure, past the parent callbacks. In the child: whether the library's
callback is finished, or between its two stores. -/
inductive ForkPhase where
  | called
  | prepared (callbacks : Nat)
  | inParent (callbacks : Nat)
  | parentDone
  | inChild (finished : Bool)
  | storedMode
deriving DecidableEq, Repr

/-- Forks between the library's prepare callback and its parent callback. -/
def ForkPhase.inProgress : ForkPhase → Bool
  | .prepared _ | .inParent _ => true
  | _ => false

/-- Where in `CurrentMode` a thread is: about to ask `InForkChild`, to load `g_mode` or `g_target_pid`, to
store there, to decide, to store `g_mode`. -/
inductive Evaluation where
  | inWindow
  | readMode
  | readIdentity
  | storeIdentity (target : Int)
  | decide (target : Int)
  | storeMode (mode : Mode)
deriving DecidableEq, Repr

/-- What a thread in `InitializeTargetProcess` does next. -/
inductive InitStep where
  | readReady
  | readIdentity
  | storeIdentity
  | readEnviron
  | publish
  | readGuarded
  | install
  | storeGuarded
  | storeTarget
  | storeMode
  | storeDepth
  | storeReady
deriving DecidableEq, Repr

/-- A thread in `InitializeTargetProcess`, with its local variables. -/
structure Initialization where
  next : InitStep := .readReady
  target : Int := 0
  environmentReady : Bool := false
deriving DecidableEq, Repr

/-- What a thread can be in the middle of. -/
inductive Activity where
  | evaluation (phase : Evaluation)
  | initialization (phase : Initialization)
deriving DecidableEq, Repr

/-- The forks a thread is in, the innermost first, and what else it is in the middle of. -/
structure Thread where
  forks : List ForkPhase := []
  activity : Option Activity := none
deriving DecidableEq

/-- A process with its copy of the library's state. `callbacks` is how often its fork callbacks are
registered. -/
structure Process (τ : Type*) where
  pid : Nat
  mode : Mode := .undecided
  forkDepth : Int := 0
  targetPid : Int := 0
  ready : Bool := false
  guarded : Bool := false
  callbacks : Nat := 0
  environ : Environ
  threads : τ → Thread := fun _ => {}

/-- What `setenv` and `pthread_atfork` answer. -/
structure InitAnswers where
  setenv : Bool := true
  atfork : Bool := true

namespace Process

variable {τ : Type*} (p : Process τ)

/-- `InForkChild`. -/
def inForkChild : Bool := decide (p.targetPid > 0 ∧ p.targetPid ≠ p.pid)

/-- What the environment says about the target. -/
def stampedIdentity : Int :=
  (p.environ.getenv targetPidEnv).elim (p.pid : Int) fun text => (parsePid text).elim (-1) (↑)

/-- `TargetIdentity`. -/
def targetIdentity : Int := if p.targetPid ≠ 0 then p.targetPid else p.stampedIdentity

/-- The mode of a process that knows its target. -/
def decideMode (target : Int) : Mode :=
  if target ≠ p.pid then .suppressed
  else if (observeOnlyRequested p.environ).1 then .bypass else .track

/-- `ResolveMode`: the mode, and the state that latches it. -/
def resolveMode : Mode × Process τ :=
  if p.environ.isNone then (.undecided, p)
  else
    let target := p.targetIdentity
    let mode := p.decideMode target
    (mode, { p with mode := mode, targetPid := target })

/-- `CurrentMode`, when nothing else runs. -/
def currentMode : Mode × Process τ :=
  if p.forkDepth ≠ 0 ∧ p.inForkChild then (.suppressed, p)
  else if p.mode = .undecided then p.resolveMode else (p.mode, p)

/-! ### Threads of a process -/

/-- Where an evaluation begins: with the load of `g_fork_depth`. -/
def startEvaluation : Evaluation := if p.forkDepth ≠ 0 then .inWindow else .readMode

/-- One step of an evaluation: the state after it, and what is left of it or what it returns. -/
def evaluate : Evaluation → Process τ × (Evaluation ⊕ Mode)
  | .inWindow => (p, if p.inForkChild then .inr .suppressed else .inl .readMode)
  | .readMode =>
      (p, if p.mode ≠ .undecided then .inr p.mode
        else if p.environ.isNone then .inr .undecided else .inl .readIdentity)
  | .readIdentity =>
      (p, .inl (if p.targetPid ≠ 0 then .decide p.targetPid else .storeIdentity p.stampedIdentity))
  | .storeIdentity target => ({ p with targetPid := target }, .inl (.decide target))
  | .decide target => (p, .inl (.storeMode (p.decideMode target)))
  | .storeMode mode => ({ p with mode := mode }, .inr mode)

/-- One step of `InitializeTargetProcess`: the state after it, and what is left of it; `none` where it calls
`_exit`. -/
def initializeStep (answers : InitAnswers) (init : Initialization) :
    Option (Process τ × Option Initialization) :=
  match init.next with
  | .readReady => some (p, if p.ready then none else some { init with next := .readIdentity })
  | .readIdentity =>
      some (p, some (if p.targetPid ≠ 0 then { init with next := .readEnviron, target := p.targetPid }
        else { init with next := .storeIdentity, target := p.stampedIdentity }))
  | .storeIdentity => some ({ p with targetPid := init.target }, some { init with next := .readEnviron })
  | .readEnviron =>
      let stamped := p.environ.getenv targetPidEnv
      let target :=
        if init.target > 0 ∧ (stamped.any fun text => (parsePid text).map (↑) != some init.target) then -1
        else init.target
      let next : InitStep :=
        if target > 0 ∧ p.environ.isSome ∧ stamped.isNone then .publish
        else if target = p.pid then .readGuarded else .storeTarget
      some (p, some { next := next, target := target, environmentReady := p.environ.isSome })
  | .publish =>
      if answers.setenv then
        some ({ p with environ := p.environ.setenv targetPidEnv (pidText init.target.toNat) },
          some { init with next := if init.target = p.pid then .readGuarded else .storeTarget })
      else none
  | .readGuarded => some (p, some { init with next := if p.guarded then .storeTarget else .install })
  | .install =>
      if answers.atfork then
        some ({ p with callbacks := p.callbacks + 1 }, some { init with next := .storeGuarded })
      else if init.environmentReady then some (p, some { init with next := .storeTarget, target := -1 })
      else none
  | .storeGuarded => some ({ p with guarded := true }, some { init with next := .storeTarget })
  | .storeTarget =>
      some ({ p with targetPid := init.target },
        some { init with next := if init.target ≠ p.pid then .storeMode else .storeReady })
  -- the two stores of `SuppressAfterFork`
  | .storeMode => some ({ p with mode := .suppressed }, some { init with next := .storeDepth })
  | .storeDepth => some ({ p with forkDepth := 0 }, some { init with next := .storeReady })
  | .storeReady => some ({ p with ready := init.environmentReady || decide (init.target < 0) }, none)

/-- One step of what a thread is in the middle of: the state after it, what is left, and what an
evaluation returns. -/
def proceed (answers : InitAnswers) : Activity → Option (Process τ × Option Activity × Option Mode)
  | .evaluation phase =>
      let stepped := p.evaluate phase
      some (stepped.1, stepped.2.elim (fun later => (some (.evaluation later), none)) fun mode =>
        (none, some mode))
  | .initialization init =>
      (p.initializeStep answers init).map fun stepped => (stepped.1, stepped.2.map .initialization, none)

variable [DecidableEq τ]

def setThread (t : τ) (thread : Thread) : Process τ := { p with threads := update p.threads t thread }

/-- What holds of the new thread and of all old ones holds of every thread. -/
theorem forall_setThread {P : Thread → Prop} {t : τ} {thread : Thread} (changed : P thread)
    (others : ∀ t, P (p.threads t)) (other : τ) : P ((p.setThread t thread).threads other) := by
  change P (update p.threads t thread other)
  by_cases same : other = t
  · subst same
    rwa [update_self]
  · rw [update_of_ne same]
    exact others other

/-- Replace the forks of a thread that is in the middle of nothing else. -/
def setForks (t : τ) (forks : List ForkPhase) : Process τ := p.setThread t { forks := forks }

/-- The child a fork makes: a copy of the memory, with the calling thread alone. -/
def forked (t : τ) (child callbacks : Nat) (rest : List ForkPhase) : Process τ :=
  { p with
    pid := child
    threads := update (fun _ => {}) t { forks := .inChild (callbacks == 0) :: rest } }

/-- The image `exec` starts. -/
def execed (environ : Environ) : Process τ := { pid := p.pid, environ := environ }

/-- How many forks are between the library's prepare and parent callbacks. -/
def forksInProgress [Fintype τ] : Nat := ∑ t, (p.threads t).forks.countP ForkPhase.inProgress

end Process

/-! ### Actions -/

/-- What a thread does next. `load` is the constructor of the library; the new environment of an `exec` is
in its label. -/
inductive Action where
  | startEvaluation
  | load
  | proceed (answers : InitAnswers)
  | callFork
  | prepare
  | clone (child : Nat)
  | failFork
  | parent
  | suppressMode
  | suppressDepth
  | returnFork
  | exec (environ : Environ)
  | changeEnviron (environ : Environ)

/-- What an action shows outside its process. -/
structure Outcome (τ : Type*) where
  answer : Option Mode := none
  child : Option (Process τ) := none

namespace Process

variable {τ : Type*} [DecidableEq τ] (p : Process τ)

/-- The steps of the innermost fork of a thread. -/
def forkStep (t : τ) (rest : List ForkPhase) : Action → ForkPhase → Option (Process τ × Outcome τ)
  | .prepare, .called =>
      some ({ p with forkDepth := p.forkDepth + p.callbacks }.setForks t (.prepared p.callbacks :: rest), {})
  | .clone child, .prepared callbacks =>
      some (p.setForks t (.inParent callbacks :: rest), { child := some (p.forked t child callbacks rest) })
  | .failFork, .prepared callbacks => some (p.setForks t (.inParent callbacks :: rest), {})
  | .parent, .inParent callbacks =>
      some ({ p with forkDepth := p.forkDepth - callbacks }.setForks t (.parentDone :: rest), {})
  | .suppressMode, .inChild _ => some ({ p with mode := .suppressed }.setForks t (.storedMode :: rest), {})
  | .suppressDepth, .storedMode => some ({ p with forkDepth := 0 }.setForks t (.inChild true :: rest), {})
  | .returnFork, .parentDone => some (p.setForks t rest, {})
  | .returnFork, .inChild finished => if finished then some (p.setForks t rest, {}) else none
  | _, _ => none

/-- An environment in which the stamp of the target is the same. -/
def keepsStamp (environ : Environ) : Prop :=
  environ.isSome ∧ environ.getenv targetPidEnv = p.environ.getenv targetPidEnv

instance (environ : Environ) : Decidable (p.keepsStamp environ) := inferInstanceAs (Decidable (_ ∧ _))

/-- The actions of a thread in the middle of nothing but forks. `fork` runs `InitializeTargetScope` only
in a process that is not initialized. -/
def actIdle (t : τ) (action : Action) : Option (Process τ × Outcome τ) :=
  let forks := (p.threads t).forks
  match action with
  | .startEvaluation => some (p.setThread t ⟨forks, some (.evaluation p.startEvaluation)⟩, {})
  | .load => some (p.setThread t ⟨forks, some (.initialization {})⟩, {})
  | .callFork =>
      some (p.setThread t ⟨.called :: forks, if p.ready then none else some (.initialization {})⟩, {})
  | .exec environ => if p.keepsStamp environ then some (p.execed environ, {}) else none
  | .changeEnviron environ => if p.keepsStamp environ then some ({ p with environ := environ }, {}) else none
  | action =>
      match forks with
      | [] => none
      | phase :: rest => p.forkStep t rest action phase

/-- One action of one thread: what it is in the middle of is finished before anything else. -/
def act (t : τ) (action : Action) : Option (Process τ × Outcome τ) :=
  match (p.threads t).activity, action with
  | some activity, .proceed answers =>
      (p.proceed answers activity).map fun done =>
        (done.1.setThread t ⟨(p.threads t).forks, done.2.1⟩, { answer := done.2.2 })
  | some _, _ => none
  | none, .proceed _ => none
  | none, action => p.actIdle t action

/-- Everything an action can do. -/
inductive Acts (t : τ) : Action → Process τ → Outcome τ → Prop where
  | evaluation {phase : Evaluation} {answers : InitAnswers}
      (running : (p.threads t).activity = some (.evaluation phase)) :
      Acts t (.proceed answers)
        ((p.evaluate phase).1.setThread t
          ⟨(p.threads t).forks, (p.evaluate phase).2.elim (some ∘ .evaluation) fun _ => none⟩)
        { answer := (p.evaluate phase).2.elim (fun _ => none) some }
  | initialization {init : Initialization} {answers : InitAnswers} {q : Process τ}
    {later : Option Initialization}
      (running : (p.threads t).activity = some (.initialization init))
      (stepped : p.initializeStep answers init = some (q, later)) :
      Acts t (.proceed answers) (q.setThread t ⟨(p.threads t).forks, later.map .initialization⟩) {}
  | startEvaluation (idle : (p.threads t).activity = none) :
      Acts t .startEvaluation (p.setThread t ⟨(p.threads t).forks, some (.evaluation p.startEvaluation)⟩) {}
  | load (idle : (p.threads t).activity = none) :
      Acts t .load (p.setThread t ⟨(p.threads t).forks, some (.initialization {})⟩) {}
  | callFork (idle : (p.threads t).activity = none) :
      Acts t .callFork
        (p.setThread t ⟨.called :: (p.threads t).forks, if p.ready then none
          else some (.initialization {})⟩) {}
  | exec {environ : Environ} (kept : p.keepsStamp environ) : Acts t (.exec environ) (p.execed environ) {}
  | changeEnviron {environ : Environ} (kept : p.keepsStamp environ) :
      Acts t (.changeEnviron environ) { p with environ := environ } {}
  | fork {action : Action} {p' : Process τ} {outcome : Outcome τ} {phase : ForkPhase} {rest : List ForkPhase}
      (idle : (p.threads t).activity = none) (pending : (p.threads t).forks = phase :: rest)
      (stepped : p.forkStep t rest action phase = some (p', outcome)) : Acts t action p' outcome

theorem acts_of_act {t : τ} {action : Action} {p' : Process τ} {outcome : Outcome τ}
    (acted : p.act t action = some (p', outcome)) : p.Acts t action p' outcome := by
  unfold act at acted
  split at acted
  case h_1 activity answers running =>
    obtain ⟨done, proceeded, same⟩ := map_eq_some_iff.1 acted
    cases activity with
    | evaluation phase =>
        cases proceeded
        have acts : p.Acts t (.proceed answers) _ _ := .evaluation running
        generalize p.evaluate phase = stepped at acts same
        obtain ⟨q, later | mode⟩ := stepped <;> cases same <;> exact acts
    | initialization init =>
        obtain ⟨⟨q, later⟩, stepped, rfl⟩ := map_eq_some_iff.1 proceeded
        cases same
        exact .initialization running stepped
  case h_2 | h_3 => cases acted
  case h_4 idle _ =>
    unfold actIdle at acted
    dsimp only at acted
    split at acted
    · cases acted
      exact .startEvaluation idle
    · cases acted
      exact .load idle
    · cases acted
      exact .callFork idle
    · split at acted <;> cases acted
      exact .exec ‹_›
    · split at acted <;> cases acted
      exact .changeEnviron ‹_›
    · split at acted
      · cases acted
      · exact .fork idle ‹_› acted

end Process

/-! ### The tree -/

/-- The processes there have been by pid, and what evaluations of `CurrentMode` returned in which process. -/
structure ProcessTree (τ : Type*) where
  processes : Nat → Option (Process τ)
  answers : List (Nat × Mode) := []

namespace ProcessTree

variable {τ : Type*} (tree : ProcessTree τ)

def put (p : Process τ) : ProcessTree τ :=
  { tree with processes := update tree.processes p.pid (some p) }

/-- Record what an evaluation returned. -/
def record (pid : Nat) (answer : Option Mode) : ProcessTree τ :=
  { tree with answers := (answer.map (pid, ·)).toList ++ tree.answers }

/-- A child gets a pid that no process has had. -/
def adopt (child : Option (Process τ)) : Option (ProcessTree τ) :=
  match child with
  | none => some tree
  | some child => if child.pid = 0 ∨ (tree.processes child.pid).isSome then none else some (tree.put child)

end ProcessTree

variable {τ : Type*} [DecidableEq τ]

/-- All trees that grow from one process. -/
def processTree (start : Process τ) : Machine (ProcessTree τ) (Nat × τ × Action) where
  init := { processes := update (fun _ => none) start.pid (some start) }
  step tree label :=
    (tree.processes label.1).bind fun p =>
      (p.act label.2.1 label.2.2).bind fun done =>
        ((tree.put done.1).record label.1 done.2.answer).adopt done.2.child

end MallocHook
