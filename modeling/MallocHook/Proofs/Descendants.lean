/-
Module: MallocHook.Proofs.Descendants
Purpose: Descendants of the target never track, unless the target loses the `kSuppressed` it stored when
  it could not install its fork guards. The fork window, the child callback and the stamp hand over to
  each other.
Trusted boundary: none
Main exports: Process.Member.act, descendants_suppressed
-/
import MallocHook.Proofs.TargetScope

namespace MallocHook

open List Function Option

variable {τ : Type*}

/-! ### The invariant -/

/-- The modes in which nothing is tracked yet. -/
def Mode.Untracked (mode : Mode) : Prop := mode = .suppressed ∨ mode = .undecided

/-- What the next step of a thread in a descendant relies on. -/
def Activity.Fits (pid : Nat) (latched : Mode) : Activity → Prop
  | .evaluation .readMode => latched.Untracked
  | .evaluation (.decide identity) => identity ≠ pid
  | .evaluation (.storeMode mode) => mode = .suppressed
  | .evaluation _ => True
  | .initialization init =>
      match init.next with
      | .readReady => True
      | .publish | .readGuarded | .install | .storeGuarded => False
      | .storeDepth => latched = .suppressed
      | _ => latched.Untracked

/-- A thread of a descendant: between the two stores of `SuppressAfterFork` the mode is latched. -/
structure Thread.Quiet (pid : Nat) (latched : Mode) (thread : Thread) : Prop where
  stored : .storedMode ∈ thread.forks → latched = .suppressed
  activity : ∀ activity, thread.activity = some activity → activity.Fits pid latched

namespace Process

variable [Fintype τ]

/-- No tracking mode is latched, or the process is in the fork window, with a depth its forks cannot bring
down to zero. -/
def Settled (target : Nat) (p : Process τ) : Prop :=
  p.mode.Untracked ∨ p.ready = true ∧ p.targetPid = target ∧ (p.raised : Int) + 1 ≤ p.forkDepth

structure Descendant (target : Nat) (p : Process τ) : Prop where
  settled : p.Settled target
  threads : ∀ t, (p.threads t).Quiet p.pid p.mode

/-- A process of the tree. -/
structure Member (target : Nat) (p : Process τ) : Prop extends p.Stamped target where
  asTarget : p.pid = target → p.Target
  asDescendant : p.pid ≠ target → p.Descendant target

end Process

/-! ### Updates -/

section

variable {pid : Nat} {latched mode : Mode} (keeps : mode = latched ∨ mode = .suppressed)
include keeps

theorem Mode.Untracked.mono (untracked : latched.Untracked) : mode.Untracked :=
  keeps.elim (fun same => same.symm ▸ untracked) .inl

theorem Activity.Fits.mono {activity : Activity} (fits : activity.Fits pid latched) :
    activity.Fits pid mode := by
  cases activity with
  | evaluation phase =>
      cases phase with
      | readMode => exact Mode.Untracked.mono keeps fits
      | _ => exact fits
  | initialization init =>
      obtain ⟨next, identity, environmentReady⟩ := init
      cases next with
      | readReady => trivial
      | publish | readGuarded | install | storeGuarded => exact fits
      | storeDepth => exact keeps.elim (fun same => same.trans fits) id
      | readIdentity | storeIdentity | readEnviron | storeTarget | storeMode | storeReady =>
          exact Mode.Untracked.mono keeps fits

theorem Thread.Quiet.mono {thread : Thread} (quiet : thread.Quiet pid latched) : thread.Quiet pid mode where
  stored found := keeps.elim (fun same => same.trans (quiet.stored found)) id
  activity activity running := (quiet.activity activity running).mono keeps

end

namespace Process

variable [Fintype τ] {target : Nat} {p q : Process τ} {t : τ} {thread : Thread} {answers : InitAnswers}

/-- In a descendant an evaluation that is not answered in the window finds no tracking mode. -/
theorem Settled.untracked (settled : p.Settled target) (stamped : p.Stamped target) (other : p.pid ≠ target)
    (outside : p.forkDepth = 0 ∨ p.inForkChild = false) : p.mode.Untracked := by
  have positive := stamped.isPid.1
  rcases settled with untracked | ⟨_, identity, deep⟩
  · exact untracked
  · rcases outside with zero | outside
    · omega
    · simp only [inForkChild, identity, decide_eq_false_iff_not] at outside
      omega

theorem Settled.unready (settled : p.Settled target) (unready : p.ready = false) : p.mode.Untracked := by
  rcases settled with untracked | ⟨ready, _⟩
  · exact untracked
  · cases ready.symm.trans unready

/-! ### Evaluations and initializations -/

variable (descendant : p.Descendant target) (stamped : p.Stamped target) (other : p.pid ≠ target)
include descendant stamped other

/-- A step of an evaluation in a descendant: what is left of it can go on, and what it returns is
`kSuppressed`. -/
theorem Descendant.evaluate {phase : Evaluation} (fit : (Activity.evaluation phase).Fits p.pid p.mode)
    (knows : (Activity.evaluation phase).Knows target) :
    ((p.evaluate phase).1.mode = p.mode ∨ (p.evaluate phase).1.mode = .suppressed) ∧
      (∀ later, (p.evaluate phase).2 = .inl later →
        (Activity.evaluation later).Fits p.pid (p.evaluate phase).1.mode) ∧
      ∀ mode, (p.evaluate phase).2 = .inr mode → mode = .suppressed := by
  cases phase with
  | inWindow =>
      cases window : p.inForkChild with
      | true => simp [Process.evaluate, window]
      | false =>
          have untracked := descendant.settled.untracked stamped other (.inr window)
          simpa [Process.evaluate, window, Activity.Fits] using untracked
  | readMode =>
      have present : p.environ.isNone = false := by simp [← not_isSome, stamped.environ]
      by_cases undecided : p.mode = .undecided
      · simp [Process.evaluate, undecided, present, Activity.Fits]
      · simpa [Process.evaluate, undecided, present] using fit.resolve_right undecided
  | readIdentity =>
      refine ⟨.inl rfl, ?_, by simp [Process.evaluate]⟩
      rintro _ ⟨⟩
      split
      · exact stamped.identity_ne other
      · trivial
  | storeIdentity identity =>
      refine ⟨.inl rfl, ?_, by simp [Process.evaluate]⟩
      rintro _ ⟨⟩
      rw [show identity = target from knows]
      exact fun same => other (Int.ofNat.inj same).symm
  | decide identity =>
      refine ⟨.inl rfl, ?_, by simp [Process.evaluate]⟩
      rintro _ ⟨⟩
      exact if_pos fit
  | storeMode mode =>
      refine ⟨.inr fit, by simp [Process.evaluate], ?_⟩
      rintro _ ⟨⟩
      exact fit

/-- A step of an initialization in a descendant: it ends suppressed. -/
theorem Descendant.initializeStep {init : Initialization} {later : Option Initialization}
    (fit : (Activity.initialization init).Fits p.pid p.mode) (knows : init.Knows target)
    (stepped : p.initializeStep answers init = some (q, later)) :
    (q.mode = p.mode ∨ q.mode = .suppressed) ∧ (q = p ∨ q.mode.Untracked) ∧
      ∀ init', later = some init' → (Activity.initialization init').Fits p.pid q.mode := by
  have elsewhere (known : init.target = -1 ∨ init.target = target) : init.target ≠ p.pid := by
    have := stamped.positive
    omega
  obtain ⟨next, identity, environmentReady⟩ := init
  cases next with
  | readReady =>
      cases stepped
      refine ⟨.inl rfl, .inl rfl, ?_⟩
      cases ready : p.ready with
      | true => simp
      | false =>
          rintro _ ⟨⟩
          exact descendant.settled.unready ready
  | readIdentity =>
      cases stepped
      refine ⟨.inl rfl, .inl rfl, ?_⟩
      rintro _ ⟨⟩
      split
      · exact fit
      · exact fit
  | storeIdentity =>
      cases stepped
      refine ⟨.inl rfl, .inr fit, ?_⟩
      rintro _ ⟨⟩
      exact fit
  | readEnviron =>
      rw [stamped.readEnviron_eq rfl knows, if_neg (elsewhere knows)] at stepped
      cases stepped
      refine ⟨.inl rfl, .inl rfl, ?_⟩
      rintro _ ⟨⟩
      exact fit
  | publish | readGuarded | install | storeGuarded => cases fit
  | storeTarget =>
      cases stepped
      refine ⟨.inl rfl, .inr fit, ?_⟩
      rintro _ ⟨⟩
      rw [if_pos (elsewhere knows.2)]
      exact fit
  | storeMode =>
      cases stepped
      refine ⟨.inr rfl, .inr (.inl rfl), ?_⟩
      rintro _ ⟨⟩
      exact rfl
  | storeDepth =>
      cases stepped
      refine ⟨.inl rfl, .inr (.inl fit), ?_⟩
      rintro _ ⟨⟩
      exact .inl fit
  | storeReady =>
      cases stepped
      exact ⟨.inl rfl, .inr fit, by simp⟩

end Process

/-! ### Actions -/

namespace Process

variable [Fintype τ] [DecidableEq τ] {target : Nat} {p q : Process τ} {t : τ} {thread : Thread}

/-- A descendant of which members and one thread change: it stays in the window, or has nothing latched.
-/
theorem Descendant.change (descendant : p.Descendant target) (pid : q.pid = p.pid)
    (threads : q.threads = p.threads)
    (mode : q.mode = p.mode ∨ q.mode = .suppressed) (changed : thread.Quiet q.pid q.mode)
    (stays : q.mode.Untracked ∨ q.ready = p.ready ∧ (q.targetPid = p.targetPid ∨ q.targetPid = target) ∧
      q.forkDepth + (p.threads t).raised = p.forkDepth + thread.raised) :
    (q.setThread t thread).Descendant target where
  settled := by
    rcases stays with untracked | ⟨sameReady, identity, balance⟩
    · exact .inl untracked
    · rcases descendant.settled with untracked | ⟨ready, known, deep⟩
      · exact .inl (untracked.mono mode)
      · refine .inr ⟨sameReady.trans ready, identity.elim (fun kept => kept.trans known) id, ?_⟩
        have moved := raised_setThread q t thread
        have same : q.raised = p.raised := by simp only [raised, threads]
        rw [same, threads] at moved
        change _ ≤ q.forkDepth
        omega
  threads := by
    refine q.forall_setThread (P := Thread.Quiet q.pid q.mode) changed fun other => ?_
    rw [threads, pid]
    exact (descendant.threads other).mono mode

theorem Descendant.startEvaluation (descendant : p.Descendant target) (stamped : p.Stamped target)
    (other : p.pid ≠ target) :
    (p.setThread t ⟨(p.threads t).forks, some (.evaluation p.startEvaluation)⟩).Descendant target := by
  refine descendant.change rfl rfl (.inl rfl) ⟨(descendant.threads t).stored, ?_⟩ (.inr ⟨rfl, .inl rfl, rfl⟩)
  rintro _ ⟨⟩
  unfold Process.startEvaluation
  split
  · trivial
  · next zero => exact descendant.settled.untracked stamped other (.inl (not_not.1 zero))

/-- A step of a fork in a descendant. -/
theorem Descendant.fork (descendant : p.Descendant target) {phase : ForkPhase} {rest : List ForkPhase}
    (pending : (p.threads t).forks = phase :: rest) {action : Action} {outcome : Outcome τ}
    (stepped : p.forkStep t rest action phase = some (q, outcome)) : q.Descendant target := by
  have stored (found : .storedMode ∈ phase :: rest) : p.mode = .suppressed :=
    (descendant.threads t).stored (pending ▸ found)
  rcases (forkStep_cases stepped).2.2 with ⟨depth, forks, rfl, balance, new⟩ | ⟨_, rfl⟩ | ⟨rfl, rfl⟩
  · refine descendant.change rfl rfl (.inl rfl) ⟨fun found => ?_, by simp⟩ (.inr ⟨rfl, .inl rfl, ?_⟩)
    · rcases new _ found with old | ⟨parentSide, _⟩
      · exact stored (mem_cons_of_mem _ old)
      · cases parentSide
    · simpa [Thread.raised, pending] using balance
  · exact descendant.change rfl rfl (.inr rfl) ⟨fun _ => rfl, by simp⟩ (.inl (.inl rfl))
  · have latched := stored mem_cons_self
    exact descendant.change rfl rfl (.inl rfl) ⟨fun _ => latched, by simp⟩ (.inl (.inl latched))

/-- Every action of a descendant keeps it in order, and what it is told is `kSuppressed`. -/
theorem Descendant.act (descendant : p.Descendant target) (stamped : p.Stamped target)
    (other : p.pid ≠ target) {action : Action} {outcome : Outcome τ} (acts : p.Acts t action q outcome) :
    q.Descendant target ∧ ∀ mode, outcome.answer = some mode → mode = .suppressed := by
  have quiet := descendant.threads t
  cases acts with
  | @evaluation phase _ running =>
      have knows := stamped.activities t _ running
      obtain ⟨mode, next, answer⟩ := descendant.evaluate stamped other (quiet.activity _ running) knows
      obtain ⟨stored, _, identity⟩ := p.evaluate_eq phase
      have identity : (p.evaluate phase).1.targetPid = p.targetPid ∨
        (p.evaluate phase).1.targetPid = target := by
        refine identity.imp_right fun stores => ?_
        rw [stores] at knows
        exact knows
      generalize p.evaluate phase = stepped at *
      obtain ⟨q, result⟩ := stepped
      dsimp only at *
      refine ⟨?_, fun told found => answer told ?_⟩
      · rw [stored]
        refine descendant.change rfl rfl mode ⟨fun found => ?_, fun activity later => ?_⟩
          (.inr ⟨rfl, identity, rfl⟩)
        · exact (quiet.mono mode).stored found
        · cases result with
          | inl later' =>
              cases later
              exact next later' rfl
          | inr _ => cases later
      · cases result with
        | inl _ => cases found
        | inr _ =>
            cases found
            rfl
  | initialization running stepped =>
      have knows := stamped.activities t _ running
      obtain ⟨mode, stays, next⟩ :=
        descendant.initializeStep stamped other (quiet.activity _ running) knows stepped
      have proceeded := stamped.initializeStep knows stepped
      refine ⟨descendant.change proceeded.pid proceeded.threads mode
        ⟨fun found => ?_, fun activity later => ?_⟩
        (stays.symm.imp_right ?_), by simp⟩
      · exact (quiet.mono mode).stored found
      · obtain ⟨init', found, rfl⟩ := map_eq_some_iff.1 later
        rw [proceeded.pid]
        exact next init' found
      · rintro rfl
        exact ⟨rfl, .inl rfl, rfl⟩
  | startEvaluation idle => exact ⟨descendant.startEvaluation stamped other, by simp⟩
  | load idle =>
      refine ⟨descendant.change rfl rfl (.inl rfl) ⟨quiet.stored, ?_⟩ (.inr ⟨rfl, .inl rfl, rfl⟩), by simp⟩
      rintro _ ⟨⟩
      trivial
  | callFork idle =>
      refine ⟨descendant.change rfl rfl (.inl rfl) ⟨fun found => quiet.stored (by simpa using found), ?_⟩
        (.inr ⟨rfl, .inl rfl, ?_⟩), by simp⟩
      · intro activity entered
        change (if _ then _ else _) = _ at entered
        split at entered <;> cases entered
        trivial
      · simp [Thread.raised, ForkPhase.raised]
  | exec kept =>
      exact ⟨⟨.inl (.inr rfl), fun _ => ⟨by simp [Process.execed], by simp [Process.execed]⟩⟩, by simp⟩
  | changeEnviron kept =>
      exact ⟨⟨descendant.settled, descendant.threads⟩, by simp⟩
  | fork idle pending stepped =>
      refine ⟨descendant.fork pending stepped, ?_⟩
      simp [(forkStep_cases stepped).1]

section

variable {callbacks child : Nat} {rest : List ForkPhase}

omit [Fintype τ] in
/-- The one thread of a child is idle, in the forks of its parent outside this one. -/
theorem forked_thread (someone : τ) :
    ((p.forked t child callbacks rest).threads someone).activity = none ∧
      (.storedMode ∈ ((p.forked t child callbacks rest).threads someone).forks → .storedMode ∈ rest) := by
  change (update (fun _ : τ => ({} : Thread)) t _ someone).activity = none ∧
    (_ ∈ (update (fun _ : τ => ({} : Thread)) t _ someone).forks → _)
  by_cases same : someone = t
  · subst same
    rw [update_self]
    exact ⟨rfl, by simp⟩
  · rw [update_of_ne same]
    exact ⟨rfl, by simp⟩

variable (pending : (p.threads t).forks = .prepared callbacks :: rest)
include pending

/-- What a fork has raised the depth by does not count among the forks of its child. -/
theorem raised_forked : (p.forked t child callbacks rest).raised + callbacks ≤ p.raised := by
  have moved := Ledger.sum_update_add Thread.raised (fun _ : τ => ({} : Thread)) t
    { forks := .inChild (callbacks == 0) :: rest }
  have mine : (p.forked t child callbacks rest).raised = (rest.map ForkPhase.raised).sum := by
    simpa [Thread.raised, ForkPhase.raised, raised, Process.forked] using moved
  have without := raised_setThread p t {}
  simp only [Thread.raised, pending, map_cons, sum_cons, ForkPhase.raised, map_nil, sum_nil] at without
  omega

/-- The child of a fork is in the window, or nothing is latched in it. -/
theorem Member.settled_forked (member : p.Member target) :
    (p.forked t child callbacks rest).Settled target := by
  have fewer : (p.forked t child callbacks rest).raised + callbacks ≤ p.raised := raised_forked pending
  by_cases isTarget : p.pid = target
  · have target := member.asTarget isTarget
    obtain ⟨_, raises, unready⟩ := target.threads t (.prepared callbacks)
      (by rw [pending]; exact mem_cons_self)
    obtain ⟨_, _, stage⟩ := target.stage
    have ready : p.ready = true := by
      by_contra notReady
      cases (unready (by simpa using notReady)).1
    rcases stage.settles ready with ⟨installed, known⟩ | ⟨_, latched⟩
    · refine .inr ⟨ready, known.trans (by rw [isTarget]), ?_⟩
      have counted := target.depth
      have one : callbacks = 1 := (raises rfl).trans installed
      change _ ≤ p.forkDepth
      omega
    · exact .inl (.inl latched)
  · rcases (member.asDescendant isTarget).settled with untracked | ⟨ready, known, deep⟩
    · exact .inl untracked
    · refine .inr ⟨ready, known, ?_⟩
      change _ ≤ p.forkDepth
      omega

theorem Member.forked (member : p.Member target) (born : 0 < child) (other : child ≠ target) :
    (p.forked t child callbacks rest).Member target := by
  refine ⟨⟨member.isPid, born, member.environ, member.stamp, member.identity,
    fun someone activity running => ?_⟩, fun isTarget => absurd isTarget other, fun _ =>
      ⟨member.settled_forked pending, fun someone => ⟨fun stored => ?_, fun activity running => ?_⟩⟩⟩
  · cases (forked_thread someone).1.symm.trans running
  · have inherited : .storedMode ∈ (p.threads t).forks := by
      rw [pending]
      exact mem_cons_of_mem _ ((forked_thread someone).2 stored)
    by_cases isTarget : p.pid = target
    · cases ((member.asTarget isTarget).threads t _ inherited).1
    · exact ((member.asDescendant isTarget).threads t).stored inherited
  · cases (forked_thread someone).1.symm.trans running

end

/-- What an action keeps: its process is in order, a descendant is told `kSuppressed`, and a child with a
new pid is in order. -/
theorem Member.act (member : p.Member target) {action : Action} (orderly : p.pid = target →
      p.Orderly t action) {outcome : Outcome τ} (acted : p.act t action = some (q, outcome)) :
    q.Member target ∧ q.pid = p.pid ∧
      (p.pid ≠ target → ∀ mode, outcome.answer = some mode → mode = .suppressed) ∧
      ∀ child, outcome.child = some child → 0 < child.pid → child.pid ≠ target → child.Member target := by
  have acts := acts_of_act p acted
  obtain ⟨stamped, pid⟩ := member.toStamped.act acts
  refine ⟨⟨stamped, fun here => ?_, fun other => ?_⟩, pid, fun other => ?_, ?_⟩
  · rw [pid] at here
    exact (member.asTarget here).act member.toStamped here (orderly here) acts
  · rw [pid] at other
    exact ((member.asDescendant other).act member.toStamped other acts).1
  · exact ((member.asDescendant other).act member.toStamped other acts).2
  · intro child born alive other
    cases acts with
    | fork idle pending stepped =>
        obtain ⟨_, callbacks, rfl, rfl⟩ := (forkStep_cases stepped).2.1 child born
        exact member.forked pending alive other
    | _ => cases born

end Process

/-! ### Runs -/

/-- A target whose `InitializeTargetProcess` has completed with an environment, with forks that its depth
counts. -/
structure Process.Initialized [Fintype τ] (start : Process τ) : Prop where
  positive : 0 < start.pid
  fits : start.pid ≤ pidMax
  environ : start.environ.isSome = true
  stamp : start.environ.getenv targetPidEnv = some (pidText start.pid)
  targetPid : start.targetPid = start.pid
  ready : start.ready = true
  callbacks : start.callbacks = 1
  counts : start.forkDepth = start.forksInProgress
  forks : ∀ t, ∀ phase ∈ (start.threads t).forks,
    phase.ofChild = false ∧ (phase.inProgress = true → phase.raised = 1)
  idle : ∀ t, (start.threads t).activity = none

theorem Process.Initialized.member [Fintype τ] {start : Process τ} (initialized : start.Initialized) :
    start.Member start.pid where
  toStamped := by
    refine ⟨⟨initialized.positive, initialized.fits⟩, initialized.positive, initialized.environ,
      initialized.stamp, .inr (.inr initialized.targetPid), ?_⟩
    intro t activity running
    cases (initialized.idle t).symm.trans running
  asTarget _ :=
    { threads := fun t phase found => by
        obtain ⟨parentSide, raises⟩ := initialized.forks t phase found
        refine ⟨parentSide, fun inProgress => (raises inProgress).trans
          initialized.callbacks.symm, fun unready => ?_⟩
        cases initialized.ready.symm.trans unready
      depth := by
        rw [initialized.counts]
        refine congrArg _ (Finset.sum_congr rfl fun t _ =>
          (Thread.raised_eq_countP fun phase found => ?_).symm)
        exact (initialized.forks t phase found).2
      stage := by
        refine ⟨none, fun t init => ?_, .inr ⟨initialized.ready,
          .inl ⟨initialized.callbacks, initialized.targetPid⟩⟩⟩
        simp [Thread.initialization, initialized.idle] }
  asDescendant other := absurd rfl other

/-- Every process of the tree is in order, and every answer outside the target is `kSuppressed`. -/
structure ProcessTree.Ordered [Fintype τ] (target : Nat) (tree : ProcessTree τ) : Prop where
  members : ∀ {pid p}, tree.processes pid = some p → p.pid = pid ∧ p.Member target
  rooted : (tree.processes target).isSome = true
  answers : ∀ {pid mode}, (pid, mode) ∈ tree.answers → pid ≠ target → mode = .suppressed

/-- A step of the tree is orderly if it is, in the target. -/
def ProcessTree.Orderly (target : Nat) (tree : ProcessTree τ) (label : Nat × τ × Action) : Prop :=
  label.1 = target → ∀ p ∈ tree.processes target, p.Orderly label.2.1 label.2.2

instance [Fintype τ] (target : Nat) (tree : ProcessTree τ) (label : Nat × τ × Action) :
    Decidable (tree.Orderly target label) :=
  inferInstanceAs (Decidable (_ → _))

variable [Fintype τ] [DecidableEq τ] {target : Nat} {tree tree' : ProcessTree τ} {start : Process τ}

omit [DecidableEq τ] in
theorem ProcessTree.Ordered.put (ordered : tree.Ordered target) {p : Process τ} (member : p.Member target) :
    (tree.put p).Ordered target where
  members := by
    intro pid other found
    change update tree.processes p.pid (some p) pid = some other at found
    by_cases same : pid = p.pid
    · subst same
      rw [update_self] at found
      cases found
      exact ⟨rfl, member⟩
    · rw [update_of_ne same] at found
      exact ordered.members found
  rooted := by
    change (update tree.processes p.pid (some p) target).isSome = true
    by_cases same : target = p.pid
    · rw [same, update_self]
      rfl
    · rw [update_of_ne same]
      exact ordered.rooted
  answers := ordered.answers

/-- One orderly step of the tree. -/
theorem ProcessTree.Ordered.step (ordered : tree.Ordered target) {label : Nat × τ × Action}
    (orderly : tree.Orderly target label)
    (stepped : (processTree start).step tree label = some tree') : tree'.Ordered target := by
  obtain ⟨pid, t, action⟩ := label
  obtain ⟨p, found, stepped⟩ := bind_eq_some_iff.1 stepped
  obtain ⟨⟨p', outcome⟩, acted, adopted⟩ := bind_eq_some_iff.1 stepped
  obtain ⟨rfl, member⟩ := ordered.members found
  obtain ⟨member', _, answered, adoptable⟩ := member.act (fun here => orderly here p (here ▸ found)) acted
  have recorded : ((tree.put p').record p.pid outcome.answer).Ordered target := by
    refine { ordered.put member' with answers := ?_ }
    intro pid mode logged other
    rcases mem_append.1 logged with new | old
    · obtain ⟨told, told', same⟩ := map_eq_some_iff.1 (mem_toList.1 new)
      cases same
      exact answered other mode told'
    · exact ordered.answers old other
  cases child : outcome.child with
  | none =>
      rw [child] at adopted
      cases adopted
      exact recorded
  | some child' =>
      rw [child] at adopted
      simp only [ProcessTree.adopt] at adopted
      split at adopted
      · cases adopted
      · next fresh =>
          cases adopted
          push Not at fresh
          refine recorded.put (adoptable child' child (Nat.pos_of_ne_zero fresh.1) ?_)
          -- The pid of the target is taken.
          rintro isTarget
          rw [isTarget] at fresh
          exact fresh.2 recorded.rooted

omit [DecidableEq τ] in
/-- An evaluation that nothing interrupts. -/
theorem Process.Member.currentMode {p : Process τ} (member : p.Member target)
    (other : p.pid ≠ target) : p.currentMode.1 = .suppressed := by
  have present : ¬ p.environ.isNone = true := by
    simp [isNone_iff_eq_none, ← isSome_iff_ne_none, member.environ]
  unfold Process.currentMode
  split
  · rfl
  · next outside =>
      have untracked := (member.asDescendant other).settled.untracked member.toStamped other
        (by by_contra inside; push Not at inside; exact outside ⟨inside.1, by simpa using inside.2⟩)
      split
      · rw [Process.resolveMode, if_neg present]
        exact if_pos (member.targetIdentity_ne other)
      · next decided => exact untracked.resolve_right decided

theorem tree_ordered (initialized : start.Initialized)
    (reached : (processTree start).ReachableBy (·.Orderly start.pid) tree) : tree.Ordered start.pid := by
  refine reached.invariant ⟨?_, ?_, ?_⟩ fun ordered orderly stepped =>
    ordered.step orderly stepped
  · intro pid p found
    change update (fun _ => none) start.pid (some start) pid = some p at found
    by_cases same : pid = start.pid
    · subst same
      rw [update_self] at found
      cases found
      exact ⟨rfl, initialized.member⟩
    · rw [update_of_ne same] at found
      cases found
  · change (update (fun _ => none) start.pid (some start) start.pid).isSome = true
    rw [update_self]
    rfl
  · intro pid mode logged
    cases logged

/-- What one thread of a process does. -/
def does (pid : Nat) (t : τ) (actions : List Action) : List (Nat × τ × Action) := actions.map (pid, t, ·)

/-- What the initialization makes of a new process. -/
def exampleTarget (t : τ) : Process τ :=
  let new := processTree { pid := 7, environ := some [] }
  (((new.run new.init (does 7 t (.load :: replicate 10 (.proceed {})))).bind (·.processes 7)).getD
    { pid := 0, environ := none })

/-- An evaluation, or so many steps of it. -/
def evaluates (steps : Nat) : List Action := .startEvaluation :: replicate steps (.proceed {})

/-- `InitializeTargetProcess` where `pthread_atfork` fails. -/
def failsToGuard (steps : Nat) : List Action := .load :: replicate steps (.proceed { atfork := false })

/-- A fork, with an evaluation in the child before and after its callback and after an exec. Then the
target execs and cannot install its guards, and a child made without them evaluates. -/
def forkedSchedule : List (Nat × Unit × Action) :=
  does 7 () [.callFork, .prepare, .clone 8] ++
  does 8 () (evaluates 1 ++ [.suppressMode, .suppressDepth] ++ evaluates 1 ++
    [.exec (exampleTarget ()).environ] ++
    evaluates 5) ++
  does 7 () ([.parent, .returnFork, .exec (exampleTarget ()).environ] ++ failsToGuard 10 ++
    [.callFork, .prepare, .clone 9]) ++
  does 9 () (evaluates 1)

/-- However the tree grows while the target is orderly: outside the target every evaluation of
`CurrentMode`, interrupted or not, returns `kSuppressed`, and in the target the depth is the number of
forks in progress as long as its guards are installed. -/
theorem descendants_suppressed (initialized : start.Initialized)
    (reached : (processTree start).ReachableBy (·.Orderly start.pid) tree) :
    (∀ pid mode, (pid, mode) ∈ tree.answers → pid ≠ start.pid → mode = .suppressed) ∧
      (∀ pid p, tree.processes pid = some p → pid ≠ start.pid → p.currentMode.1 = .suppressed) ∧
      ∀ p, tree.processes start.pid = some p → (p.ready = true → p.callbacks ≠ 0) →
        p.forkDepth = p.forksInProgress := by
  have ordered := tree_ordered initialized reached
  refine ⟨fun pid mode logged other => ordered.answers logged other, ?_, ?_⟩
  · intro pid p found other
    obtain ⟨rfl, member⟩ := ordered.members found
    exact member.currentMode other
  · intro p found guards
    obtain ⟨same, member⟩ := ordered.members found
    exact (member.asTarget same).forkDepth_eq guards

theorem descendants_suppressed_forked :
    ∃ tree : ProcessTree Unit, tree.answers.length = 4 ∧
      ∀ pid mode, (pid, mode) ∈ tree.answers → pid ≠ (exampleTarget ()).pid → mode = .suppressed := by
  let start := exampleTarget ()
  have initialized : start.Initialized := by
    constructor <;> decide +kernel
  obtain ⟨tree, ran, answered⟩ :
      ∃ tree ∈ (processTree start).run (processTree start).init forkedSchedule, tree.answers.length = 4 := by
    decide +kernel
  have respects : (processTree start).Respects (·.Orderly start.pid) (processTree start).init
    forkedSchedule := by
    decide +kernel
  exact ⟨tree, answered, (descendants_suppressed initialized (.of_run .init respects ran)).1⟩

/-- After an exec a thread of the target has decided to track but not stored that. Another one fails to
install the guards and stores `kSuppressed`; then the first one stores. -/
def lostSuppression : List (Nat × Bool × Action) :=
  does 7 false [.exec (exampleTarget true).environ] ++ does 7 true (evaluates 4) ++ does 7 false
    (failsToGuard 9) ++
  does 7 true [.proceed {}, .callFork, .prepare, .clone 8] ++ does 8 true (evaluates 1) ++
  does 7 false [.callFork, .prepare, .failFork, .parent, .returnFork]

/-- The child tracks. The target does not count its forks either: one is in progress when another
completes, and the depth is zero. -/
theorem descendant_tracks : (exampleTarget true).Initialized ∧
    ∃ tree, (processTree (exampleTarget true)).Reachable tree ∧ (8, Mode.track) ∈ tree.answers ∧
      ∃ p, tree.processes 7 = some p ∧ p.forkDepth = 0 ∧ p.forksInProgress = 1 := by
  let start := exampleTarget true
  have initialized : start.Initialized := by
    constructor <;> decide +kernel
  obtain ⟨tree, ran, tracks, p, found, uncounted⟩ :
      ∃ tree ∈ (processTree start).run (processTree start).init lostSuppression,
        (8, Mode.track) ∈ tree.answers ∧
        ∃ p ∈ tree.processes 7, p.forkDepth = 0 ∧ p.forksInProgress = 1 := by
    decide +kernel
  exact ⟨initialized, tree, .run .init ran, tracks, p, found, uncounted⟩

end MallocHook
