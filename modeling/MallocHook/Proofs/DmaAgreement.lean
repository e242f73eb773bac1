/-
Module: MallocHook.Proofs.DmaAgreement
Purpose: The descriptor registry and the live table agree between any two calls, as long as no other
  call uses the number of a descriptor as an address.
Trusted boundary: none
Main exports: AgreeAt, Agree, descriptors_agree
-/
import MallocHook.Core.SerialHook

namespace MallocHook

open Option LiveTable

/-! ### Addresses and descriptors -/

/-- A value that is no descriptor. -/
def IsAddress (pointer : Pointer) : Prop := fdPointer (pointerFd pointer) ≠ pointer

instance (pointer : Pointer) : Decidable (IsAddress pointer) :=
  inferInstanceAs (Decidable (_ ≠ _))

theorem IsAddress.ne_fdPointer {pointer : Pointer} (isAddress : IsAddress pointer) (fd : Fd) :
    fdPointer fd ≠ pointer := by
  rintro rfl
  exact isAddress (by rw [pointerFd_fdPointer])

variable {τ ε : Type*}

/-- Whoever answers, an allocation or mapping that succeeds is not at the number of a descriptor. -/
def Environment.AnswersAddresses {θ : Type*} (env : Environment θ ε) : Prop :=
  ∀ {world t op answer world'}, env.answer world t op answer = some world' →
    IsAddress answer.pointer ∨
      match op with
      | .mmap .. => answer.pointer = mapFailed
      | .mremap .. => mappingSucceeded answer.pointer = false
      | _ => answer.pointer = 0

/-- No descriptor is freed, reallocated, unmapped or moved as if its number were an address. -/
def UsesAddresses {θ : Type*} : Request θ → Prop
  | .free pointer | .realloc pointer _ => pointer = 0 ∨ IsAddress pointer
  | .munmap addr _ => IsAddress addr
  | .mremap oldAddr _ _ _ _ => IsAddress oldAddr
  | _ => True

instance {θ : Type*} (request : Request θ) : Decidable (UsesAddresses request) := by
  induction request using Request.casesOn <;> unfold UsesAddresses <;> infer_instance

/-! ### Agreement -/

/-- The registry knows a descriptor exactly when the table has a DMA record for it, of the same size, and
then as accounted. -/
def AgreeAt (registry : DmaRegistry) (live : LiveTable) (fd : Fd) : Prop :=
  (registry.dmaFds.lookup fd).map (fun info => (MemType.dma, info.size, info.tracked)) =
    (live.find (fdPointer fd)).map fun record => (record.memType, record.size, true)

/-- The two agree on every descriptor. -/
def Agree {θ : Type*} (hook : Hook θ ε) : Prop := ∀ fd, AgreeAt hook.dma hook.live fd

theorem AgreeAt.absent_iff {registry : DmaRegistry} {live : LiveTable} {fd : Fd}
    (agree : AgreeAt registry live fd) :
    registry.dmaFds.lookup fd = none ↔ live.find (fdPointer fd) = none := by
  rw [← map_eq_none_iff, agree, map_eq_none_iff]

theorem AgreeAt.tracked {registry : DmaRegistry} {live : LiveTable} {fd : Fd} {info : DmaFdInfo}
    (agree : AgreeAt registry live fd) (held : registry.dmaFds.lookup fd = some info) :
    info.tracked = true ∧ ∃ record, live.find (fdPointer fd) = some record ∧
      record.memType = .dma ∧ record.size = info.size := by
  unfold AgreeAt at agree
  rw [held, map_some, eq_comm, map_eq_some_iff] at agree
  obtain ⟨record, found, same⟩ := agree
  simp only [Prod.mk.injEq] at same
  exact ⟨same.2.2.symm, record, found, same.1, same.2.1⟩

/-- Two states say the same about every descriptor. -/
structure SameDescriptors {θ : Type*} (hook' hook : Hook θ ε) : Prop where
  registered : hook'.dma.dmaFds = hook.dma.dmaFds
  recorded : ∀ fd, hook'.live.find (fdPointer fd) = hook.live.find (fdPointer fd)

theorem Agree.of_same {θ : Type*} {hook hook' : Hook θ ε} (agree : Agree hook)
    (same : SameDescriptors hook' hook) : Agree hook' := by
  intro fd
  have before := agree fd
  unfold AgreeAt at *
  rw [same.registered, same.recorded, before]

/-! ### Calls about addresses -/

/-- Operations on addresses, which bear on no descriptor. -/
def Op.Apart {θ : Type*} : Op θ → Prop
  | .frame (.addBacktrace pointer _ _ _) => IsAddress pointer
  | .shard (.addEntry pointer _ _ _) | .shard (.internalFree pointer) | .shard (.remove pointer)
  | .shard (.reallocTake pointer _) | .shard (.munmapTake pointer _)
  | .shard (.restoreEntry pointer _) => IsAddress pointer
  | .shard (.remap oldPointer newPointer _) => IsAddress oldPointer ∧ IsAddress newPointer
  | .system (.realloc pointer _ _) | .system (.munmap pointer _ _)
  | .system (.mremap pointer _ _ _ _) => IsAddress pointer
  | .system (.mmap ..) | .system (.ioctl ..) | .system (.close _) => False
  | .dma .lockFds | .dma .unlockFds | .dma (.dropIonAllocations _) => True
  | .dma _ => False
  | _ => True

theorem apart_afterSection (result : LiveTable.SectionResult) :
    ∀ op ∈ (afterSection result : List (Op τ)), op.Apart := by
  unfold afterSection
  split <;> split <;> simp [Op.Apart]

theorem shard_apart {op : ShardOp} {live live' : LiveTable} {answer : Answer} {next : List (Op (Option τ))}
    (apart : (.shard op : Op (Option τ)).Apart) (sectioned : op.exec live answer = (live', next)) :
    (∀ fd, live'.find (fdPointer fd) = live.find (fdPointer fd)) ∧ ∀ later ∈ next, later.Apart := by
  cases op
  case remap oldPointer newPointer newSize =>
    simp only [ShardOp.exec] at sectioned
    split at sectioned <;> cases sectioned
    · exact ⟨fun _ => rfl, by simp⟩
    · next remapped =>
        obtain ⟨info, found, -, rfl⟩ := live.remap_eq_some remapped
        have fromElsewhere := IsAddress.ne_fdPointer apart.1
        have toElsewhere := IsAddress.ne_fdPointer apart.2
        exact ⟨fun fd => by
          rw [find_rekey, if_neg (toElsewhere fd), if_neg (fromElsewhere fd)],
          apart_afterSection _⟩
  all_goals
    cases sectioned
    have elsewhere := IsAddress.ne_fdPointer apart
  case addEntry pointer trackedSize hashIndex type =>
    exact ⟨fun fd => by rw [find_addSection, if_neg (elsewhere fd)], apart_afterSection _⟩
  case internalFree pointer | remove pointer =>
    refine ⟨fun fd => by rw [find_takeEntry, if_neg (elsewhere fd)], ?_⟩
    cases (live.takeEntry pointer).1 <;> simp [Op.Apart]
  case reallocTake pointer bytes | munmapTake pointer bytes =>
    exact ⟨fun fd => by rw [find_takeEntry, if_neg (elsewhere fd)], by simpa [Op.Apart] using apart⟩
  case restoreEntry pointer info =>
    exact ⟨fun fd => by rw [find_restoreEntry, if_neg (elsewhere fd)], by simp⟩

section

variable {config : Config} {env : Environment (Option τ) ε} {t : Option τ}
  (addresses : env.AnswersAddresses)

include addresses

theorem system_apart {op : SystemOp (Option τ)} {world world' : ε} {answer : Answer}
    (apart : (.system op : Op (Option τ)).Apart) (answered : env.answer world t op answer = some world') :
    ∀ later ∈ op.next config answer, later.Apart := by
  have given := addresses answered
  cases op with
  | alloc routine size =>
      simp only [SystemOp.next]
      split
      · next succeeded =>
          have obtained := routine.pointer_ne_null (Bool.and_eq_true_iff.1 succeeded).1
          simpa [Op.Apart, Op.add] using given.resolve_right obtained
      · simp
  | realloc pointer bytes previous =>
      simp only [SystemOp.next]
      split
      · cases previous with
        | none => simp
        | some info => simpa [Op.Apart] using apart
      · next obtained =>
          have isAddress := given.resolve_right obtained
          split <;> cases previous <;> simp [Op.Apart, Op.add, isAddress]
  | munmap addr size previous =>
      cases previous with
      | none => simp [SystemOp.next]
      | some info =>
          simp only [SystemOp.next, elim_some]
          split
          · simp [Op.Apart]
          · simpa [Op.Apart] using apart
  | mremap oldAddr oldSize newSize flags newAddr =>
      simp only [SystemOp.next]
      split
      · next succeeded =>
          have isAddress : IsAddress answer.pointer :=
            given.resolve_right (by simp [(Bool.and_eq_true_iff.1 succeeded).1])
          split
          · simpa [Op.Apart, Op.add] using isAddress
          · simpa [Op.Apart] using ⟨apart, isAddress⟩
      · simp
  | free | handOver => simp [SystemOp.next]
  | mmap | ioctl | close => cases apart

variable [DecidableEq τ]

/-- An operation on addresses leaves every descriptor alone, and leaves only such operations to do. -/
theorem apart_same {hook hook' : Hook (Option τ) ε} {op : Op (Option τ)} {answer : Answer}
    {next : List (Op (Option τ))} (apart : op.Apart)
    (executed : execOp config env t hook op answer = some (hook', next)) :
    SameDescriptors hook' hook ∧ ∀ later ∈ next, later.Apart := by
  rcases execOp_cases executed with
    ⟨frameOp, rfl, framed⟩ | ⟨shardOp, live', rfl, -, sectioned, rfl⟩ |
      ⟨systemOp, world, rfl, answered, rfl, rfl⟩ | ⟨peakOp, rfl, peaked⟩ | ⟨dmaOp, rfl, transacted⟩
  · cases framed
    refine ⟨⟨rfl, fun _ => rfl⟩, ?_⟩
    cases frameOp with
    | addBacktrace pointer pointerSize trackedSize type =>
        simp only [FrameOp.exec]
        split
        · simp
        · simpa [Op.Apart] using apart
    | removeBacktrace => simp [FrameOp.exec]
  · obtain ⟨recorded, later⟩ := shard_apart apart sectioned
    exact ⟨⟨rfl, recorded⟩, later⟩
  · exact ⟨⟨rfl, fun _ => rfl⟩, system_apart addresses apart answered⟩
  · obtain ⟨sameLive, -, -, sameOutside⟩ := execPeak_frame peaked
    refine ⟨⟨by rw [sameOutside.dma], fun fd => by rw [sameLive]⟩, fun later member => ?_⟩
    obtain ⟨peakOp, rfl⟩ := execPeak_next peaked later member
    trivial
  · cases dmaOp with
    | lockFds =>
        simp only [Hook.execDma] at transacted
        split at transacted <;> cases transacted
        exact ⟨⟨rfl, fun _ => rfl⟩, by simp⟩
    | unlockFds | dropIonAllocations =>
        cases transacted
        exact ⟨⟨rfl, fun _ => rfl⟩, by simp⟩
    | _ => cases apart

/-- Operations on addresses keep what is so about descriptors. -/
theorem apart_alone {P : Hook (Option τ) ε → Prop} {ops : List (Op (Option τ))}
    (onDescriptors : ∀ {hook hook'}, SameDescriptors hook' hook → P hook → P hook')
    (apart : ∀ op ∈ ops, op.Apart) : (hookCode config env).Triple t P ops P := by
  refine .invariant Op.Apart (fun isApart holds executed => ?_) apart
  obtain ⟨same, later⟩ := apart_same addresses isApart executed
  exact ⟨onDescriptors same holds, later⟩

end

/-! ### Calls about descriptors -/

section

variable [DecidableEq τ] {config : Config} {env : Environment (Option τ) ε} {t : Option τ}

/-- A descriptor that was just registered gets its record, and then its mark. -/
theorem track_alone (hook : Hook (Option τ) ε) (fd : Fd) {size : Nat}
    (registered : hook.dma.dmaFds.lookup fd = some ⟨size, false⟩)
    (others : ∀ other, other ≠ fd → AgreeAt hook.dma hook.live other) :
    (hookCode config env).Triple t (fun before => before = hook)
      [.add (fdPointer fd) size .dma, .dma (.markTracked fd)] Agree := by
  refine .cons (add_alone hook (fdPointer fd) size .dma) ?_
  refine dma_alone fun added answer hook' next holds executed => ?_
  obtain ⟨hashIndex, now, sameLive, sameOutside⟩ := holds
  cases executed
  refine .nil fun after same other => ?_
  subst same
  unfold AgreeAt
  rw [DmaRegistry.lookup_markDmaFdTracked, sameOutside.dma, sameLive, find_addSection]
  by_cases here : other = fd
  · subst here
    simp [registered]
  · rw [if_neg here, if_neg fun same => here (fdPointer_inj same)]
    exact others other here

/-- A registration of a new descriptor, or of a known one with the size it is known with. -/
theorem register_alone (fd : Fd) (size : Nat) :
    (hookCode config env).Triple t
      (fun hook => Agree hook ∧ ∀ info, hook.dma.dmaFds.lookup fd = some info → info.size = size)
      [.dma (.register fd size)] Agree := by
  refine dma_alone fun hook answer hook' next holds executed => ?_
  obtain ⟨agree, known⟩ := holds
  cases executed
  unfold DmaRegistry.registerDmaFd
  split
  · exact .nil fun after same => same ▸ agree
  split
  · refine track_alone _ fd (by rw [AList.lookup_insert]) fun other differ => ?_
    have before := agree other
    unfold AgreeAt at *
    rwa [AList.lookup_insert_ne differ]
  · next info held =>
      obtain ⟨tracked, -⟩ := (agree fd).tracked held
      simp only [tracked, Bool.not_true, Option.some.injEq, Bool.false_eq_true, if_false]
      refine .nil fun after same other => ?_
      subst same
      have before := agree other
      unfold AgreeAt at *
      by_cases here : other = fd
      · subst here
        rw [AList.lookup_insert, ← before, held, ← known info held]
        simp [tracked]
      · rwa [AList.lookup_insert_ne here]

/-- A descriptor that is let go of loses its record with its entry in the registry. -/
theorem take_alone (op : DmaOp) (fd : Fd) (takes : ∀ (hook : Hook (Option τ) ε) (answer : Answer),
      hook.execDma t answer op = hook.execDma t answer (.takeClosed fd)) :
    (hookCode config env).Triple t Agree [.dma op] (fun hook => Agree hook ∧
      hook.dma.dmaFds.lookup fd = none) := by
  refine dma_alone fun hook answer hook' next agree executed => ?_
  rw [takes] at executed
  cases executed
  cases held : hook.dma.dmaFds.lookup fd with
  | none =>
      have unknown : hook.dma.takeDmaFd fd = (none, hook.dma) := by rw [DmaRegistry.takeDmaFd, held]
      rw [unknown]
      exact .nil fun after same => same ▸ ⟨agree, held⟩
  | some info =>
      obtain ⟨tracked, -⟩ := (agree fd).tracked held
      have known : (hook.dma.takeDmaFd fd).1 = some info := by rw [DmaRegistry.takeDmaFd, held]
      simp only [known, map_some, tracked, getD_some, if_true]
      refine (remove_alone _ (fdPointer fd)).imp (fun _ same => same) ?_
      rintro after ⟨sameLive, sameOutside⟩
      refine ⟨fun other => ?_, by rw [sameOutside.dma, DmaRegistry.lookup_takeDmaFd, if_pos rfl]⟩
      have before := agree other
      unfold AgreeAt at *
      rw [sameOutside.dma, sameLive, DmaRegistry.lookup_takeDmaFd, find_takeEntry]
      by_cases here : other = fd
      · simp [here]
      · rwa [if_neg here, if_neg fun same => here (fdPointer_inj same)]

/-- A mapping of a descriptor the registry does not know registers it. -/
theorem consult_alone (fd : Fd) (flags : UInt32) :
    (hookCode config env).Triple t Agree [.dma (.consultMapping fd flags)] Agree := by
  refine dma_alone fun hook answer hook' next agree executed => ?_
  cases executed
  unfold DmaRegistry.shouldTrackDmaMapping
  split
  · exact .nil fun after same => same ▸ agree
  split
  · next info held =>
      obtain ⟨tracked, -⟩ := (agree fd).tracked held
      simp only [tracked, if_true]
      exact .nil fun after same => same ▸ agree
  · next unknown =>
      split
      · exact .nil fun after same => same ▸ agree
      · next size isBuf =>
          -- What is registered here is new, and then treated as any registration is.
          have registers : (hookCode config env).exec t hook (.dma (.register fd size)) answer =
              some (_, if (hook.dma.registerDmaFd fd size).1 = some true then
                [.add (fdPointer fd) size .dma, .dma (.markTracked fd)] else []) := rfl
          have fresh : ∀ info, hook.dma.dmaFds.lookup fd = some info → info.size = size := by
            intro info held
            rw [show hook.dma.dmaFds.lookup fd = none from unknown] at held
            cases held
          have triple := (register_alone fd size).rest_of ⟨agree, fresh⟩ registers
          simp only
          split at triple
          · next tracks => simpa only [tracks, if_true] using triple
          · next skips => simpa only [skips, if_false] using triple

/-- A request that registers a descriptor without creating it asks the registry for the size first. -/
theorem recognized_known {registry : DmaRegistry} {ionFd nodeFd : Fd} {request : UInt32}
    {arg : Option IoctlArg}
    {fdinfo : Option Nat} {size : Nat} (registers : canRegisterDmaFd request = true)
    (creates : createsDmaFd request = false) (recognized : (registry.handleIonIoctl ionFd request arg).1.or
      ((registry.handleIonIoctl ionFd request arg).2.handleDmaNode request arg fdinfo) =
      some (nodeFd, size)) :
    ∀ info, (registry.handleIonIoctl ionFd request arg).2.dmaFds.lookup nodeFd = some info →
    info.size = size := by
  have isCamera : request = camMemIonMapPa := by simpa [canRegisterDmaFd, creates] using registers
  subst isCamera
  have noIon : registry.handleIonIoctl ionFd camMemIonMapPa arg = (none, registry) := by
    unfold DmaRegistry.handleIonIoctl
    cases arg <;> rfl
  rw [noIon, none_or] at recognized
  rw [noIon]
  intro info held
  obtain ⟨given, -, isBuf⟩ := bind_eq_some_iff.1
    (show (arg.bind fun given => (registry.isDmaBuf given.fd.toInt32 fdinfo).map fun size =>
      (given.fd.toInt32, size)) = some (nodeFd, size) from recognized)
  obtain ⟨size', isBuf, ⟨⟩⟩ := map_eq_some_iff.1 isBuf
  rw [DmaRegistry.isDmaBuf, DmaRegistry.lookupDmaFd, held] at isBuf
  exact Option.some.inj isBuf

theorem recognize_alone (fd : Fd) (request : UInt32) (arg : Option IoctlArg) {registersFd : Bool}
    (registers : registersFd = true → canRegisterDmaFd request = true) :
    (hookCode config env).Triple t Agree [.dma (.recognize fd request arg registersFd)] Agree := by
  refine dma_alone fun hook answer hook' next agree executed => ?_
  cases executed
  have agree' : ∀ pendingGpu, Agree { hook with
      dma := (hook.dma.handleIonIoctl fd request arg).2, pendingGpu := pendingGpu } := fun _ =>
    agree.of_same ⟨hook.dma.handleIonIoctl_dmaFds fd request arg, fun _ => rfl⟩
  cases recognized : (hook.dma.handleIonIoctl fd request arg).1.or
      ((hook.dma.handleIonIoctl fd request arg).2.handleDmaNode request arg answer.fdinfo) with
  | none => exact .nil fun after same => same ▸ agree' _
  | some node =>
      cases registersFd with
      | false => exact .nil fun after same => same ▸ agree' _
      | true =>
          cases creates : createsDmaFd request with
          | true =>
              -- A new descriptor: whatever generation had its number before goes first.
              refine .cons ((take_alone (.takeOldGeneration node.1) node.1 fun _ _ => rfl).imp
                ?_ fun _ after => after) ?_
              · exact fun middle same => same ▸ agree' _
              · refine (register_alone node.1 node.2).imp
                  (fun middle before => ⟨before.1, ?_⟩) fun _ after => after
                intro info held
                rw [before.2] at held
                cases held
          | false =>
              refine (register_alone node.1 node.2).imp (fun middle same => ?_) fun _ after => after
              subst same
              exact ⟨agree' _, recognized_known (registers rfl) creates recognized⟩

end

/-! ### Whole calls -/

section

variable [DecidableEq τ] {config : Config} {env : Environment (Option τ) ε} {t : Option τ}
  (addresses : env.AnswersAddresses)

include addresses

theorem apart_agree {ops : List (Op (Option τ))} (apart : ∀ op ∈ ops, op.Apart) :
    (hookCode config env).Triple t Agree ops Agree :=
  apart_alone addresses (fun same agree => agree.of_same same) apart

omit addresses in
theorem transaction_agree (registersFd : Bool) {ops : List (Op (Option τ))}
    (agrees : (hookCode config env).Triple t Agree ops Agree) :
    (hookCode config env).Triple t Agree (inFdTransaction registersFd ops) Agree :=
  transaction_alone (fun agree => agree.of_same ⟨rfl, fun _ => rfl⟩)
    (fun agree => agree.of_same ⟨rfl, fun _ => rfl⟩) agrees

theorem mmap_agree (addr : Pointer) (size : Nat) (flags : UInt32) (fd : Fd) :
    (hookCode config env).Triple t Agree (startHooked config (.mmap addr size flags fd)) Agree := by
  refine transaction_agree _ ?_
  refine dma_alone fun hook answer hook' next agree executed => ?_
  cases executed
  have agree' : ∀ pendingGpu, Agree { hook with pendingGpu := pendingGpu } := fun _ =>
    agree.of_same ⟨rfl, fun _ => rfl⟩
  split
  · exact .nil fun after same => same ▸ agree' _
  refine system_alone fun before answer world same answered => ?_
  subst same
  suffices agrees : (hookCode config env).Triple t Agree
      (SystemOp.next config answer (.mmap addr size flags fd (hook.pendingGpu t != 0))) Agree from
    agrees.imp (fun after same => same ▸ agree.of_same ⟨rfl, fun _ => rfl⟩) fun _ after => after
  simp only [SystemOp.next]
  split
  · exact .nil fun _ agree => agree
  by_cases failed : answer.pointer = mapFailed
  · simp only [classifyMmap, failed, if_true]
    exact .nil fun _ agree => agree
  have isAddress : IsAddress answer.pointer := (addresses answered).resolve_right failed
  split
  · exact apart_agree addresses (by simpa [Op.Apart, Op.add] using isAddress)
  · exact apart_agree addresses (by simpa [Op.Apart, Op.add] using isAddress)
  · rw [if_neg failed]
    exact consult_alone fd flags

omit addresses in
theorem ioctl_agree (fd : Fd) (request : UInt32) :
    (hookCode config env).Triple t Agree (startHooked config (.ioctl fd request)) Agree := by
  refine transaction_agree _ ?_
  refine system_alone fun hook answer world agree answered => ?_
  have agree' : Agree { hook with world := world } := agree.of_same ⟨rfl, fun _ => rfl⟩
  simp only [SystemOp.next]
  split
  · exact (recognize_alone fd request answer.arg fun registers => registers).imp
      (fun after same => same ▸ agree') fun _ after => after
  · exact .nil fun after same => same ▸ agree'

/-- What `close` does once the descriptor is gone. -/
theorem closed_agree (fd : Fd) :
    (hookCode config env).Triple t Agree [.dma (.takeClosed fd), .dma (.dropIonAllocations fd)]
      (fun hook => Agree hook ∧ hook.dma.dmaFds.lookup fd = none) :=
  .cons (take_alone (.takeClosed fd) fd fun _ _ => rfl)
    (apart_alone addresses
      (fun same before => ⟨before.1.of_same same, same.registered ▸ before.2⟩) (by simp [Op.Apart]))

theorem close_agree (fd : Fd) :
    (hookCode config env).Triple t Agree (startHooked config (.close fd)) Agree := by
  have closes : (hookCode config env).Triple t Agree [.system (.close fd)] Agree := by
    refine system_alone fun hook answer world agree answered => ?_
    have agree' : Agree { hook with world := world } := agree.of_same ⟨rfl, fun _ => rfl⟩
    simp only [SystemOp.next]
    split
    · exact (closed_agree addresses fd).imp (fun after same => same ▸ agree') fun _ after => after.1
    · exact .nil fun after same => same ▸ agree'
  simp only [startHooked]
  split
  · exact transaction_agree true closes
  · exact closes

/-- Every call keeps the agreement. -/
theorem call_agree {request : Request (Option τ)} (uses : UsesAddresses request) :
    (hookCode config env).Triple t Agree (startHooked config request) Agree := by
  cases request
  case mmap addr size flags fd => exact mmap_agree addresses addr size flags fd
  case ioctl fd request => exact ioctl_agree fd request
  case close fd => exact close_agree addresses fd
  all_goals refine apart_agree addresses ?_
  case free pointer =>
    simp only [startHooked, startFree]
    split
    · simp
    · next notNull =>
        have isAddress := uses.resolve_left notNull
        split <;> simp [Op.Apart, isAddress]
  case realloc pointer bytes =>
    simp only [startHooked, startRealloc, startAlloc, startFree]
    split
    · split <;> simp [Op.Apart]
    · next notNull =>
        have isAddress := uses.resolve_left notNull
        repeat' split
        all_goals simp [Op.Apart, isAddress]
  case munmap addr size =>
    have isAddress : IsAddress addr := uses
    simp only [startHooked]
    split <;> simp [Op.Apart, isAddress]
  case mremap oldAddr oldSize newSize flags newAddr =>
    have isAddress : IsAddress oldAddr := uses
    simp only [startHooked]
    split <;> simp [Op.Apart, isAddress]
  all_goals
    simp only [startHooked, startAlloc]
    repeat' split
    all_goals simp [Op.Apart]

/-- A `close` that did not report `EBADF` leaves no trace of the descriptor. -/
theorem close_forgets (tracking : config.trackPointers = true) {hook hook' : Hook (Option τ) ε}
    {fd : Fd} {answers : List Answer} {closed : Answer} (agree : Agree hook)
    (stepped : (serialHook config env).step hook ⟨t, .close fd, answers⟩ = some hook')
    (answered : answers[1]? = some closed) (notBad : closed.status = 0 ∨ closed.badFd = false) :
    hook'.dma.dmaFds.lookup fd = none ∧ hook'.live.find (fdPointer fd) = none := by
  obtain ⟨ops, started, finished⟩ := bind_eq_some_iff.1 stepped
  obtain rfl := startHooked_of_startCall started
  simp only [startHooked, tracking, inFdTransaction, if_true] at finished
  -- The second operation of the call is the system call, and its answer the second one.
  obtain ⟨lock, rest, middle, next, rfl, locked, finished⟩ := Code.finish_cons finished
  have locked : hook.execDma t lock .lockFds = some (middle, next) := locked
  simp only [Hook.execDma] at locked
  split at locked
  · cases locked
  cases locked
  obtain ⟨answer, rest, middle, next, rfl, closes, finished⟩ := Code.finish_cons finished
  obtain rfl : answer = closed := Option.some.inj answered
  obtain ⟨world, -, ⟨⟩⟩ := map_eq_some_iff.1 closes
  have goes : (config.trackPointers && (answer.status == 0 || !answer.badFd)) = true := by
    rcases notBad with ok | other <;> simp [*]
  simp only [SystemOp.next, goes, if_true] at finished
  have forgets : (hookCode config env).Triple t Agree
      ([.dma (.takeClosed fd), .dma (.dropIonAllocations fd)] ++ [.dma .unlockFds])
      (fun hook => Agree hook ∧ hook.dma.dmaFds.lookup fd = none) :=
    .append (closed_agree addresses fd) (apart_alone addresses
      (fun same before => ⟨before.1.of_same same, same.registered ▸ before.2⟩) (by simp [Op.Apart]))
  have before : Agree { hook with fdOwner := some t, world := world } := agree.of_same ⟨rfl, fun _ => rfl⟩
  obtain ⟨after, gone⟩ := forgets _ _ _ before finished
  exact ⟨gone, (after fd).absent_iff.1 gone⟩

end

section

variable [DecidableEq τ] {config : Config} {env : Environment (Option τ) ε}

/-- In every state that calls reach which do not mistake a descriptor for an address, the registry has a
descriptor as accounted exactly when the table has a DMA record for it, of the same size; after a `close`
that did not report `EBADF` neither has it. -/
theorem descriptors_agree (tracking : config.trackPointers = true) (addresses : env.AnswersAddresses)
    {hook : Hook (Option τ) ε}
    (reached : (serialHook config env).ReachableBy (fun _ call => UsesAddresses call.request) hook) :
    (∀ fd,
      ((∃ info, hook.dma.dmaFds.lookup fd = some info ∧ info.tracked = true) ↔
        ∃ record, hook.live.find (fdPointer fd) = some record ∧ record.memType = .dma) ∧
      (∀ info record, hook.dma.dmaFds.lookup fd = some info →
        hook.live.find (fdPointer fd) = some record → info.size = record.size) ∧
      ∀ info, hook.dma.dmaFds.lookup fd = some info → info.tracked = true) ∧
    ∀ t fd answers hook', (serialHook config env).step hook ⟨t, .close fd, answers⟩ = some hook' →
      ∀ closed, answers[1]? = some closed → (closed.status = 0 ∨ closed.badFd = false) →
        hook'.dma.dmaFds.lookup fd = none ∧ hook'.live.find (fdPointer fd) = none := by
  have agree : Agree hook := by
    refine Code.serial_invariant (P := Agree) ?_ ?_ reached
    · exact fun fd => rfl
    intro before call ops uses started
    obtain rfl := startHooked_of_startCall started
    exact (call_agree addresses uses).imp (fun hook same => same.1 ▸ same.2) fun _ after => after
  refine ⟨fun fd => ⟨⟨?_, ?_⟩, ?_, fun info held => ((agree fd).tracked held).1⟩, ?_⟩
  · rintro ⟨info, held, -⟩
    obtain ⟨-, record, found, isDma, -⟩ := (agree fd).tracked held
    exact ⟨record, found, isDma⟩
  · rintro ⟨record, found, -⟩
    cases held : hook.dma.dmaFds.lookup fd with
    | none =>
        rw [(agree fd).absent_iff.1 held] at found
        cases found
    | some info => exact ⟨info, rfl, ((agree fd).tracked held).1⟩
  · intro info record held found
    obtain ⟨-, record', found', -, sameSize⟩ := (agree fd).tracked held
    rw [found] at found'
    cases found'
    exact sameSize.symm
  · intro t fd answers hook' stepped closed answered notBad
    exact close_forgets addresses tracking agree stepped answered notBad

end

/-- An environment that gives any answer except the number of a descriptor. -/
def addressesOnly (θ : Type*) : Environment θ Unit where
  initial := ()
  answer _ _ op answer :=
    match op with
    | .mmap .. => if IsAddress answer.pointer ∨ answer.pointer = mapFailed then some () else none
    | .mremap .. =>
        if IsAddress answer.pointer ∨ mappingSucceeded answer.pointer = false then some () else none
    | _ => if IsAddress answer.pointer ∨ answer.pointer = 0 then some () else none

theorem addressesOnly_answersAddresses (θ : Type*) : (addressesOnly θ).AnswersAddresses := by
  intro world t op answer world' answered
  cases op <;> exact (ite_none_right_eq_some.1 answered).1

/-- Descriptor 7 is allocated, closed, and its number reused for a larger buffer; descriptor 9 becomes
known when it is mapped, and a `close` of it fails. -/
def reusedNumberCalls : List (HookCall Worker) :=
  [⟨some .one, .ioctl 3 dmaHeapIoctlAlloc,
      [{}, { arg := some ⟨4096, 7, 0⟩ }, {}, {}, {}, {}, {}, {}, {}, {}]⟩,
    ⟨some .two, .mmap 0 8192 mapShared 9,
      [{}, {}, { pointer := 0x7f0000000000 }, { fdinfo := some 8192 }, {}, {}, {}, {}, {}]⟩,
    ⟨some .two, .close 7, [{}, {}, {}, {}, {}, {}, {}]⟩,
    ⟨some .one, .close 9, [{}, { status := -1, badFd := true }, {}]⟩,
    ⟨some .two, .ioctl 3 dmaHeapIoctlAlloc,
      [{}, { arg := some ⟨12288, 7, 0⟩ }, {}, {}, {}, {}, {}, {}, {}, {}]⟩]

theorem descriptors_agree_reusedNumber :
    ∃ hook, (serialHook trackingConfig (addressesOnly _)).run
        (serialHook trackingConfig (addressesOnly _)).init reusedNumberCalls = some hook ∧
      hook.dma.dmaFds.lookup 7 = some ⟨12288, true⟩ ∧ hook.dma.dmaFds.lookup 9 = some ⟨8192, true⟩ ∧
      ∃ record, hook.live.find (fdPointer 7) = some record ∧ record.memType = .dma ∧
        record.size = 12288 := by
  obtain ⟨hook, ran, seven, nine⟩ : ∃ hook ∈ (serialHook trackingConfig (addressesOnly _)).run
      (serialHook trackingConfig (addressesOnly _)).init reusedNumberCalls,
      hook.dma.dmaFds.lookup 7 = some ⟨12288, true⟩ ∧
        hook.dma.dmaFds.lookup 9 = some ⟨8192, true⟩ := by decide +kernel
  have respects : (serialHook trackingConfig (addressesOnly _)).Respects
      (fun _ call => UsesAddresses call.request)
      (serialHook trackingConfig (addressesOnly _)).init reusedNumberCalls := by decide +kernel
  obtain ⟨known, sizes, -⟩ := (descriptors_agree (by decide +kernel)
    (addressesOnly_answersAddresses _) (.of_run .init respects ran)).1 7
  obtain ⟨record, found, isDma⟩ := known.1 ⟨_, seven, rfl⟩
  exact ⟨hook, ran, seven, nine, record, found, isDma, (sizes _ record seven found).symm⟩

end MallocHook
