/-
Module: MallocHook.Proofs.HeapMirror
Purpose: What the custody protocol gives for the hooked calls: the table shows exactly the live blocks,
  and the mappings too unless somebody registers an address whose stale record still waits for its
  `Remap`.
Trusted boundary: none
Main exports: table_mirrors_heap, mappings_mirrored, remap_takes_foreign_record
-/
import MallocHook.Proofs.TableMirror

namespace MallocHook

open Option LiveTable

variable {τ : Type*} {config : Config} {pool : PlatformPool τ}

/-- Once all calls have returned, the table shows exactly the regions there are. -/
theorem Mirrored.quiescent {moving : Prop} (mirrored : Mirrored moving pool)
    (quiescent : pool.Quiescent) (pointer : Pointer) :
    (pool.shared.live.find pointer).map PointerInfo.seen = (pool.shared.world pointer).map Region.seen :=
  mirrored.coherent.mirror (fun t => by
    change heldBy (pool.todo t) = .idle
    rw [quiescent t, heldBy]) pointer

/-- The entries of one type that the table lists, and the regions of that type. -/
theorem Mirrored.entry_iff_region {moving : Prop} (mirrored : Mirrored moving pool)
    (quiescent : pool.Quiescent) (pointer : Pointer) (size : Nat) (type : MemType) :
    (∃ info, (manglePointer pointer, info) ∈ pool.shared.live.entries ∧ info.memType = type ∧
        info.size = size) ↔
      ∃ owner, pool.shared.world pointer = some ⟨size, type, owner⟩ := by
  have same := mirrored.quiescent quiescent pointer
  constructor
  · rintro ⟨info, listed, rfl, rfl⟩
    rw [mem_entries_iff_find.1 listed, map_some] at same
    obtain ⟨region, here, seen⟩ := map_eq_some_iff.1 same.symm
    obtain ⟨sameSize, sameType⟩ := Prod.mk.inj seen
    exact ⟨region.owner, by rw [here, ← sameSize, ← sameType]⟩
  · rintro ⟨owner, here⟩
    rw [here, map_some] at same
    obtain ⟨info, found, seen⟩ := map_eq_some_iff.1 same
    obtain ⟨sameSize, sameType⟩ := Prod.mk.inj seen
    exact ⟨info, mem_entries_iff_find.2 found, sameType, sameSize⟩

/-! ### The heap -/

/-- Without moves no address is ever vacated. -/
theorem Mirrored.vacated_ne (mirrored : Mirrored False pool) {t : Option τ} {op : Op (Option τ)}
    (member : op ∈ pool.todo t) (pointer : Pointer) : op.vacated ≠ some pointer := by
  intro vacated
  have ready := mirrored.ready t op member
  unfold Op.vacated at vacated
  split at vacated
  · exact ready.1
  · cases vacated

theorem Mirrored.registersClear (mirrored : Mirrored False pool) (event : HookEvent τ) :
    RegistersClear pool event := by
  cases event with
  | call t request => trivial
  | exec t answer => exact fun pointer _ u _ op member => mirrored.vacated_ne member pointer

variable [DecidableEq τ]

theorem mirrored_of_nothingMoves (tracking : config.trackPointers = true)
    (reached : (onPlatform config).ReachableBy
      (fun pool event => OwnCalls pool event ∧ NothingMoves event) pool) : Mirrored False pool :=
  reached.invariant mirrored_init fun mirrored allowed stepped =>
    (mirrored_step tracking mirrored allowed.1 (fun _ => allowed.2) (mirrored.registersClear _) stepped).1

/-- Heap calls, anonymous `mmap` and whole `munmap` calls of any threads on what they own, interleaved in
any way. When all have returned, the `HOST` entries are exactly the live blocks. No step of a thread
changes the record of a block that another thread owns. -/
theorem table_mirrors_heap (tracking : config.trackPointers = true)
    (reached : (onPlatform config).ReachableBy
      (fun pool event => OwnCalls pool event ∧ NothingMoves event) pool) :
    (pool.Quiescent → (pool.shared.live.entries.map Prod.fst).Nodup ∧ ∀ pointer size,
      (∃ info, (manglePointer pointer, info) ∈ pool.shared.live.entries ∧ info.memType = .host ∧
          info.size = size) ↔
        ∃ owner, pool.shared.world pointer = some ⟨size, .host, owner⟩) ∧
      ∀ event pool', OwnCalls pool event → NothingMoves event →
        (onPlatform config).step pool event = some pool' →
        ∀ pointer region info, pool.shared.world pointer = some region →
          region.owner ≠ event.thread → pool.shared.live.find pointer = some info →
            pool'.shared.live.find pointer = some info := by
  have mirrored := mirrored_of_nothingMoves tracking reached
  refine ⟨fun quiescent => ⟨pool.shared.live.nodup_keys, fun pointer size =>
    mirrored.entry_iff_region quiescent pointer size .host⟩, ?_⟩
  intro event pool' own stays stepped pointer region info here foreign found
  have moves := (mirrored_step tracking mirrored own (fun _ => stays)
    (mirrored.registersClear event) stepped).2
  have owned : (custody pool).owner pointer = some region.owner := by
    simp [custody, custodyOf, here]
  -- Its owner has recorded it: otherwise no record would stand there.
  have unstale : ∀ u, ((custody pool).hold u).source ≠ some pointer := by
    intro u stale
    obtain ⟨op, member, vacated⟩ := vacated_of_source stale
    exact mirrored.vacated_ne member pointer vacated
  have settled : ((custody pool).hold region.owner).target ≠ some pointer := by
    intro target
    have absent := mirrored.coherent.absent pointer unstale (fun u isOwner => by
      rw [owned] at isOwner
      cases isOwner
      exact target)
    rw [show pool.shared.live.find pointer = none from absent] at found
    cases found
  rcases moves with moved | same
  · exact (mirrored.coherent.untouched moved foreign owned settled).trans found
  · exact (congrFun (congrArg Custody.State.table same) pointer).trans found

/-- While one thread is about to record the block `realloc` moved, another is given the old address. -/
def reusedDuringReallocRun : List (HookEvent Worker) :=
  [.call (some .one) (.malloc 100), .exec (some .one) { pointer := 0x1000 }, .exec (some .one) {},
    .exec (some .one) {}, .exec (some .one) {}, .call (some .one) (.realloc 0x1000 200),
    .exec (some .one) {}, .exec (some .one) { pointer := 0x2000 }, .call (some .two) (.malloc 50),
    .exec (some .two) { pointer := 0x1000 }, .exec (some .two) {}, .exec (some .two) {},
    .exec (some .one) {}, .exec (some .one) {}, .exec (some .one) {}, .exec (some .one) {}]

theorem table_mirrors_heap_reusedDuringRealloc :
    ∃ pool, (onPlatform trackingConfig).run (onPlatform trackingConfig).init reusedDuringReallocRun =
        some pool ∧ pool.Quiescent ∧
      (∃ info, (manglePointer 0x1000, info) ∈ pool.shared.live.entries ∧ info.memType = .host ∧
        info.size = 50) ∧
      ∃ info, (manglePointer 0x2000, info) ∈ pool.shared.live.entries ∧ info.memType = .host ∧
        info.size = 200 := by
  obtain ⟨pool, ran, idle, reused, moved⟩ : ∃ pool ∈ (onPlatform trackingConfig).run
      (onPlatform trackingConfig).init reusedDuringReallocRun, (∀ t, pool.todo t = []) ∧
        pool.shared.world 0x1000 = some ⟨50, .host, some .two⟩ ∧
        pool.shared.world 0x2000 = some ⟨200, .host, some .one⟩ := by decide +kernel
  have respects : (onPlatform trackingConfig).Respects
      (fun pool event => OwnCalls pool event ∧ NothingMoves event) (onPlatform trackingConfig).init
      reusedDuringReallocRun := by decide +kernel
  have mirrors := ((table_mirrors_heap (by decide) (.of_run .init respects ran)).1 idle).2
  exact ⟨pool, ran, idle, (mirrors _ _).2 ⟨_, reused⟩, (mirrors _ _).2 ⟨_, moved⟩⟩

/-! ### Mappings that move -/

/-- The same with whole `mremap` calls, when nobody enters a record where a mapping was moved away and its
record has not followed. When all calls have returned, the `MMAP` entries are exactly the live mappings.
-/
theorem mappings_mirrored (tracking : config.trackPointers = true)
    (reached : (onPlatform config).ReachableBy
      (fun pool event => OwnCalls pool event ∧ RegistersClear pool event) pool)
    (quiescent : pool.Quiescent) :
    (pool.shared.live.entries.map Prod.fst).Nodup ∧ ∀ pointer size,
      (∃ info, (manglePointer pointer, info) ∈ pool.shared.live.entries ∧ info.memType = .mmap ∧
          info.size = size) ↔
        ∃ owner, pool.shared.world pointer = some ⟨size, .mmap, owner⟩ := by
  have mirrored : Mirrored True pool :=
    reached.invariant mirrored_init fun mirrored allowed stepped =>
      (mirrored_step tracking mirrored allowed.1 (fun fixed => absurd trivial fixed) allowed.2 stepped).1
  exact ⟨pool.shared.live.nodup_keys, fun pointer size =>
    mirrored.entry_iff_region quiescent pointer size .mmap⟩

/-- A thread maps `size` bytes privately, at an address that the kernel picks. -/
def mapAt (t : Option Worker) (addr : Pointer) (size : Nat) : List (HookEvent Worker) :=
  [.call t (.mmap 0 size (0x2 ||| mapAnonymous) (-1)), .exec t {}, .exec t { pointer := addr }, .exec t {},
    .exec t {}]

/-- One thread's `mremap` has moved its mapping; before its `Remap`, another thread registers the vacated
address. -/
def vacatedRegisteredRun : List (HookEvent Worker) :=
  mapAt (some .one) 0x10000 4096 ++ [.exec (some .one) {}] ++
    [.call (some .one) (.mremap 0x10000 4096 8192 1 0), .exec (some .one) { pointer := 0x20000 }] ++
    mapAt (some .two) 0x10000 4096 ++ [.exec (some .one) {}, .exec (some .one) {}]

/-- The `Remap` then moves the other thread's record: its mapping is live without one. -/
theorem remap_takes_foreign_record :
    ∃ pool, (onPlatform trackingConfig).Respects OwnCalls (onPlatform trackingConfig).init
        vacatedRegisteredRun ∧
      (onPlatform trackingConfig).run (onPlatform trackingConfig).init vacatedRegisteredRun =
        some pool ∧ pool.Quiescent ∧
      pool.shared.world 0x10000 = some ⟨4096, .mmap, some .two⟩ ∧
      ¬ ∃ info, (manglePointer 0x10000, info) ∈ pool.shared.live.entries := by
  obtain ⟨pool, ran, idle, mapped, missing⟩ : ∃ pool ∈ (onPlatform trackingConfig).run
      (onPlatform trackingConfig).init vacatedRegisteredRun, (∀ t, pool.todo t = []) ∧
        pool.shared.world 0x10000 = some ⟨4096, .mmap, some .two⟩ ∧
        pool.shared.live.find 0x10000 = none := by decide +kernel
  refine ⟨pool, by decide +kernel, ran, idle, mapped, ?_⟩
  rintro ⟨info, listed⟩
  rw [mem_entries_iff_find, missing] at listed
  cases listed

/-- The same calls, with the `Remap` before the vacated address is registered. -/
def remappedFirstRun : List (HookEvent Worker) :=
  mapAt (some .one) 0x10000 4096 ++ [.exec (some .one) {}] ++
    [.call (some .one) (.mremap 0x10000 4096 8192 1 0), .exec (some .one) { pointer := 0x20000 },
      .exec (some .one) {}, .exec (some .one) {}] ++
    mapAt (some .two) 0x10000 4096 ++ [.exec (some .two) {}]

theorem mappings_mirrored_remappedFirst :
    ∃ pool, (onPlatform trackingConfig).run (onPlatform trackingConfig).init remappedFirstRun =
        some pool ∧ pool.Quiescent ∧
      (∃ info, (manglePointer 0x10000, info) ∈ pool.shared.live.entries ∧ info.memType = .mmap ∧
        info.size = 4096) ∧
      ∃ info, (manglePointer 0x20000, info) ∈ pool.shared.live.entries ∧ info.memType = .mmap ∧
        info.size = 8192 := by
  obtain ⟨pool, ran, idle, mapped, moved⟩ : ∃ pool ∈ (onPlatform trackingConfig).run
      (onPlatform trackingConfig).init
      remappedFirstRun, (∀ t, pool.todo t = []) ∧ pool.shared.world 0x10000 = some ⟨4096, .mmap, some .two⟩ ∧
        pool.shared.world 0x20000 = some ⟨8192, .mmap, some .one⟩ := by decide +kernel
  have respects : (onPlatform trackingConfig).Respects
      (fun pool event => OwnCalls pool event ∧ RegistersClear pool event)
      (onPlatform trackingConfig).init remappedFirstRun := by decide +kernel
  have mirrors := (mappings_mirrored (by decide) (.of_run .init respects ran) idle).2
  exact ⟨pool, ran, idle, (mirrors _ _).2 ⟨_, mapped⟩, (mirrors _ _).2 ⟨_, moved⟩⟩

end MallocHook
