/-
Module: MallocHook.Proofs.InodeDedup
Purpose: The inode set tells first occurrences from repetitions for as long as it may still fill a slot;
  once it is full, an inode that is in it is taken for a new one.
Trusted boundary: none
Main exports: Tracks, exact_dedup_iff, repeated_inode_at_capacity
-/
import MallocHook.Core.DmaInodeSet

namespace MallocHook

open List

/-! ### Passes -/

/-- What the sampler does to the set. -/
inductive SetCall where
  | reset
  | insert (inode : UInt64)
deriving Repr, DecidableEq

def SetCall.run (set : DmaInodeSet) : SetCall → DmaInodeSet
  | .reset => resetDmaInodeSet set
  | .insert inode => (insertInode set inode).2

/-- The set after a pass has inserted some inodes. -/
def insertAll (set : DmaInodeSet) (calls : List UInt64) : DmaInodeSet :=
  calls.foldl (fun set inode => (insertInode set inode).2) set

/-- The inodes for which a pass is told that they are new, and so whose buffers it counts. -/
def charged (set : DmaInodeSet) : List UInt64 → List UInt64
  | [] => []
  | inode :: calls =>
      if (insertInode set inode).1 then inode :: charged (insertInode set inode).2 calls
      else charged (insertInode set inode).2 calls

/-- A pass dedups exactly. -/
structure ExactDedup (set : DmaInodeSet) (calls : List UInt64) : Prop where
  /-- The answer is `true` on first occurrences only. -/
  first : ∀ before inode after, calls = before ++ inode :: after →
    ((insertInode (insertAll set before) inode).1 = true ↔ inode ∉ before)
  /-- The probing ends, and passes by no empty slot before that. -/
  probes : ∀ before inode after, calls = before ++ inode :: after →
    ∃ steps, ProbeTable.search (insertAll set before).occupant (DmaInodeSet.home inode) inode = some steps ∧
      ∀ earlier < steps,
        (insertAll set before).occupant (ProbeTable.probe (DmaInodeSet.home inode) earlier) ≠ none
  calm : ∀ before after, calls = before ++ after → (insertAll set before).overflowed = false
  counted : ∀ before after, calls = before ++ after → (insertAll set before).count = before.toFinset.card
  once : ∀ inode ∈ calls, (charged set calls).count inode = 1

/-- No call comes after the pass has seen as many inodes as the table takes. -/
def WithinCapacity (calls : List UInt64) : Prop :=
  ∀ before inode after, calls = before ++ inode :: after → before.toFinset.card < kMaxDedupedBuffers

variable {calls : List UInt64}

theorem WithinCapacity.of_length (short : calls.length ≤ kMaxDedupedBuffers) : WithinCapacity calls := by
  intro before inode after split
  apply Nat.lt_of_le_of_lt before.toFinset_card_le
  rw [split, length_append, length_cons] at short
  omega

theorem WithinCapacity.left {before after : List UInt64} (within : WithinCapacity (before ++ after)) :
    WithinCapacity before := by
  intro first inode rest split
  apply within first inode (rest ++ after)
  rw [split, append_assoc, cons_append]

/-! ### A pass starts from an empty table -/

/-- No slot bears the stamp of a generation to come. -/
def StampsPast (set : DmaInodeSet) : Prop :=
  ∀ slot, set.stamp slot ≤ set.generation

variable {set : DmaInodeSet}

theorem StampsPast.insert (past : StampsPast set) (inode : UInt64) :
    StampsPast (insertInode set inode).2 := by
  obtain overflows | same | ⟨slot, fills⟩ := insertInode_after set inode
  · rw [overflows]
    exact past
  · rw [same]
    exact past
  · rw [fills]
    intro other
    by_cases here : other = slot
    · simp [DmaInodeSet.fill, here]
    · simpa [DmaInodeSet.fill, here] using past other

theorem StampsPast.reset (past : StampsPast set) :
    StampsPast (resetDmaInodeSet set) ∧ (resetDmaInodeSet set).occupant = fun _ => none := by
  unfold resetDmaInodeSet
  split
  · constructor
    · intro slot
      exact UInt32.zero_le
    · funext slot
      exact if_neg (by decide : (0 : UInt32) ≠ 1)
  · next wraps =>
      -- The next generation is above every stamp, as it is not the one that wraps to zero.
      have later : ∀ slot, set.stamp slot < set.generation + 1 := by
        intro slot
        have bound := past slot
        have room : set.generation.toNat + 1 < UInt32.size := by
          by_contra full
          apply wraps
          apply UInt32.toNat.inj
          have below := set.generation.toNat_lt
          rw [UInt32.toNat_add, UInt32.toNat_one, UInt32.toNat_zero]
          simp only [UInt32.size] at full
          omega
        rw [UInt32.lt_iff_toNat_lt, UInt32.toNat_add, UInt32.toNat_one, Nat.mod_eq_of_lt room]
        exact Nat.lt_succ_of_le (UInt32.le_iff_toNat_le.1 bound)
      constructor
      · intro slot
        exact UInt32.le_of_lt (later slot)
      · funext slot
        exact if_neg (UInt32.ne_of_lt (later slot))

theorem stampsPast_run (history : List SetCall) : StampsPast (history.foldl SetCall.run .zero) := by
  induction history using List.reverseRecOn with
  | nil =>
      intro slot
      exact UInt32.le_refl 0
  | append_singleton history call ih =>
      rw [foldl_append]
      cases call with
      | reset => exact ih.reset.1
      | insert inode => exact ih.insert inode

/-! ### The table holds what the pass has seen -/

/-- The set after a pass that dedups exactly has seen some inodes. -/
structure Tracks (set : DmaInodeSet) (seen : List UInt64) : Prop where
  chained : ProbeTable.Chained DmaInodeSet.home set.occupant
  stored : ∀ inode, (∃ slot, set.occupant slot = some inode) ↔ inode ∈ seen
  full : (ProbeTable.taken set.occupant).card = set.count
  counted : set.count = seen.toFinset.card
  calm : set.overflowed = false

theorem Tracks.reset (past : StampsPast set) : Tracks (resetDmaInodeSet set) [] := by
  have fresh : (resetDmaInodeSet set).count = 0 ∧ (resetDmaInodeSet set).overflowed = false := by
    unfold resetDmaInodeSet
    split <;> exact ⟨rfl, rfl⟩
  have empty := past.reset.2
  constructor
  · rw [empty]
    exact ProbeTable.Chained.empty DmaInodeSet.home
  · simp [empty]
  · simp [empty, ProbeTable.taken, fresh.1]
  · exact fresh.1
  · exact fresh.2

section

variable {set : DmaInodeSet} {seen : List UInt64} {inode : UInt64} (tracks : Tracks set seen)
include tracks

/-- An inode that the pass has seen is found. -/
theorem Tracks.insert_known (room : seen.toFinset.card < kMaxDedupedBuffers) (known : inode ∈ seen) :
    insertInode set inode = (false, set) ∧
      (∃ steps, ProbeTable.search set.occupant (DmaInodeSet.home inode) inode = some steps) ∧
      Tracks set (seen ++ [inode]) := by
  obtain ⟨slot, holds⟩ := (tracks.stored inode).2 known
  obtain ⟨steps, ends, found⟩ := ProbeTable.search_stored tracks.chained holds
  have same : ∀ other, other ∈ seen ++ [inode] ↔ other ∈ seen := by
    intro other
    rw [mem_append, mem_singleton, or_iff_left_iff_imp]
    rintro rfl
    exact known
  refine ⟨insertInode_found (tracks.counted ▸ room) ends found, ⟨steps, ends⟩, ?_⟩
  constructor
  · exact tracks.chained
  · intro other
    rw [same]
    exact tracks.stored other
  · exact tracks.full
  · have unchanged : (seen ++ [inode]).toFinset = seen.toFinset := by
      ext other
      rw [mem_toFinset, mem_toFinset, same]
    rw [unchanged]
    exact tracks.counted
  · exact tracks.calm

/-- Filling the empty slot at which the probing for a new inode ended. -/
theorem Tracks.fill (unseen : inode ∉ seen) {steps : Nat}
    (ends : ProbeTable.search set.occupant (DmaInodeSet.home inode) inode = some steps)
    (empty : set.occupant (ProbeTable.probe (DmaInodeSet.home inode) steps) = none) :
    Tracks (set.fill (ProbeTable.probe (DmaInodeSet.home inode) steps) inode) (seen ++ [inode]) := by
  constructor
  · rw [DmaInodeSet.occupant_fill]
    exact tracks.chained.insert ends empty
  · intro other
    rw [DmaInodeSet.occupant_fill, ProbeTable.exists_stored_insert empty, tracks.stored,
      mem_append, mem_singleton]
  · rw [DmaInodeSet.occupant_fill, ProbeTable.card_taken_insert empty, tracks.full]
    rfl
  · have fresh : inode ∉ seen.toFinset := by rwa [mem_toFinset]
    have grown : (seen ++ [inode]).toFinset = Insert.insert inode seen.toFinset := by
      ext other
      simp
    rw [grown, Finset.card_insert_of_notMem fresh, ← tracks.counted]
    rfl
  · exact tracks.calm

/-- The probing for a new inode ends at an empty slot, as long as the table has one. -/
theorem Tracks.search_new (room : seen.toFinset.card < kMaxDedupedBuffers) (unseen : inode ∉ seen) :
    ∃ steps, ProbeTable.search set.occupant (DmaInodeSet.home inode) inode = some steps ∧
      set.occupant (ProbeTable.probe (DmaInodeSet.home inode) steps) = none := by
  have absent : ∀ slot, set.occupant slot ≠ some inode := by
    intro slot holds
    exact unseen ((tracks.stored inode).1 ⟨slot, holds⟩)
  have capacity : kMaxDedupedBuffers ≤ kSlots := by decide
  have roomy : (ProbeTable.taken set.occupant).card < kSlots := by
    rw [tracks.full, tracks.counted]
    exact Nat.lt_of_lt_of_le room capacity
  obtain ⟨free, vacant⟩ := ProbeTable.exists_vacant roomy
  exact ProbeTable.search_absent (DmaInodeSet.home inode) absent vacant

/-- One insertion: the answer, the end of the probing, and the set after it. -/
theorem Tracks.insert (room : seen.toFinset.card < kMaxDedupedBuffers) (inode : UInt64) :
    ((insertInode set inode).1 = true ↔ inode ∉ seen) ∧
      (∃ steps, ProbeTable.search set.occupant (DmaInodeSet.home inode) inode = some steps) ∧
      Tracks (insertInode set inode).2 (seen ++ [inode]) := by
  by_cases known : inode ∈ seen
  · obtain ⟨inserted, ends, next⟩ := tracks.insert_known room known
    rw [inserted]
    exact ⟨by simpa using known, ends, next⟩
  · obtain ⟨steps, ends, empty⟩ := tracks.search_new room known
    rw [insertInode_vacant (tracks.counted ▸ room) ends empty]
    exact ⟨by simpa using known, ⟨steps, ends⟩, tracks.fill known ends empty⟩

end

/-- A whole pass. -/
theorem Tracks.insertAll (start : Tracks set []) (within : WithinCapacity calls) :
    Tracks (insertAll set calls) calls := by
  induction calls using List.reverseRecOn with
  | nil => exact start
  | append_singleton before inode ih =>
      rw [MallocHook.insertAll, foldl_append]
      exact ((ih within.left).insert (within before inode [] rfl) inode).2.2

/-- Each inode that the pass had not seen is charged once, the others are not. -/
theorem Tracks.count_charged {seen : List UInt64} (tracks : Tracks set seen)
    (room : ∀ before inode after, calls = before ++ inode :: after →
      (seen ++ before).toFinset.card < kMaxDedupedBuffers) (inode : UInt64) :
    (charged set calls).count inode = if inode ∈ calls ∧ inode ∉ seen then 1 else 0 := by
  induction calls generalizing set seen with
  | nil => simp [charged]
  | cons call calls ih =>
      obtain ⟨answer, -, next⟩ := tracks.insert (by simpa using room [] call calls rfl) call
      have rest := ih next (by
        intro before other after split
        simpa using room (call :: before) other after (by rw [split, cons_append]))
      unfold charged
      by_cases known : call ∈ seen
      · rw [if_neg (by rw [answer]; exact not_not_intro known), rest]
        by_cases here : inode = call
        · subst here
          simp [known]
        · simp [here]
      · rw [if_pos (answer.2 known), count_cons, rest]
        by_cases here : inode = call
        · subst here
          simp [known]
        · simp [here, Ne.symm here]

/-! ### Exactness -/

theorem Tracks.exactDedup (start : Tracks set []) (within : WithinCapacity calls) :
    ExactDedup set calls := by
  have before : ∀ {first rest}, calls = first ++ rest → Tracks (MallocHook.insertAll set first) first := by
    rintro first rest rfl
    exact start.insertAll within.left
  constructor
  · intro first inode rest split
    exact ((before split).insert (within first inode rest split) inode).1
  · intro first inode rest split
    obtain ⟨-, ⟨steps, ends⟩, -⟩ := (before split).insert (within first inode rest split) inode
    refine ⟨steps, ends, fun earlier sooner => ?_⟩
    obtain ⟨other, holds, -⟩ := (ProbeTable.search_eq_some.1 ends).2.2 earlier sooner
    rw [holds]
    exact Option.some_ne_none other
  · intro first rest split
    exact (before split).calm
  · intro first rest split
    exact (before split).counted
  · intro inode member
    have counts := start.count_charged within inode
    rwa [if_pos ⟨member, not_mem_nil⟩] at counts

/-- At capacity, an inode of the table is taken for a new one. -/
theorem Tracks.repeated {seen : List UInt64} (tracks : Tracks set seen)
    (full : kMaxDedupedBuffers ≤ seen.toFinset.card) (inode : UInt64) :
    insertInode set inode = (true, set.overflow) := by
  apply insertInode_full
  rw [tracks.counted]
  exact full

/-- After any resets and insertions and one more reset, a pass over at most as many distinct inodes as the
table takes dedups exactly if and only if none of its calls comes after it has seen that many. -/
theorem exact_dedup_iff (history : List SetCall) (calls : List UInt64)
    (few : calls.toFinset.card ≤ kMaxDedupedBuffers) :
    ExactDedup (resetDmaInodeSet (history.foldl SetCall.run .zero)) calls ↔ WithinCapacity calls := by
  have start := Tracks.reset (stampsPast_run history)
  constructor
  · intro dedups before inode after split
    by_contra full
    rw [Nat.not_lt] at full
    -- The pass has seen all its inodes, and the count says how many the table holds.
    have all : before.toFinset = calls.toFinset := by
      apply Finset.eq_of_subset_of_card_le
      · intro other member
        rw [mem_toFinset] at member ⊢
        rw [split]
        exact mem_append_left _ member
      · exact Nat.le_trans few full
    have known : inode ∈ before := by
      rw [← mem_toFinset, all, mem_toFinset, split]
      exact mem_append_right _ mem_cons_self
    have answer := dedups.first before inode after split
    rw [insertInode_full (by rw [dedups.counted before _ split]; exact full) inode] at answer
    exact answer.1 rfl known
  · exact start.exactDedup

/-- One buffer with two descriptors, another with one. -/
theorem exact_dedup_two_buffers :
    ([7, 9, 7] : List UInt64).toFinset.card ≤ kMaxDedupedBuffers ∧
      ExactDedup (resetDmaInodeSet (List.foldl SetCall.run .zero [.reset, .insert 7])) [7, 9, 7] :=
  ⟨by decide, (exact_dedup_iff [.reset, .insert 7] [7, 9, 7] (by decide)).2
    (WithinCapacity.of_length (by decide))⟩

/-! ### A buffer that is counted twice -/

/-- As many buffers as the table takes. -/
def fullPass : List UInt64 := (List.range kMaxDedupedBuffers).map UInt64.ofNat

theorem card_fullPass : fullPass.toFinset.card = kMaxDedupedBuffers := by
  have distinct : fullPass.Nodup := by
    apply List.Nodup.map_on _ nodup_range
    intro first inFirst second inSecond same
    rw [mem_range] at inFirst inSecond
    have small : kMaxDedupedBuffers < 2 ^ 64 := by decide
    have values := congrArg UInt64.toNat same
    rwa [UInt64.toNat_ofNat_of_lt' (Nat.lt_trans inFirst small),
      UInt64.toNat_ofNat_of_lt' (Nat.lt_trans inSecond small)] at values
  rw [toFinset_card_of_nodup distinct, fullPass, length_map, length_range]

/-- A first pass holds as many buffers as the table takes, and comes by one of them again: it is told that
the buffer is new, and the overflow flag is set. -/
theorem repeated_inode_at_capacity :
    (fullPass ++ [0]).toFinset.card ≤ kMaxDedupedBuffers ∧ 0 ∈ fullPass ∧
      (insertInode (insertAll (resetDmaInodeSet .zero) fullPass) 0).1 = true ∧
      (insertAll (resetDmaInodeSet .zero) (fullPass ++ [0])).overflowed = true := by
  have known : (0 : UInt64) ∈ fullPass := mem_map.2 ⟨0, mem_range.2 (by decide), rfl⟩
  have length : fullPass.length = kMaxDedupedBuffers := by
    rw [fullPass, length_map, length_range]
  have tracks := (Tracks.reset (stampsPast_run [])).insertAll
    (WithinCapacity.of_length (Nat.le_of_eq length))
  have again := tracks.repeated (Nat.le_of_eq card_fullPass.symm) 0
  refine ⟨?_, known, ?_, ?_⟩
  · have same : (fullPass ++ [0]).toFinset = fullPass.toFinset := by
      ext inode
      rw [mem_toFinset, mem_toFinset, mem_append, mem_singleton, or_iff_left_iff_imp]
      rintro rfl
      exact known
    rw [same, card_fullPass]
  · exact congrArg Prod.fst again
  · rw [insertAll, foldl_append, foldl_cons, foldl_nil, ← insertAll]
    rw [foldl_nil] at again
    rw [again]
    rfl

end MallocHook
